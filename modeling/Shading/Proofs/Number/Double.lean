import Mathlib
import Shading.Number.Double

/-! What is kept when a double goes through `Float`: its sign, its size and whether it is finite.
`Float` unpacks its bits for every operation, so all of this is said of unpacked numbers. -/
namespace Shading.Number

open Float.Model.UnpackedFloat

/-! ### Packing -/

/-- The parts of a number of double precision, put together and taken apart again. -/
def unpacked (b : BitVec 64) : Float.Model.UnpackedFloat := unpack .binary64 b

def repacked (u : Float.Model.UnpackedFloat) : BitVec 64 := pack .binary64 u

lemma unpackSign_packComponents {sign : Sign} {exponent : BitVec 11} {mantissa : BitVec 52} :
    unpackSign (packComponents .binary64 sign exponent mantissa) = sign.toBitVec := by
  ext i hi
  simp only [unpackSign, packComponents, BitVec.extractLsb]
  grind

lemma ofBitVec_toBitVec (sign : Sign) : Sign.ofBitVec sign.toBitVec = sign := by
  cases sign <;> rfl

/-- An unpacked number as unpacking gives it: a leading bit in its place, or the smallest
exponent. -/
def IsCanonical : Float.Model.UnpackedFloat → Prop
  | .finite _ m e _ => (2 ^ 52 ≤ m ∧ m < 2 ^ 53 ∧ -1074 ≤ e ∧ e ≤ 971) ∨ (m < 2 ^ 52 ∧ e = -1074)
  | _ => True

lemma toNat_one_append (m : BitVec 52) : ((1#1 : BitVec 1) ++ m).toNat = 2 ^ 52 + m.toNat := by
  have hor := Nat.two_pow_add_eq_or_of_lt m.isLt 1
  rw [BitVec.toNat_append, Nat.shiftLeft_eq]
  simpa using hor.symm

lemma isCanonical_unpacked (b : BitVec 64) : IsCanonical (unpacked b) := by
  have hexponent := (@unpackExponent .binary64 b).isLt
  have hmantissa := (@unpackMantissa .binary64 b).isLt
  unfold unpacked unpack
  dsimp only
  split
  · split <;> trivial
  · rename_i hall
    split
    · split
      · trivial
      · rename_i hzero _
        refine .inr ⟨hmantissa, ?_⟩
        rw [hzero]
        rfl
    · rename_i hzero
      have hsome : (@unpackExponent .binary64 b).toNat ≠ 0 := fun h => hzero (BitVec.eq_of_toNat_eq h)
      have hmost : (@unpackExponent .binary64 b).toNat ≠ 2047 := fun h => hall (BitVec.eq_of_toNat_eq h)
      change _ < 2048 at hexponent
      refine .inl ⟨?_, ?_, ?_, ?_⟩
      · rw [toNat_one_append]
        exact Nat.le_add_right _ _
      · rw [toNat_one_append]
        change _ < 2 ^ 52 at hmantissa
        omega
      · change (-1074 : Int) ≤ _ - (1023 + 52 : Int)
        omega
      · change _ - (1023 + 52 : Int) ≤ 971
        omega

variable {m : Nat} {e : Int}

lemma finite_congr {s : Sign} {m' : Nat} {e' : Int} {h : 0 < m} (hm : m' = m) (he : e' = e) :
    Float.Model.UnpackedFloat.finite s m' e' (hm ▸ h) = .finite s m e h := by
  subst hm he
  rfl

section Components

variable (s : Sign) (exponent : BitVec 11) (mantissa : BitVec 52)

lemma unpacked_normal (hmost : exponent.toNat < 2047) (hzero : 0 < exponent.toNat) (hm : 0 < m)
    (hmantissa : m = 2 ^ 52 + mantissa.toNat) (hexponent : e = exponent.toNat - 1075) :
    unpacked (packComponents .binary64 s exponent mantissa) = .finite s m e hm := by
  have hall : exponent ≠ -1#11 := by rintro rfl; simp at hmost
  have hnone : exponent ≠ 0#11 := by rintro rfl; simp at hzero
  unfold unpacked unpack
  simp only [unpackSign_packComponents, unpackExponent_packComponents,
    unpackMantissa_packComponents, ofBitVec_toBitVec]
  rw [if_neg hall, if_neg hnone]
  exact finite_congr ((toNat_one_append mantissa).trans hmantissa.symm) hexponent.symm

lemma unpacked_subnormal (hm : 0 < m) (hmantissa : m = mantissa.toNat) :
    unpacked (packComponents .binary64 s 0#11 mantissa) = .finite s m (-1074) hm := by
  have hnone : mantissa ≠ 0#52 := by
    rintro rfl
    exact Nat.ne_of_gt hm hmantissa
  unfold unpacked unpack
  simp only [unpackSign_packComponents, unpackExponent_packComponents,
    unpackMantissa_packComponents, ofBitVec_toBitVec]
  rw [if_neg (by decide), if_pos trivial, dif_neg hnone]
  exact finite_congr hmantissa.symm rfl

end Components

lemma repacked_finite {s : Sign} {hm : 0 < m} (he : e ≤ 971) :
    repacked (.finite s m e hm) =
      packComponents .binary64 s (if m.log2 = 52 then .ofNat 11 (e + 1075).toNat else 0#11) (.ofNat 52 m) := by
  have hbias : ((Float.Model.Format.binary64.exponentBias : Nat) : Int) = 1023 := rfl
  have hbits : ((Float.Model.Format.binary64.mantissaBitsWithoutImplicit : Nat) : Int) = 52 := rfl
  have hall : Float.Model.Format.binary64.mantissaBits = 52 + 1 := rfl
  have hbiased : e + 1023 + 52 = e + 1075 := by omega
  unfold repacked pack
  simp only [hbias, hbits, hall, hbiased, Nat.add_right_cancel_iff]
  rw [if_neg (show ¬ 2 ^ 11 ≤ (e + 1075).toNat + 1 by omega)]
  split <;> rfl

variable {u : Float.Model.UnpackedFloat}

lemma unpacked_repacked (h : IsCanonical u) : unpacked (repacked u) = u := by
  cases u with
  | notANumber => rfl
  | infinity s => cases s <;> rfl
  | zero s => cases s <;> rfl
  | finite s m e hm =>
    obtain ⟨hlow, hhigh, he, he'⟩ | ⟨hlow, rfl⟩ := h
    · have hlog : m.log2 = 52 := (Nat.log2_eq_iff (by omega)).mpr ⟨hlow, hhigh⟩
      rw [repacked_finite he', if_pos hlog]
      refine unpacked_normal _ _ _ ?_ ?_ hm ?_ ?_
      all_goals
        simp only [BitVec.toNat_ofNat]
        omega
    · have hlog : m.log2 ≠ 52 := by
        intro hlog
        have := (Nat.log2_eq_iff (by omega)).mp hlog
        omega
      rw [repacked_finite (by omega), if_neg hlog]
      refine unpacked_subnormal _ _ hm ?_
      rw [BitVec.toNat_ofNat, Nat.mod_eq_of_lt hlow]

/-! ### Signs -/

lemma IsCanonical.abs (h : IsCanonical u) : IsCanonical u.abs := by
  cases u <;> exact h

lemma IsCanonical.neg (h : IsCanonical u) : IsCanonical u.neg := by
  cases u <;> exact h

lemma unpacked_xor (b : BitVec 64) : unpacked (b ^^^ 0x8000000000000000#64) = (unpacked b).neg := by
  have hexponent : @unpackExponent .binary64 (b ^^^ 0x8000000000000000#64) = @unpackExponent .binary64 b := by
    simp [unpackExponent, BitVec.extractLsb_xor]
  have hmantissa : @unpackMantissa .binary64 (b ^^^ 0x8000000000000000#64) = @unpackMantissa .binary64 b := by
    simp [unpackMantissa, BitVec.extractLsb_xor]
  have hsign : Sign.ofBitVec (@unpackSign .binary64 (b ^^^ 0x8000000000000000#64)) =
    -Sign.ofBitVec (@unpackSign .binary64 b) := by
    have hflip (x : BitVec 1) : Sign.ofBitVec (x ^^^ 1#1) = -Sign.ofBitVec x := by
      obtain rfl | rfl := BitVec.eq_zero_or_eq_one x <;> rfl
    simp [unpackSign, BitVec.extractLsb_xor, ← hflip]
  unfold unpacked unpack
  simp only [hexponent, hmantissa, hsign]
  split
  · split <;> rfl
  · split
    · split <;> rfl
    · rfl

/-! ### Doubles as floats -/

/-- A float as an unpacked number. -/
abbrev parts (x : Float) : Float.Model.UnpackedFloat := x.toModel.unpack

namespace Double

lemma parts_toFloat (x : Double) : parts x.toFloat = unpacked x.bits.toBitVec :=
    unpacked_repacked (isCanonical_unpacked _)

@[simp] lemma parts_ofFloat (x : Float) : parts (ofFloat x).toFloat = parts x := parts_toFloat _

@[simp] lemma parts_neg (x : Double) : parts x.neg.toFloat = (parts x.toFloat).neg := by
  rw [parts_toFloat, parts_toFloat]
  exact unpacked_xor _

end Double

@[simp] lemma parts_abs (x : Float) : parts x.abs = (parts x).abs := unpacked_repacked (isCanonical_unpacked _).abs

@[simp] lemma parts_neg (x : Float) : parts (-x) = (parts x).neg := unpacked_repacked (isCanonical_unpacked _).neg

variable {x : Float}

lemma le_iff {y : Float} : x ≤ y ↔ (parts x).le (parts y) = true := decide_eq_true_iff

/-- A finite number that is no larger than a bound, whatever its sign. -/
def IsWithin (x bound : Float) : Prop := x.isFinite = true ∧ x.abs ≤ bound

lemma IsWithin.congr {y bound : Float} (h : IsWithin x bound) (hy : (parts y).abs = (parts x).abs) :
    IsWithin y bound := by
  have hfinite {u : Float.Model.UnpackedFloat} : u.isFinite = u.abs.isFinite := by cases u <;> rfl
  refine ⟨?_, ?_⟩
  · have hx : (parts x).isFinite = true := h.1
    change (parts y).isFinite = true
    rw [hfinite, hy, ← hfinite]
    exact hx
  · rw [le_iff, parts_abs, hy, ← parts_abs, ← le_iff]
    exact h.2

lemma le_swap {n : Nat} {d : Int} :
    ((compare d e).then (compare m n)).swap.isLE = ((compare e d).then (compare n m)).isLE := by
  rw [Ordering.swap_then, Int.compare_swap, Nat.compare_swap]

/-- A finite number above zero. -/
def isPositive (x : Float) : Bool :=
  match parts x with
  | .finite .positive .. => true
  | _ => false

lemma exists_parts (h : isPositive x = true) : ∃ m e hm, parts x = .finite .positive m e hm := by
  unfold isPositive at h
  split at h
  · exact ⟨_, _, _, ‹_›⟩
  · cases h

lemma isWithin_of_between {bound : Float} (hbound : isPositive bound = true) (hl : -bound ≤ x) (hh : x ≤ bound) :
    IsWithin x bound := by
  obtain ⟨m, e, hm, hparts⟩ := exists_parts hbound
  rw [le_iff, parts_neg, hparts] at hl
  rw [le_iff, hparts] at hh
  suffices h : (parts x).isFinite = true ∧ (parts x).abs.le (parts bound) = true by
    refine ⟨h.1, le_iff.mpr ?_⟩
    rw [parts_abs]
    exact h.2
  rw [hparts]
  cases hx : parts x with
  | notANumber =>
    rw [hx] at hl
    cases hl
  | infinity s =>
    rw [hx] at hl hh
    cases s
    · cases hl
    · cases hh
  | zero s => exact ⟨rfl, rfl⟩
  | finite s n d hn =>
    rw [hx] at hl hh
    cases s with
    | positive => exact ⟨rfl, hh⟩
    | negative => exact ⟨rfl, le_swap.symm.trans hl⟩

lemma Double.abs_parts {x : Double} (h : x.isNegative = false) : (parts x.toFloat).abs = parts x.toFloat := by
  have hsign : Sign.ofBitVec (@unpackSign .binary64 x.bits.toBitVec) = .positive := by
    have hbit : @unpackSign .binary64 x.bits.toBitVec = 0#1 := by
      ext i hi
      obtain rfl : i = 0 := by omega
      simpa [unpackSign, BitVec.extractLsb, BitVec.getLsbD, isNegative] using h
    rw [hbit]
    rfl
  rw [parts_toFloat]
  unfold unpacked unpack
  simp only [hsign]
  split
  · split <;> rfl
  · split
    · split <;> rfl
    · rfl

lemma isWithin_of_nonneg {x : Double} {high : Float} (hhigh : isPositive high = true) (hx : x.isNegative = false)
    (hh : x.toFloat ≤ high) : IsWithin x.toFloat high := by
  obtain ⟨m, e, hm, hhigh⟩ := exists_parts hhigh
  have habs := x.abs_parts hx
  rw [le_iff] at hh
  refine ⟨?_, le_iff.mpr (by rw [parts_abs, habs]; exact hh)⟩
  change (parts x.toFloat).isFinite = true
  rw [hhigh] at hh
  cases hparts : parts x.toFloat with
  | notANumber =>
    rw [hparts] at hh
    cases hh
  | infinity s =>
    rw [← habs, hparts] at hh
    cases hh
  | zero s => rfl
  | finite s n d hn => rfl

end Shading.Number
