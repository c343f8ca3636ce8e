import Shading.Proofs.Number.Double
import Shading.Check.Operator
import Shading.Grammar.Expression

/-! Literals within the range of their type. Whatever makes a literal makes one that fits: numerals,
casts, the change to a wider type, and operators that are computed on the spot, whose results are
words or have been compared with the bounds of the type. -/
namespace Shading

open Number (IsWithin)

namespace Literal

/-- The literal is a value of the type. The integers of all types are words of 32 bits. -/
def Fits (s : Scalar) : Literal → Prop
  | .bool _ => s.kind = .boolean
  | .int i => s.kind = .signed ∧ -2 ^ 31 ≤ i ∧ i < 2 ^ 31 ∨ s.kind = .unsigned ∧ 0 ≤ i ∧ i < 2 ^ 32
  | .float x => s.kind = .float ∧ IsWithin x.toFloat s.maxValue

variable {s : Scalar} {v w : Literal}

/-! ### Words -/

lemma toInt_range (w : BitVec 32) : -2 ^ 31 ≤ w.toInt ∧ w.toInt < 2 ^ 31 := by
  have h := @BitVec.le_toInt 32 w
  have h' := @BitVec.toInt_lt 32 w
  simpa using And.intro h h'

lemma toNat_range (w : BitVec 32) : (0 : Int) ≤ w.toNat ∧ (w.toNat : Int) < 2 ^ 32 := by
  have := w.isLt
  omega

lemma fits_ofWord (h : s.isInteger = true) (w : BitVec 32) : Fits s (.int (ofWord s w)) := by
  have hi := toInt_range w
  have hn := toNat_range w
  cases s <;> simp_all [Fits, ofWord, Scalar.kind, Scalar.isInteger]

lemma fits_quotient (h : s.isInteger = true) (a b : Int) : Fits s (.int (quotient s a b)) := by
  have hi := toInt_range ((word a).sdiv (word b))
  have hn := toNat_range ((word a).udiv (word b))
  cases s <;> simp_all [Fits, quotient, Scalar.kind, Scalar.isInteger]

lemma fits_remainder (h : s.isInteger = true) (a b : Int) : Fits s (.int (remainder s a b)) := by
  have hi := toInt_range ((word a).srem (word b))
  have hn := toNat_range ((word a).umod (word b))
  cases s <;> simp_all [Fits, remainder, Scalar.kind, Scalar.isInteger]

lemma isInteger_of_fits {i : Int} (h : Fits s (.int i)) : s.isInteger = true := by
  cases s <;> simp_all [Fits, Scalar.kind, Scalar.isInteger]

/-! ### Numbers -/

lemma isWithin_neg {x : Number.Double} {bound : Float} (h : IsWithin x.toFloat bound) :
    IsWithin x.neg.toFloat bound := by
  refine h.congr ?_
  rw [Number.Double.parts_neg]
  cases Number.parts x.toFloat <;> rfl

lemma isWithin_ofFloat {x bound : Float} (h : IsWithin x bound) :
    IsWithin (Number.Double.ofFloat x).toFloat bound :=
  h.congr (by rw [Number.Double.parts_ofFloat])

lemma isPositive_maxValue (s : Scalar) : Number.isPositive s.maxValue = true := by
  cases s <;> decide +kernel

lemma isWithin_of_inRange {x : Float} (hs : s.kind = .float) (h : s.inRange x = true) : IsWithin x s.maxValue := by
  simp only [Scalar.inRange, Bool.and_eq_true, decide_eq_true_eq] at h
  cases s <;> cases hs <;> exact Number.isWithin_of_between (isPositive_maxValue _) h.1 h.2

lemma fits_held {x : Float} (hs : s.kind = .float) (h : held s x = .value v) : Fits s v := by
  unfold held at h
  split at h
  · rename_i hwithin
    simp only [Bool.and_eq_true, decide_eq_true_eq] at hwithin
    obtain rfl := Folded.value.inj h
    exact ⟨hs, isWithin_ofFloat hwithin⟩
  · cases h

/-! ### Conversions -/

lemma fits_hasInteger {i : Int} (h : s.hasInteger i = true) : Fits s (.int i) := by
  cases s <;> simp_all [Fits, Scalar.hasInteger, Scalar.kind] <;> omega

lemma fits_retype? (h : v.retype? s = some w) : Fits s w := by
  unfold retype? at h
  split at h
  case h_5 => cases h
  all_goals
    rename_i hkind
    split at h
    · obtain rfl := Option.some.inj h
      first | exact fits_hasInteger ‹_› | exact ⟨hkind, isWithin_ofFloat (isWithin_of_inRange hkind ‹_›)⟩
    · cases h

lemma fits_cast? (h : v.cast? s = some w) : Fits s w := by
  unfold cast? at h
  split at h
  · obtain rfl := Option.some.inj h
    assumption
  · split at h
    · obtain rfl := Option.some.inj h
      exact ⟨‹_›, isWithin_ofFloat (isWithin_of_inRange ‹_› ‹_›)⟩
    · cases h
  all_goals
    obtain ⟨i, hi, rfl⟩ := Option.map_eq_some_iff.mp h
    exact fits_hasInteger (Option.filter_eq_some_iff.mp hi).2

/-! ### Operators -/

lemma fits_unary? {op : Operator} (hv : Fits s v) (h : unary? op s v = some w) : Fits s w := by
  cases v with
  | bool b =>
    cases op <;> cases h
    exact hv
  | int i =>
    have hinteger := isInteger_of_fits hv
    cases op <;> cases h
    · exact hv
    · exact fits_ofWord hinteger _
    · exact fits_ofWord hinteger _
  | float x =>
    cases op <;> cases h
    · exact hv
    · exact ⟨hv.1, isWithin_neg hv.2⟩

/-- A computed value fits the type of the operands after arithmetic and is a truth value
otherwise. -/
lemma fits_binary {op : Operator} {l r : Literal} {t : Scalar} (hl : Fits s l) (hr : Fits t r)
    (h : binary op s l r = .value v) :
    Fits (if op.isArithmetic then s else .bool) v := by
  cases l <;> cases r <;> simp only [binary, reduceCtorEq] at h
  case bool.bool => cases op <;> cases h <;> rfl
  case int.int a b =>
    have hinteger := isInteger_of_fits hl
    cases op <;> simp only [binaryInt, Folded.value.injEq, reduceCtorEq] at h
    case div =>
      split at h
      · cases h
      · obtain rfl := Folded.value.inj h
        exact fits_quotient hinteger a b
    case rem =>
      split at h
      · cases h
      · obtain rfl := Folded.value.inj h
        exact fits_remainder hinteger a b
    case shl | shr =>
      split at h
      · obtain rfl := Folded.value.inj h
        exact fits_ofWord hinteger _
      · cases h
    all_goals subst h
    all_goals first | rfl | exact fits_ofWord hinteger _
  case float.float =>
    have hfloat := hl.1
    cases op <;> simp only [binaryFloat, Folded.value.injEq, reduceCtorEq] at h
    case add | sub | mul => exact fits_held hfloat h
    case div =>
      split at h
      · cases h
      · exact fits_held hfloat h
    all_goals subst h
    all_goals rfl

end Literal

/-! ### Numerals -/

namespace Number

lemma nearestBits_lt (n d : Nat) : nearestBits n d < 2 ^ 63 :=
  Nat.lt_of_le_of_lt (Nat.min_le_right _ _) (by decide)

lemma isNegative_toDouble (x : Numerals) : x.toDouble.isNegative = false := by
  unfold Numerals.toDouble
  dsimp only
  split
  · rfl
  split
  · rfl
  · have hlt := nearestBits_lt
    unfold Double.isNegative
    rw [UInt64.toNat_ofNat_of_lt' (Nat.lt_trans (hlt _ _) (by decide))]
    exact Nat.testBit_lt_two_pow (hlt _ _)

end Number

lemma Literal.fits_numeral {cs : List Char} (h : (Numeral.float cs).toFloat ≤ Scalar.singleMax) :
    Literal.Fits .float (.float (Numeral.float cs)) :=
  ⟨rfl, Number.isWithin_of_nonneg (Literal.isPositive_maxValue .float) (Number.isNegative_toDouble _) h⟩

end Shading
