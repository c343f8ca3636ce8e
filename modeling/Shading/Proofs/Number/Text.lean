import Shading.Number.Text
import Shading.Proofs.Number.Double
import Shading.Proofs.Token.Numeral

/-! The texts of numbers as tokens. Digits are an integer by themselves, and a finite double in the
style of GLSL is a numeral with a point or a power of ten, after a minus if its sign is set. -/
namespace Shading.Number

open Scan

/-! ### Digits -/

lemma isDigits_toString (n : Nat) : isDigits (toString n).toList = true := by
  change isDigits (Nat.repr n).toList = true
  rw [Nat.toList_repr, isDigits, Bool.and_eq_true]
  refine ⟨?_, List.all_eq_true.mpr fun c hc => Nat.isDigit_of_mem_toDigits (by decide) (by decide) hc⟩
  simp

lemma all_zeros (n : Nat) : (zeros n).toList.all Char.isDigit = true := by
  rw [zeros, String.toList_ofList, List.all_eq_true]
  intro c hc
  rw [List.eq_of_mem_replicate hc]
  rfl

variable {digits : String} {power : Int}

lemma isPower_toString (power : Int) : IsPower ('e' :: (toString power).toList) := by
  refine .inr ?_
  cases power with
  | ofNat n => exact ⟨[], _, rfl, .inl rfl, isDigits_toString n⟩
  | negSucc n =>
    refine ⟨['-'], (toString (n + 1)).toList, ?_, .inr rfl, isDigits_toString (n + 1)⟩
    change 'e' :: ("-" ++ toString (n + 1)).toList = _
    rw [String.toList_append]
    rfl

lemma isDigits_of_all {cs : List Char} (hall : cs.all Char.isDigit = true) (hcs : cs ≠ []) :
    isDigits cs = true := by
  rw [isDigits, hall, Bool.and_true, Bool.not_eq_true', List.isEmpty_eq_false_iff]
  exact hcs

lemma all_take (h : isDigits digits.toList = true) (n : Nat) : (digits.toList.take n).all Char.isDigit = true :=
  List.all_eq_true.mpr fun c hc => List.all_eq_true.mp (all_of_isDigits h) c (List.mem_of_mem_take hc)

lemma all_drop (h : isDigits digits.toList = true) (n : Nat) : (digits.toList.drop n).all Char.isDigit = true :=
  List.all_eq_true.mpr fun c hc => List.all_eq_true.mp (all_of_isDigits h) c (List.mem_of_mem_drop hc)

lemma length_pos (h : isDigits digits.toList = true) : 0 < digits.toList.length := by
  obtain ⟨c, rest, hcs⟩ := exists_cons_of_isDigits h
  rw [hcs]
  exact Nat.succ_pos _

/-- A numeral with a point or a power of ten. -/
def IsNumeral (cs : List Char) : Prop :=
  ∃ whole point power, cs = whole ++ (point ++ power) ∧ isDigits whole = true ∧ IsFraction point ∧
    IsPower power ∧ (point ≠ [] ∨ power ≠ [])

lemma toString_text (text : String) : toString text = text := rfl

lemma isNumeral_scientific (h : isDigits digits.toList = true) (power : Int) :
    IsNumeral (scientific digits power).toList := by
  have hpos := length_pos h
  have hhead : isDigits (digits.toList.take 1) = true := by
    refine isDigits_of_all (all_take h 1) fun hempty => ?_
    rw [List.take_eq_nil_iff] at hempty
    obtain hempty | hempty := hempty
    · cases hempty
    · simp [hempty] at hpos
  unfold scientific
  dsimp only
  split
  · refine ⟨digits.toList.take 1, [], _, ?_, hhead, .inl rfl, isPower_toString power, .inr (by simp)⟩
    simp [toString_text]
  · refine ⟨digits.toList.take 1, '.' :: digits.toList.drop 1, _, ?_, hhead,
      .inr ⟨_, rfl, all_drop h 1⟩, isPower_toString power,
      .inr (by simp)⟩
    simp [toString_text]

lemma isNumeral_positional (h : isDigits digits.toList = true) (exponent : Int) :
    IsNumeral (positional digits exponent true).toList := by
  have hpos := length_pos h
  unfold positional
  simp only [if_true]
  split_ifs with hexponent hcount
  · refine ⟨digits.toList ++ (zeros exponent.toNat).toList, ['.', '0'], [], ?_, ?_,
      .inr ⟨_, rfl, rfl⟩, .inl rfl, .inl (by simp)⟩
    · simp
    · refine isDigits_of_all ?_ fun hempty => ?_
      · rw [List.all_append, all_of_isDigits h, all_zeros, Bool.and_true]
      · simp [List.append_eq_nil_iff.mp hempty] at hpos
  · have hwhole : 0 < ((digits.length : Int) + exponent).toNat := by omega
    refine ⟨digits.toList.take ((digits.length : Int) + exponent).toNat,
      '.' :: digits.toList.drop ((digits.length : Int) + exponent).toNat,
      [], ?_, isDigits_of_all (all_take h _) fun hempty =>
        ?_, .inr ⟨_, rfl, all_drop h _⟩, .inl rfl, .inl (by simp)⟩
    · simp [toString_text]
    · rw [List.take_eq_nil_iff] at hempty
      obtain hempty | hempty := hempty
      · omega
      · simp [hempty] at hpos
  · refine ⟨['0'], '.' :: ((zeros (-exponent - digits.length).toNat).toList ++ digits.toList), [],
      ?_, rfl, .inr ⟨_, rfl, ?_⟩, .inl rfl,
      .inl (by simp)⟩
    · simp
    · rw [List.all_append, all_of_isDigits h, all_zeros, Bool.and_true]

lemma isNumeral_text (d : Decimal) : IsNumeral (d.text glslStyle).toList := by
  unfold Decimal.text
  dsimp only
  split
  · exact isNumeral_scientific (isDigits_toString _) _
  · exact isNumeral_positional (isDigits_toString _) _

/-! ### Signs -/

variable {x : Double}

lemma testBit_neg (x : Double) {i : Nat} (hi : i < 63) : x.neg.bits.toNat.testBit i = x.bits.toNat.testBit i := by
  change (x.bits ^^^ 0x8000000000000000).toNat.testBit i = _
  rw [UInt64.toNat_xor, Nat.testBit_xor, show (0x8000000000000000 : UInt64).toNat = 2 ^ 63 from rfl,
    Nat.testBit_two_pow_of_ne (Nat.ne_of_gt hi), Bool.xor_false]

lemma biased_neg (x : Double) : x.neg.biased = x.biased := by
  refine Nat.eq_of_testBit_eq fun i => ?_
  change (x.neg.bits.toNat / 2 ^ 52 % 2 ^ 11).testBit i = (x.bits.toNat / 2 ^ 52 % 2 ^ 11).testBit i
  simp only [Nat.testBit_mod_two_pow, Nat.testBit_div_two_pow]
  by_cases hi : i < 11
  · rw [testBit_neg x (by omega)]
  · simp only [hi, decide_false, Bool.false_and]

lemma fraction_neg (x : Double) : x.neg.fraction = x.fraction := by
  refine Nat.eq_of_testBit_eq fun i => ?_
  change (x.neg.bits.toNat % 2 ^ 52).testBit i = (x.bits.toNat % 2 ^ 52).testBit i
  simp only [Nat.testBit_mod_two_pow]
  by_cases hi : i < 52
  · rw [testBit_neg x (by omega)]
  · simp only [hi, decide_false, Bool.false_and]

lemma ofDouble_neg (x : Double) : Binary.ofDouble x.neg = .ofDouble x := by
  unfold Binary.ofDouble
  rw [biased_neg, fraction_neg]

lemma text_of_isNegative {style : TextStyle} (h : x.isNegative = true) (hx : x.biased ≠ 0x7ff) :
    text style x = "-" ++ text style x.neg := by
  unfold text
  rw [biased_neg, fraction_neg, ofDouble_neg, Double.isNegative_neg, h]
  simp only [if_neg hx, if_true, Bool.not_true, Bool.false_eq_true, if_false]
  split
  · rw [String.append_assoc, String.empty_append]
  · rw [String.empty_append]

lemma isNumeral_text_of_nonneg (h : x.isNegative = false) (hx : x.biased ≠ 0x7ff) :
    IsNumeral (text glslStyle x).toList := by
  unfold text
  simp only [h, if_neg hx, Bool.false_eq_true, if_false]
  split
  · exact ⟨['0'], ['.', '0'], [], rfl, rfl, .inr ⟨_, rfl, rfl⟩, .inl rfl, .inl (by simp)⟩
  · rw [String.empty_append]
    exact isNumeral_text _

lemma biased_of_isWithin {bound : Float} (h : IsWithin x.toFloat bound) : x.biased ≠ 0x7ff := by
  intro hx
  have hexponent : @Float.Model.UnpackedFloat.unpackExponent .binary64 x.bits.toBitVec = -1#11 := by
    apply BitVec.eq_of_toNat_eq
    simpa [Float.Model.UnpackedFloat.unpackExponent, BitVec.extractLsb, Nat.shiftRight_eq_div_pow,
      Double.biased] using hx
  have hfinite : (parts x.toFloat).isFinite = true := h.1
  rw [Double.parts_toFloat] at hfinite
  unfold unpacked Float.Model.UnpackedFloat.unpack at hfinite
  rw [if_pos hexponent] at hfinite
  split at hfinite <;> cases hfinite

end Shading.Number
