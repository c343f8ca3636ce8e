import Shading.Proofs.Token.Name

/-! Numerals that are one token: digits, digits that are marked as unsigned, and digits with a
fraction, a power of ten or both. -/
namespace Shading.Scan

/-- Digits, and at least one. -/
def isDigits (cs : List Char) : Bool := !cs.isEmpty && cs.all Char.isDigit

/-- A point and the digits after it. -/
def IsFraction (cs : List Char) : Prop := cs = [] ∨ ∃ ds, cs = '.' :: ds ∧ ds.all Char.isDigit = true

/-- A power of ten. -/
def IsPower (cs : List Char) : Prop := cs = [] ∨ ∃ sign ds, cs = 'e' :: (sign ++ ds) ∧
    (sign = [] ∨ sign = ['-']) ∧ isDigits ds = true

variable {cs whole point power : List Char} {c : Char}

lemma not_isWordStart_of_isDigit (h : c.isDigit = true) : isWordStart c = false := by
  rw [Bool.eq_false_iff]
  intro hstart
  simp only [isWordStart, Char.isAlpha, Char.isUpper, Char.isLower, Char.isDigit, Bool.or_eq_true,
    Bool.and_eq_true,
    decide_eq_true_eq, UInt32.le_iff_toNat_le, ge_iff_le, beq_iff_eq] at h hstart
  change 48 ≤ c.toNat ∧ c.toNat ≤ 57 at h
  change ((65 ≤ c.toNat ∧ c.toNat ≤ 90) ∨ (97 ≤ c.toNat ∧ c.toNat ≤ 122)) ∨ c = '_' at hstart
  obtain (hstart | hstart) | rfl := hstart
  · omega
  · omega
  · exact absurd h.2 (by decide)

lemma run_append_of_all {p : Char → Bool} {rest : List Char} (h : cs.all p = true)
    (hrest : rest.head?.any p = false) :
    run p (cs ++ rest) = (cs, rest) := by
  have hall := List.all_eq_true.mp h
  unfold run
  rw [List.takeWhile_append_of_pos hall, List.dropWhile_append_of_pos hall]
  cases rest with
  | nil => simp
  | cons c rest =>
    have hc : p c = false := by simpa using hrest
    simp [hc]

/-- A text that starts with a digit is read as a number, which is not hexadecimal if there is no
mark for it. -/
lemma kind?_of_decimal {text : String} {tail : List Char} (htext : text.toList = whole ++ tail)
    (hdigit : isDigits whole = true)
    (hx : ∀ d ∈ whole ++ tail, d ≠ 'x' ∧ d ≠ 'X') (hrest : (decimal (whole ++ tail)).2.2 = []) :
    kind? text = some (decimal (whole ++ tail)).1 := by
  obtain ⟨c, cs, hcs⟩ : ∃ c cs, whole ++ tail = c :: cs := by
    cases whole with
    | nil => cases hdigit
    | cons c cs => exact ⟨c, cs ++ tail, rfl⟩
  have hc : c.isDigit = true := by
    cases whole with
    | nil => cases hdigit
    | cons d ds =>
      obtain ⟨rfl, -⟩ := List.cons.inj hcs
      simp only [isDigits, List.all_cons, Bool.and_eq_true] at hdigit
      exact hdigit.2.1
  have hmunch : munch c cs = decimal (whole ++ tail) := by
    unfold munch
    rw [not_isWordStart_of_isDigit hc, hc, ← hcs]
    unfold number
    simp only [Bool.false_eq_true, if_false, Bool.true_or, if_true]
    split
    · rename_i heq
      exact absurd rfl (hx 'x' (by rw [heq]; simp)).1
    · rename_i heq
      exact absurd rfl (hx 'X' (by rw [heq]; simp)).2
    · rfl
  unfold kind?
  rw [htext]
  split
  · rename_i hempty
    rw [hcs] at hempty
    cases hempty
  · rename_i heq
    obtain ⟨rfl, rfl⟩ := List.cons.inj (hcs.symm.trans heq)
    rw [hmunch, hrest]
    rfl

lemma ne_x_of_isDigit (h : c.isDigit = true) : c ≠ 'x' ∧ c ≠ 'X' := by
  constructor <;> rintro rfl <;> exact absurd h (by decide)

lemma ne_x_of_all (h : cs.all Char.isDigit = true) : ∀ d ∈ cs, d ≠ 'x' ∧ d ≠ 'X' :=
  fun d hd => ne_x_of_isDigit (List.all_eq_true.mp h d hd)

lemma all_of_isDigits (h : isDigits cs = true) : cs.all Char.isDigit = true := (Bool.and_eq_true_iff.mp h).2

lemma exists_cons_of_isDigits (h : isDigits cs = true) : ∃ c rest, cs = c :: rest := by
  cases cs with
  | nil => cases h
  | cons c rest => exact ⟨c, rest, rfl⟩

lemma kind?_of_isDigits {text : String} (h : isDigits text.toList = true) : kind? text = some .integer := by
  have hdecimal : decimal (text.toList ++ []) = (.integer, text.toList ++ [], []) := by
    unfold decimal
    rw [run_append_of_all (all_of_isDigits h) rfl]
    rfl
  have hx : ∀ d ∈ text.toList ++ [], d ≠ 'x' ∧ d ≠ 'X' := by
    rw [List.append_nil]
    exact ne_x_of_all (all_of_isDigits h)
  rw [kind?_of_decimal (List.append_nil _).symm h hx (by rw [hdecimal]), hdecimal]

lemma kind?_of_isDigits_u {text : String} (htext : text.toList = whole ++ ['u']) (h : isDigits whole = true) :
    kind? text = some .integer := by
  have hdecimal : decimal (whole ++ ['u']) = (.integer, whole ++ ['u'], []) := by
    unfold decimal
    rw [run_append_of_all (all_of_isDigits h) rfl]
    rfl
  have hx : ∀ d ∈ whole ++ ['u'], d ≠ 'x' ∧ d ≠ 'X' := by
    intro d hd
    obtain hd | hd := List.mem_append.mp hd
    · exact ne_x_of_all (all_of_isDigits h) d hd
    · rw [List.mem_singleton.mp hd]
      decide
  rw [kind?_of_decimal htext h hx (by rw [hdecimal]), hdecimal]

lemma fraction_append_of_isFraction (h : IsFraction point) (hpower : IsPower power) :
    fraction (point ++ power) = (point, power) := by
  have hhead : power.head?.any Char.isDigit = false := by
    obtain rfl | ⟨sign, ds, rfl, -, -⟩ := hpower <;> rfl
  obtain rfl | ⟨ds, rfl, hds⟩ := h
  · obtain rfl | ⟨sign, ds, rfl, -, -⟩ := hpower <;> rfl
  · change ('.' :: (run Char.isDigit (ds ++ power)).1, (run Char.isDigit (ds ++ power)).2) = _
    rw [run_append_of_all hds hhead]

lemma exponent_of_isPower (h : IsPower power) : exponent power = (power, []) := by
  obtain rfl | ⟨sign, ds, rfl, hsign, hds⟩ := h
  · rfl
  obtain ⟨d, rest, rfl⟩ := exists_cons_of_isDigits hds
  have hrun : run Char.isDigit (d :: rest) = (d :: rest, []) := by
    have hrun : run Char.isDigit (d :: rest ++ []) = (d :: rest, []) :=
      run_append_of_all (all_of_isDigits hds) rfl
    rwa [List.append_nil] at hrun
  have hd : d.isDigit = true := (Bool.and_eq_true_iff.mp (all_of_isDigits hds)).1
  obtain rfl | rfl := hsign
  · have hplus : (d == '+' || d == '-') = false := by
      simp only [Bool.or_eq_false_iff, beq_eq_false_iff_ne]
      constructor <;> rintro rfl <;> exact absurd hd (by decide)
    simp [exponent, hplus, hd, hrun]
  · simp [exponent, hd, hrun]

lemma kind?_of_isFraction {text : String} (htext : text.toList = whole ++ (point ++ power))
    (hwhole : isDigits whole = true)
    (hpoint : IsFraction point) (hpower : IsPower power) (h : point ≠ [] ∨ power ≠ []) :
    kind? text = some .float := by
  have hx : ∀ d ∈ whole ++ (point ++ power), d ≠ 'x' ∧ d ≠ 'X' := by
    intro d hd
    simp only [List.mem_append] at hd
    obtain hd | hd | hd := hd
    · exact ne_x_of_all (all_of_isDigits hwhole) d hd
    · obtain rfl | ⟨ds, rfl, hds⟩ := hpoint
      · cases hd
      · obtain rfl | hd := List.mem_cons.mp hd
        · decide
        · exact ne_x_of_all hds d hd
    · obtain rfl | ⟨sign, ds, rfl, hsign, hds⟩ := hpower
      · cases hd
      · obtain rfl | hd := List.mem_cons.mp hd
        · decide
        obtain hd | hd := List.mem_append.mp hd
        · obtain rfl | rfl := hsign
          · cases hd
          · rw [List.mem_singleton.mp hd]
            decide
        · exact ne_x_of_all (all_of_isDigits hds) d hd
  have hhead : (point ++ power).head?.any Char.isDigit = false := by
    obtain rfl | ⟨ds, rfl, -⟩ := hpoint
    · obtain rfl | ⟨sign, ds, rfl, -, -⟩ := hpower <;> rfl
    · rfl
  have hempty : (point.isEmpty && power.isEmpty) = false := by
    rw [Bool.and_eq_false_iff, List.isEmpty_eq_false_iff, List.isEmpty_eq_false_iff]
    exact h
  have hdecimal : decimal (whole ++ (point ++ power)) = (.float, whole ++ point ++ power ++ [], []) := by
    unfold decimal
    simp only [run_append_of_all (all_of_isDigits hwhole) hhead,
      fraction_append_of_isFraction hpoint hpower, exponent_of_isPower hpower,
      hempty, Bool.false_and, Bool.false_eq_true, if_false]
    rfl
  rw [kind?_of_decimal htext hwhole hx (by rw [hdecimal]), hdecimal]

end Shading.Scan
