import Shading.Proofs.Token.Numeral

/-! One token and what may stand right after it. Whatever replaces the text after the first token,
as long as it does not continue the token, the first token stays the same. Put alone, with nothing
after it, the lexeme of a token is that token again. -/
namespace Shading

namespace Punctuator

/-- Whether a character after a mark makes it a longer mark, the start of a comment or the start of
a number. -/
def isContinued (p : Punctuator) (d : Char) : Bool :=
  (all.any fun q => (p.spelling ++ [d]).isPrefixOf q.spelling) ||
    (p == .slash && (d == '/' || d == '*')) || (p == .dot && d.isDigit)

end Punctuator

namespace Scan

/-- Whether a lexeme stays a token of its own with the character after it. -/
def separates (kind : TokenKind) (lexeme : List Char) (d : Char) : Bool :=
  match kind with
  | .endOfFile => false
  | .invalid => lexeme.length == 1
  | .whitespace => !isBlank d
  | .lineComment => isLineEnd d
  | .blockComment => true
  | .integer => !isWordChar d && (d != '.' || !isDigits lexeme)
  | .float | .truth _ | .identifier | .reserved | .keyword _ => !isWordChar d
  | .mark p => !p.isContinued d

/-- Whether a lexeme stays a token of its own with the text after it. -/
def ends (kind : TokenKind) (lexeme next : List Char) : Bool := next.head?.all (separates kind lexeme)

variable {c d : Char} {cs rest lexeme next r : List Char} {kind : TokenKind}

@[simp] lemma ends_nil : ends kind lexeme [] = true := rfl

@[simp] lemma ends_cons : ends kind lexeme (d :: next) = separates kind lexeme d := rfl

/-! ### Words and blanks -/

lemma run_replace {p : Char → Bool} (hnext : next.head?.any p = false) :
    run p ((run p cs).1 ++ next) = ((run p cs).1, next) :=
  run_append_of_all List.all_takeWhile hnext

lemma separates_wordKind {word : List Char} : separates (wordKind word) lexeme d = !isWordChar d := by
  unfold wordKind
  dsimp only
  repeat' split
  all_goals rfl

lemma any_eq_false {p q : Char → Bool} (h : next.head?.all p = true)
    (hpq : ∀ d, p d = true → q d = false) : next.head?.any q = false := by
  cases next with
  | nil => rfl
  | cons d next => exact hpq d h

lemma munch_word (hc : isWordStart c = true) :
    munch c rest = (wordKind (run isWordChar (c :: rest)).1, run isWordChar (c :: rest)) := by
  unfold munch
  rw [if_pos hc]

lemma isDigit_of_isBlank (h : isBlank c = true) : c.isDigit = false ∧ c ≠ '.' ∧ isWordStart c = false := by
  simp only [isBlank, Bool.or_eq_true, beq_iff_eq] at h
  obtain ((((rfl | rfl) | rfl) | rfl) | rfl) | rfl := h <;> decide

lemma munch_blank (hc : isBlank c = true) : munch c rest = (.whitespace, run isBlank (c :: rest)) := by
  obtain ⟨hdigit, hdot, hword⟩ := isDigit_of_isBlank hc
  unfold munch
  rw [if_neg (by simp [hword]), if_neg (by simp [hdigit, hdot]), if_pos hc]

/-! ### Numbers -/

lemma isWordChar_of_isDigit (h : d.isDigit = true) : isWordChar d = true := by
  simp [isWordChar, Char.isAlphanum, h]

lemma isWordChar_of_isHexDigit (h : isHexDigit d = true) : isWordChar d = true := by
  simp only [isHexDigit, Bool.or_eq_true, Bool.and_eq_true, decide_eq_true_eq, Char.le_def,
    UInt32.le_iff_toNat_le] at h
  simp only [isWordChar, Char.isAlphanum, Char.isAlpha, Char.isUpper, Char.isLower, Bool.or_eq_true,
    Bool.and_eq_true,
    decide_eq_true_eq, UInt32.le_iff_toNat_le, ge_iff_le]
  obtain (h | h) | h := h
  · exact .inl (.inr h)
  · change 97 ≤ d.val.toNat ∧ d.val.toNat ≤ 102 at h
    exact .inl (.inl (.inr ⟨h.1, Nat.le_trans h.2 (by decide)⟩))
  · change 65 ≤ d.val.toNat ∧ d.val.toNat ≤ 70 at h
    exact .inl (.inl (.inl ⟨h.1, Nat.le_trans h.2 (by decide)⟩))

/-- A mark for a power of ten, a sign or none, and digits. -/
def IsExponent (cs : List Char) : Prop :=
  cs = [] ∨ ∃ e sign ds, cs = e :: (sign ++ ds) ∧ (e = 'e' ∨ e = 'E') ∧
    (sign = [] ∨ sign = ['+'] ∨ sign = ['-']) ∧ isDigits ds = true

/-- One of two letters, or nothing. -/
def IsSuffix (lower upper : Char) (cs : List Char) : Prop := cs = [] ∨ cs = [lower] ∨ cs = [upper]

/-- The parts of a number without a hexadecimal mark. -/
inductive IsDecimal : TokenKind → List Char → Prop where
  | integer {whole u : List Char} (hwhole : isDigits whole = true) (hu : IsSuffix 'u' 'U' u) :
    IsDecimal .integer (whole ++ u)
  | float {whole point power f : List Char} (hwhole : whole.all Char.isDigit = true) (hpoint : IsFraction point)
    (hpower : IsExponent power) (hf : IsSuffix 'f' 'F' f) (h : point ≠ [] ∨ power ≠ [] ∨ f ≠ []) :
    IsDecimal .float (whole ++ (point ++ (power ++ f)))

lemma isFraction_fraction : IsFraction (fraction cs).1 := by
  unfold fraction
  split
  · exact .inr ⟨_, rfl, List.all_takeWhile⟩
  · exact .inl rfl

lemma isDigits_run (h : cs.head?.any Char.isDigit = true) : isDigits (run Char.isDigit cs).1 = true := by
  cases cs with
  | nil => cases h
  | cons c cs =>
    have hne := @run_ne_nil Char.isDigit c cs h
    have hall : (run Char.isDigit (c :: cs)).1.all Char.isDigit = true := List.all_takeWhile
    simp [isDigits, hall, hne]

lemma isExponent_exponent : IsExponent (exponent cs).1 := by
  fun_cases exponent cs with
  | case1 => exact .inl rfl
  | case2 e he s more hs hmore =>
    simp only [Bool.or_eq_true, beq_iff_eq] at he hs
    have hsign : [s] = [] ∨ [s] = ['+'] ∨ [s] = ['-'] := by
      obtain rfl | rfl := hs
      · exact .inr (.inl rfl)
      · exact .inr (.inr rfl)
    exact .inr ⟨e, [s], _, rfl, he, hsign, isDigits_run hmore⟩
  | case4 e he s more hs hdigit =>
    simp only [Bool.or_eq_true, beq_iff_eq] at he
    have hds : isDigits (run Char.isDigit (s :: more)).1 = true := isDigits_run hdigit
    exact .inr ⟨e, [], _, rfl, he, .inl rfl, hds⟩
  | _ => exact .inl rfl

variable {lower upper : Char}

lemma isSuffix_suffix : IsSuffix lower upper (suffix lower upper cs).1 := by
  fun_cases suffix lower upper cs with
  | case1 c rest h =>
    simp only [Bool.and_eq_true, Bool.or_eq_true, beq_iff_eq] at h
    obtain rfl | rfl := h.1
    · exact .inr (.inl rfl)
    · exact .inr (.inr rfl)
  | _ => exact .inl rfl

lemma isDecimal_decimal (h : (c.isDigit || (c == '.' && rest.head?.any Char.isDigit)) = true) :
    IsDecimal (decimal (c :: rest)).1 (decimal (c :: rest)).2.1 := by
  have hall : (run Char.isDigit (c :: rest)).1.all Char.isDigit = true := List.all_takeWhile
  unfold decimal
  dsimp only
  split
  · rename_i hempty
    simp only [Bool.and_eq_true, List.isEmpty_iff] at hempty
    refine .integer ?_ isSuffix_suffix
    by_cases hc : c.isDigit = true
    · exact isDigits_run hc
    · -- A number that starts with its point has a fraction.
      simp only [hc, Bool.false_or, Bool.and_eq_true, beq_iff_eq] at h
      obtain ⟨rfl, -⟩ := h
      cases hempty.1.1
  · rename_i hempty
    rw [List.append_assoc, List.append_assoc]
    refine .float hall isFraction_fraction isExponent_exponent isSuffix_suffix ?_
    simp only [Bool.and_eq_true, List.isEmpty_iff, not_and_or] at hempty
    tauto

section Heads

variable {p : Char → Bool}

lemma head?_append_any (hcs : cs.head?.any p = false) (hnext : next.head?.any p = false) :
    (cs ++ next).head?.any p = false := by
  cases cs with
  | nil => exact hnext
  | cons c cs => exact hcs

lemma IsFraction.any (h : IsFraction cs) (hdot : p '.' = false) : cs.head?.any p = false := by
  obtain rfl | ⟨ds, rfl, -⟩ := h
  · rfl
  · exact hdot

lemma IsExponent.any (h : IsExponent cs) (hlower : p 'e' = false) (hupper : p 'E' = false) :
    cs.head?.any p = false := by
  obtain rfl | ⟨e, sign, ds, rfl, rfl | rfl, -, -⟩ := h
  · rfl
  · exact hlower
  · exact hupper

lemma IsSuffix.any (h : IsSuffix lower upper cs) (hlower : p lower = false) (hupper : p upper = false) :
    cs.head?.any p = false := by
  obtain rfl | rfl | rfl := h
  · rfl
  · exact hlower
  · exact hupper

/-- Where no word goes on, nothing goes on that is made of the characters of words. -/
lemma any_of_isWordChar (hnext : next.head?.any isWordChar = false) (hp : ∀ d, p d = true → isWordChar d = true) :
    next.head?.any p = false := by
  cases next with
  | nil => rfl
  | cons d next =>
    rw [List.head?_cons, Option.any_some, Bool.eq_false_iff] at hnext ⊢
    exact fun hd => hnext (hp d hd)

end Heads

lemma fraction_replace {point : List Char} (h : IsFraction point) (hdigit : next.head?.any Char.isDigit = false)
    (hdot : point = [] → next.head?.any (· == '.') = false) : fraction (point ++ next) = (point, next) := by
  obtain rfl | ⟨ds, rfl, hds⟩ := h
  · have hdot := hdot rfl
    cases next with
    | nil => rfl
    | cons d next =>
      have hd : d ≠ '.' := by simpa using hdot
      unfold fraction
      split
      · rename_i heq
        cases heq
        exact absurd rfl hd
      · rfl
  · change ('.' :: (run Char.isDigit (ds ++ next)).1, (run Char.isDigit (ds ++ next)).2) = _
    rw [run_append_of_all hds hdigit]

lemma exponent_replace {power : List Char} (h : IsExponent power) (hdigit : next.head?.any Char.isDigit = false)
    (he : power = [] → next.head?.any (fun d => d == 'e' || d == 'E') = false) :
    exponent (power ++ next) = (power, next) := by
  obtain rfl | ⟨e, sign, ds, rfl, hmark, hsign, hds⟩ := h
  · have he := he rfl
    cases next with
    | nil => rfl
    | cons d next =>
      have hd : (d == 'e' || d == 'E') = false := he
      simp [exponent, hd]
  · obtain ⟨d, more, rfl⟩ := exists_cons_of_isDigits hds
    have hall := all_of_isDigits hds
    have hd : d.isDigit = true := (Bool.and_eq_true_iff.mp hall).1
    have hplain : (d == '+' || d == '-') = false := by
      simp only [Bool.or_eq_false_iff, beq_eq_false_iff_ne]
      constructor <;> rintro rfl <;> exact absurd hd (by decide)
    have hrun : run Char.isDigit (d :: (more ++ next)) = (d :: more, next) := run_append_of_all hall hdigit
    have hmark : (e == 'e' || e == 'E') = true := by simpa using hmark
    obtain rfl | rfl | rfl := hsign
    · simp [exponent, hmark, hplain, hd, hrun]
    · simp [exponent, hmark, hd, hrun]
    · simp [exponent, hmark, hd, hrun]

lemma suffix_replace (h : IsSuffix lower upper cs) (hnext : next.head?.any isWordChar = false)
    (hlower : isWordChar lower = true) (hupper : isWordChar upper = true) :
    suffix lower upper (cs ++ next) = (cs, next) := by
  obtain rfl | rfl | rfl := h
  · cases next with
    | nil => rfl
    | cons d next =>
      have hd : isWordChar d = false := hnext
      have hl : d ≠ lower := by rintro rfl; rw [hlower] at hd; cases hd
      have hu : d ≠ upper := by rintro rfl; rw [hupper] at hd; cases hd
      simp [suffix, hl, hu]
  · simp [suffix, hnext]
  · simp [suffix, hnext]

lemma isWordChar_of_ends (h : IsDecimal kind lexeme) (hends : ends kind lexeme next = true) :
    next.head?.any isWordChar = false := by
  refine any_eq_false hends fun d hd => ?_
  cases h with
  | integer => simpa using (Bool.and_eq_true_iff.mp hd).1
  | float => simpa [separates] using hd

/-- The parts of a number are found again before a text that does not continue it. -/
lemma decimal_replace (h : IsDecimal kind lexeme) (hends : ends kind lexeme next = true) :
    decimal (lexeme ++ next) = (kind, lexeme, next) := by
  have hword := isWordChar_of_ends h hends
  have hdigit := any_of_isWordChar hword fun d => isWordChar_of_isDigit
  have hmark : next.head?.any (fun d => d == 'e' || d == 'E') = false := by
    refine any_of_isWordChar hword fun d hd => ?_
    simp only [Bool.or_eq_true, beq_iff_eq] at hd
    obtain rfl | rfl := hd <;> rfl
  cases h with
  | @integer whole u hwhole hu =>
    have hu_digit := head?_append_any (hu.any rfl rfl) hdigit
    have hu_dot : (u ++ next).head?.any (· == '.') = false := by
      obtain rfl | rfl | rfl := hu
      · refine any_eq_false hends fun d hd => ?_
        simpa [separates, hwhole] using (Bool.and_eq_true_iff.mp hd).2
      · rfl
      · rfl
    have hu_f : suffix 'f' 'F' (u ++ next) = ([], u ++ next) := by
      obtain rfl | rfl | rfl := hu
      · exact suffix_replace (.inl rfl) hword rfl rfl
      · rfl
      · rfl
    have hrun : run Char.isDigit (whole ++ (u ++ next)) = (whole, u ++ next) :=
      run_append_of_all (all_of_isDigits hwhole) hu_digit
    have hfraction : fraction (u ++ next) = ([], u ++ next) :=
      fraction_replace (.inl rfl) hu_digit fun _ => hu_dot
    have hexponent : exponent (u ++ next) = ([], u ++ next) :=
      exponent_replace (.inl rfl) hu_digit fun _ => head?_append_any (hu.any rfl rfl) hmark
    have hsuffix : suffix 'u' 'U' (u ++ next) = (u, next) := suffix_replace hu hword rfl rfl
    rw [List.append_assoc]
    simp [decimal, hrun, hfraction, hexponent, hu_f, hsuffix]
  | @float whole point power f hwhole hpoint hpower hf hnonempty =>
    have hf_digit := head?_append_any (hf.any rfl rfl) hdigit
    have hpower_digit := head?_append_any (hpower.any rfl rfl) hf_digit
    -- Without a fraction there is a power or a letter, so a point after the number belongs to what follows.
    have hpower_dot : point = [] → (power ++ (f ++ next)).head?.any (· == '.') = false := by
      rintro rfl
      obtain rfl | ⟨e, sign, ds, rfl, rfl | rfl, -, -⟩ := hpower
      · obtain rfl | rfl | rfl := hf
        · simp at hnonempty
        · rfl
        · rfl
      · rfl
      · rfl
    have hrun : run Char.isDigit (whole ++ (point ++ (power ++ (f ++ next)))) =
      (whole, point ++ (power ++ (f ++ next))) :=
      run_append_of_all hwhole (head?_append_any (hpoint.any rfl) hpower_digit)
    have hfraction : fraction (point ++ (power ++ (f ++ next))) = (point, power ++ (f ++ next)) :=
      fraction_replace hpoint hpower_digit hpower_dot
    have hexponent : exponent (power ++ (f ++ next)) = (power, f ++ next) :=
      exponent_replace hpower hf_digit fun _ => head?_append_any (hf.any rfl rfl) hmark
    have hsuffix : suffix 'f' 'F' (f ++ next) = (f, next) := suffix_replace hf hword rfl rfl
    have hempty : (point.isEmpty && power.isEmpty && f.isEmpty) = false := by
      rw [Bool.eq_false_iff]
      simp only [ne_eq, Bool.and_eq_true, List.isEmpty_iff]
      tauto
    simp only [List.append_assoc]
    simp [decimal, hrun, hfraction, hexponent, hsuffix, hempty]

lemma hexadecimal_replace {x : Char} (h : hexadecimal x cs = (kind, lexeme, r))
    (hends : ends kind lexeme next = true) :
    ∃ tail, lexeme = '0' :: x :: tail ∧ hexadecimal x (tail ++ next) = (kind, lexeme, next) := by
  have hds : (run isHexDigit cs).1.all isHexDigit = true := List.all_takeWhile
  have hu : IsSuffix 'u' 'U' (suffix 'u' 'U' (run isHexDigit cs).2).1 := isSuffix_suffix
  simp only [hexadecimal, Prod.mk.injEq] at h
  obtain ⟨rfl, rfl, -⟩ := h
  have hword : next.head?.any isWordChar = false := any_eq_false hends fun d hd =>
    by simpa using (Bool.and_eq_true_iff.mp hd).1
  have hhex := head?_append_any (hu.any rfl rfl) (any_of_isWordChar hword fun d => isWordChar_of_isHexDigit)
  refine ⟨(run isHexDigit cs).1 ++ (suffix 'u' 'U' (run isHexDigit cs).2).1, rfl, ?_⟩
  rw [List.append_assoc, hexadecimal, run_append_of_all hds hhex]
  simp [suffix_replace hu hword rfl rfl]

/-- What the scanner takes for a number. -/
def startsNumber (c : Char) (rest : List Char) : Bool := c.isDigit || (c == '.' && rest.head?.any Char.isDigit)

lemma startsNumber_replace (h : startsNumber c rest = true) (hrest : number (c :: rest) = (kind, c :: cs, r)) :
    startsNumber c (cs ++ next) = true := by
  unfold startsNumber at h ⊢
  by_cases hc : c.isDigit = true
  · simp [hc]
  · simp only [hc, Bool.false_or, Bool.and_eq_true, beq_iff_eq] at h
    obtain ⟨rfl, hdigit⟩ := h
    cases rest with
    | nil => cases hdigit
    | cons d rest =>
      have hd : d.isDigit = true := hdigit
      have hnumber : (number ('.' :: d :: rest)).2.1.tail.head? = some d := by
        simp [number, decimal, run, fraction, hd]
      rw [hrest] at hnumber
      cases cs with
      | nil => cases hnumber
      | cons e cs =>
        obtain rfl := Option.some.inj hnumber
        simp [hd]

lemma number_replace (h : startsNumber c rest = true) (hrest : number (c :: rest) = (kind, c :: cs, r))
    (hends : ends kind (c :: cs) next = true) : number (c :: (cs ++ next)) = (kind, c :: cs, next) := by
  have happend := number_append (c :: rest)
  rw [hrest, List.cons_append, List.cons.injEq] at happend
  obtain ⟨-, happend⟩ := happend
  unfold number at hrest
  split at hrest
  · obtain ⟨tail, htail, hreplace⟩ := hexadecimal_replace hrest hends
    obtain ⟨rfl, rfl⟩ := List.cons.inj htail
    exact hreplace
  · obtain ⟨tail, htail, hreplace⟩ := hexadecimal_replace hrest hends
    obtain ⟨rfl, rfl⟩ := List.cons.inj htail
    exact hreplace
  · rename_i hlower hupper
    have hdecimal := isDecimal_decimal h
    rw [hrest] at hdecimal
    have hword := isWordChar_of_ends hdecimal hends
    -- The mark after a zero would have been there before, or it would continue the number.
    have hmark {x : Char} {tail : List Char} (hx : isWordChar x = true)
      (hnot : ∀ more, c :: rest = '0' :: x :: more → False)
        (heq : c :: (cs ++ next) = '0' :: x :: tail) : False := by
      obtain ⟨rfl, htail⟩ := List.cons.inj heq
      cases cs with
      | nil =>
        obtain rfl : next = x :: tail := htail
        rw [List.head?_cons, Option.any_some, hx] at hword
        cases hword
      | cons e cs =>
        obtain ⟨rfl, -⟩ := List.cons.inj htail
        exact hnot (cs ++ r) (congrArg ('0' :: ·) happend.symm)
    unfold number
    split
    · rename_i heq
      exact (hmark rfl hlower heq).elim
    · rename_i heq
      exact (hmark rfl hupper heq).elim
    · exact decimal_replace hdecimal hends

/-! ### Comments and marks -/

lemma throughClose_replace {taken body : List Char} (h : throughClose taken cs = some (body, r)) :
    ∃ tail, body = taken.reverse ++ tail ∧ tail ≠ [] ∧ throughClose taken (tail ++ next) = some (body, next) := by
  fun_induction throughClose taken cs with
  | case1 taken more =>
    obtain ⟨rfl, rfl⟩ := Prod.mk.inj (Option.some.inj h)
    exact ⟨['*', '/'], by simp, by simp, rfl⟩
  | case2 taken c more hclose ih =>
    obtain ⟨tail, rfl, hne, htail⟩ := ih h
    refine ⟨c :: tail, by simp, by simp, ?_⟩
    -- The star would stand before a slash in the first text, too.
    have happend := throughClose_append h
    rw [List.cons_append, throughClose]
    · exact htail
    · rintro rest rfl heq
      cases tail with
      | nil => exact hne rfl
      | cons d tail =>
        obtain ⟨rfl, -⟩ := List.cons.inj heq
        rw [List.append_assoc] at happend
        exact hclose (tail ++ r) rfl (List.append_cancel_left happend).symm
  | case3 => cases h

variable {p : Punctuator}

lemma isPrefixOf_append_eq {q : Punctuator} (hends : ends (.mark p) lexeme next = true) :
    q.spelling.isPrefixOf (p.spelling ++ next) = q.spelling.isPrefixOf p.spelling := by
  rw [Bool.eq_iff_iff, List.isPrefixOf_iff_prefix, List.isPrefixOf_iff_prefix]
  constructor
  · intro hprefix
    obtain hshort | hlong := List.prefix_or_prefix_of_prefix hprefix (List.prefix_append p.spelling next)
    · exact hshort
    · obtain ⟨tail, htail⟩ := hlong
      cases tail with
      | nil =>
        rw [List.append_nil] at htail
        exact htail ▸ List.prefix_refl _
      | cons d tail =>
        rw [← htail, List.prefix_append_right_inj] at hprefix
        obtain ⟨more, rfl⟩ := hprefix
        have hd : p.isContinued d = false := by simpa [separates] using hends
        have hcontinued : (p.spelling ++ [d]).isPrefixOf q.spelling = true := by
          rw [List.isPrefixOf_iff_prefix, ← htail]
          exact ⟨tail, by simp⟩
        have hany : (Punctuator.all.any fun q => (p.spelling ++ [d]).isPrefixOf q.spelling) = true :=
          List.any_eq_true.mpr ⟨q, Punctuator.mem_all q, hcontinued⟩
        simp [Punctuator.isContinued, hany] at hd
  · intro hprefix
    exact hprefix.trans (List.prefix_append ..)

lemma mark?_replace (hends : ends (.mark p) lexeme next = true) : mark? (p.spelling ++ next) = some p := by
  have hall : ∀ p ∈ Punctuator.all, (Punctuator.all.find? fun q =>
    q.spelling.isPrefixOf p.spelling) = some p := by decide
  have heq : (fun q : Punctuator => q.spelling.isPrefixOf (p.spelling ++ next)) = fun q =>
    q.spelling.isPrefixOf p.spelling := by
    funext q
    exact isPrefixOf_append_eq hends
  rw [mark?, heq]
  exact hall p (Punctuator.mem_all p)

lemma mark?_eq_none (h : mark? (c :: rest) = none) : mark? (c :: next) = none := by
  have hfirst : ∀ q ∈ Punctuator.all, (Punctuator.all.any fun p =>
    p.spelling == q.spelling.take 1) = true := by decide
  have hnone (p : Punctuator) : p.spelling ≠ [c] := by
    intro hp
    have hnot := List.find?_eq_none.mp h p (Punctuator.mem_all p)
    rw [hp] at hnot
    simp at hnot
  refine List.find?_eq_none.mpr fun q hq hprefix => ?_
  obtain ⟨p, -, hp⟩ := List.any_eq_true.mp (hfirst q hq)
  refine hnone p ((eq_of_beq hp).trans ?_)
  obtain ⟨tail, htail⟩ := List.isPrefixOf_iff_prefix.mp hprefix
  cases hspelling : q.spelling with
  | nil => exact absurd hspelling (Punctuator.spelling_ne_nil q)
  | cons d ds =>
    rw [hspelling] at htail
    obtain ⟨rfl, -⟩ := List.cons.inj htail
    rfl

lemma other_of_mark? (hslash : ∀ more, c = '/' → rest = '/' :: more → False)
    (hstar : ∀ more, c = '/' → rest = '*' :: more → False) (h : mark? (c :: rest) = some p) :
    other c rest = (.mark p, p.spelling, (c :: rest).drop p.spelling.length) := by
  unfold other
  split
  · exact (hslash _ rfl rfl).elim
  · exact (hstar _ rfl rfl).elim
  · rw [h]

lemma other_of_none (h : mark? (c :: rest) = none) : other c rest = (.invalid, [c], rest) := by
  have hc : c ≠ '/' := by
    rintro rfl
    have hslash : mark? ['/'] = none := mark?_eq_none h
    revert hslash
    decide
  unfold other
  split
  · exact absurd rfl hc
  · exact absurd rfl hc
  · rw [h]

lemma eq_slash (h : p.spelling = ['/']) : p = .slash := by
  have hall : ∀ q ∈ Punctuator.all, q.spelling = ['/'] → q = .slash := by decide
  exact hall p (Punctuator.mem_all p) h

lemma eq_dot (h : p.spelling.head? = some '.') : p = .dot := by
  have hall : ∀ q ∈ Punctuator.all, q.spelling.head? = some '.' → q = .dot := by decide
  exact hall p (Punctuator.mem_all p) h

/-- What is neither a word nor a number nor blank is found again before a text that does not
continue it, and is still none of these. -/
lemma other_replace (hnumber : startsNumber c rest = false) (hrest : other c rest = (kind, c :: cs, r))
    (hends : ends kind (c :: cs) next = true) :
    startsNumber c (cs ++ next) = false ∧ other c (cs ++ next) = (kind, c :: cs, next) := by
  have happend := other_append c rest
  rw [hrest, List.cons_append, List.cons.injEq] at happend
  obtain ⟨-, happend⟩ := happend
  unfold other at hrest
  split at hrest
  case h_1 more =>
    simp only [Prod.mk.injEq, List.cons.injEq] at hrest
    obtain ⟨rfl, ⟨-, rfl⟩, -⟩ := hrest
    have hline : next.head?.any (fun d => !isLineEnd d) = false := any_eq_false hends fun d hd =>
      by simpa [separates] using hd
    refine ⟨rfl, ?_⟩
    simp [other, run_replace hline]
  case h_2 more =>
    split at hrest
    · rename_i body tail hclose
      simp only [Prod.mk.injEq] at hrest
      obtain ⟨rfl, rfl, -⟩ := hrest
      obtain ⟨tail, htail, -, hreplace⟩ := @throughClose_replace _ next _ _ _ hclose
      obtain ⟨-, rfl⟩ := List.cons.inj htail
      refine ⟨rfl, ?_⟩
      simp [other, hreplace]
    · rename_i hclose
      simp only [Prod.mk.injEq, List.cons.injEq] at hrest
      obtain ⟨rfl, ⟨-, rfl⟩, -⟩ := hrest
      cases next with
      | nil =>
        refine ⟨rfl, ?_⟩
        simp [other, hclose]
      | cons d next => simp [separates] at hends
  case h_3 hslash hstar =>
    split at hrest
    · rename_i p hmark
      simp only [Prod.mk.injEq] at hrest
      obtain ⟨rfl, hspelling, -⟩ := hrest
      have hreplace : mark? (c :: (cs ++ next)) = some p := by
        rw [← List.cons_append, ← hspelling]
        exact mark?_replace hends
      -- A comment would start here only if one did before, or if the text after a slash continued it.
      have hcomment {d : Char} (hd : Punctuator.isContinued .slash d = true)
        (hnot : ∀ more, c = '/' → rest = d :: more → False)
          (more : List Char) (hc : c = '/') (heq : cs ++ next = d :: more) : False := by
        cases cs with
        | nil =>
          obtain rfl : next = d :: more := heq
          obtain rfl : p = .slash := eq_slash (hspelling.trans (congrArg ([·]) hc))
          rw [ends_cons, separates, hd] at hends
          cases hends
        | cons e cs =>
          obtain ⟨rfl, -⟩ := List.cons.inj heq
          exact hnot (cs ++ r) hc happend.symm
      refine ⟨?_, ?_⟩
      · simp only [startsNumber, Bool.or_eq_false_iff] at hnumber
        rw [startsNumber, hnumber.1, Bool.false_or, Bool.and_eq_false_iff, or_iff_not_imp_left,
          Bool.not_eq_false, beq_iff_eq]
        rintro rfl
        obtain rfl : p = .dot := eq_dot (by rw [hspelling]; rfl)
        obtain rfl : cs = [] := (List.cons.inj hspelling).2.symm
        refine any_eq_false hends fun d hd => ?_
        simp only [separates, Punctuator.isContinued, Bool.not_eq_true', Bool.or_eq_false_iff] at hd
        simpa using hd.2
      · rw [other_of_mark? (hcomment rfl hslash) (hcomment rfl hstar) hreplace, hspelling]
        simp
    · rename_i hmark
      simp only [Prod.mk.injEq, List.cons.injEq] at hrest
      obtain ⟨rfl, ⟨-, rfl⟩, -⟩ := hrest
      have hc : c ≠ '.' := by
        rintro rfl
        have hdot : mark? ['.'] = none := mark?_eq_none hmark
        revert hdot
        decide
      refine ⟨?_, other_of_none (mark?_eq_none hmark)⟩
      simp only [startsNumber, Bool.or_eq_false_iff] at hnumber
      simp [startsNumber, hnumber.1, hc]

lemma munch_of_startsNumber (hword : isWordStart c = false) (h : startsNumber c rest = true) :
    munch c rest = number (c :: rest) := by
  unfold munch
  rw [if_neg (Bool.eq_false_iff.mp hword)]
  exact if_pos h

lemma munch_of_other (hword : isWordStart c = false) (hnumber : startsNumber c rest = false)
    (hblank : isBlank c = false) :
    munch c rest = other c rest := by
  unfold munch
  rw [if_neg (Bool.eq_false_iff.mp hword), if_neg (Bool.eq_false_iff.mp hblank)]
  exact if_neg (Bool.eq_false_iff.mp hnumber)

/-- The first token of a text stays the same before any text that does not continue it. -/
theorem munch_replace (h : munch c rest = (kind, c :: cs, r)) (hends : ends kind (c :: cs) next = true) :
    munch c (cs ++ next) = (kind, c :: cs, next) := by
  cases hword : isWordStart c with
  | true =>
    rw [munch_word hword, Prod.mk.injEq] at h
    obtain ⟨rfl, hrun⟩ := h
    have hfirst : (run isWordChar (c :: rest)).1 = c :: cs := congrArg Prod.fst hrun
    have hreplace : run isWordChar ((run isWordChar (c :: rest)).1 ++ next) =
      ((run isWordChar (c :: rest)).1, next) :=
      run_replace (any_eq_false hends fun d hd => by simpa [separates_wordKind] using hd)
    rw [hfirst, List.cons_append] at hreplace
    rw [munch_word hword, hreplace, hfirst]
  | false =>
  cases hnumber : startsNumber c rest with
  | true =>
    rw [munch_of_startsNumber hword hnumber] at h
    rw [munch_of_startsNumber hword (startsNumber_replace hnumber h)]
    exact number_replace hnumber h hends
  | false =>
  cases hblank : isBlank c with
  | true =>
    rw [munch_blank hblank, Prod.mk.injEq] at h
    obtain ⟨rfl, hrun⟩ := h
    have hfirst : (run isBlank (c :: rest)).1 = c :: cs := congrArg Prod.fst hrun
    have hreplace : run isBlank ((run isBlank (c :: rest)).1 ++ next) = ((run isBlank (c :: rest)).1, next) :=
      run_replace (any_eq_false hends fun d hd => by simpa [separates] using hd)
    rw [hfirst, List.cons_append] at hreplace
    rw [munch_blank hblank, hreplace]
  | false =>
    rw [munch_of_other hword hnumber hblank] at h
    obtain ⟨hnumber, hother⟩ := other_replace hnumber h hends
    rw [munch_of_other hword hnumber hblank, hother]

end Scan
end Shading
