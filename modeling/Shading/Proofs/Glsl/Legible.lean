import Shading.Proofs.Glsl.Written
import Shading.Proofs.Glsl.Spacing

/-! Expressions can be read however they are laid out. What is written is followed from lexeme to
lexeme: each one is a token, and it stays apart from the one that it may come to stand next to. -/
namespace Shading.Glsl

open Scan (kind? isSolid isWord isWordChar isWordStart isDigits separates)

/-! ### Two ways to write the same -/

/-- The tokens that say more than how precise numbers are. -/
def isPlain (t : TokenKind × List Char) : Bool := t.2 != "highp".toList && t.2 != "mediump".toList

/-- Tokens that are written under two sets of options: they differ in precisions only, not at all if
the options do not ask for different ones, and the second ones are among the first ones if they are
to have no precisions. -/
structure Alike (o o' : CompileOptions) (ts us : List (TokenKind × List Char)) : Prop where
  plain : ts.filter isPlain = us.filter isPlain
  same : o.precisionQualifiers = o'.precisionQualifiers → o.forceHighPrecision = o'.forceHighPrecision → ts = us
  fewer : o'.precisionQualifiers = false → us.Sublist ts

section

variable {o o' : CompileOptions} {ts us ts' us' : List (TokenKind × List Char)}

lemma Alike.refl (ts : List (TokenKind × List Char)) : Alike o o' ts ts := ⟨rfl, fun _ _ => rfl, fun _ => .refl ts⟩

lemma Alike.append (h : Alike o o' ts us) (k : Alike o o' ts' us') : Alike o o' (ts ++ ts') (us ++ us') := by
  refine ⟨?_, fun hp hf => ?_, fun hp => (h.fewer hp).append (k.fewer hp)⟩
  · rw [List.filter_append, List.filter_append, h.plain, k.plain]
  · rw [h.same hp hf, k.same hp hf]

/-- Two sets of options that a program is written under, and the places where problems may be
found. -/
structure Manner where
  before : CompileOptions
  after : CompileOptions
  places : Span → Prop

/-- Where the lexemes before are of the first kind, two lists of pieces are spelled in tokens that
are alike and leave lexemes of the second kind behind. They say the same about what cannot be
expressed, at places where it may be said. -/
structure Styled (o : Manner) (A : Option String → Prop) (ps qs : List Piece)
    (Z : Option String → Prop) : Prop where
  reports : ps.filterMap Piece.report? = qs.filterMap Piece.report?
  places : ∀ r ∈ ps.filterMap Piece.report?, o.places r.span
  spells : ∀ a a', A a → A a' → ∃ z z' ts us, Z z ∧ Z z' ∧ Spells a ps ts z ∧ Spells a' qs us z' ∧
    Alike o.before o.after ts us

/-- The same of one list of pieces. -/
abbrev Legible (o : Manner) (A : Option String → Prop) (ps : List Piece) (Z : Option String → Prop) : Prop :=
  Styled o A ps ps Z

namespace Styled

variable {o : Manner} {A B Z : Option String → Prop} {ps qs ps' qs' : List Piece}

lemma nil (h : ∀ a, A a → Z a) : Styled o A [] [] Z :=
  ⟨rfl, List.forall_mem_nil _, fun a a' ha ha' => ⟨a, a', [], [], h a ha, h a' ha', .nil, .nil, .refl []⟩⟩

lemma append (h : Styled o A ps qs B) (k : Styled o B ps' qs' Z) : Styled o A (ps ++ ps') (qs ++ qs') Z := by
  refine ⟨?_, ?_, fun a a' ha ha' => ?_⟩
  · rw [List.filterMap_append, List.filterMap_append, h.reports, k.reports]
  · rw [List.filterMap_append]
    exact List.forall_mem_append.mpr ⟨h.places, k.places⟩
  · obtain ⟨b, b', ts, us, hb, hb', hts, hus, halike⟩ := h.spells a a' ha ha'
    obtain ⟨z, z', ts', us', hz, hz', hts', hus', halike'⟩ := k.spells b b' hb hb'
    exact ⟨z, z', ts ++ ts', us ++ us', hz, hz', hts.append hts', hus.append hus', halike.append halike'⟩

lemma before {A' : Option String → Prop} (hA : ∀ a, A' a → A a) (h : Styled o A ps qs Z) : Styled o A' ps qs Z :=
  ⟨h.reports, h.places, fun a a' ha ha' => h.spells a a' (hA a ha) (hA a' ha')⟩

lemma after {Z' : Option String → Prop} (h : Styled o A ps qs Z) (hZ : ∀ z, Z z → Z' z) : Styled o A ps qs Z' := by
  refine ⟨h.reports, h.places, fun a a' ha ha' => ?_⟩
  obtain ⟨z, z', ts, us, hz, hz', hspells⟩ := h.spells a a' ha ha'
  exact ⟨z, z', ts, us, hZ z hz, hZ z' hz', hspells⟩

lemma cons {p : Piece} (h : Legible o A [p] B) (k : Styled o B ps qs Z) :
    Styled o A (p :: ps) (p :: qs) Z := append h k

lemma room {p : Piece} (hp : p.isRoom = true)
    (hplaces : ∀ r ∈ p.report?, o.places r.span := by rintro _ ⟨⟩) : Legible o A [p] A := by
  refine ⟨rfl, ?_, fun a a' ha ha' => ⟨a, a', [], [], ha, ha', .room hp .nil, .room hp .nil, .refl []⟩⟩
  simpa using hplaces

lemma firm {p : Piece} (hp : p.isFirm = true) (hZ : Z none) : Legible o A [p] Z :=
  ⟨rfl, by cases p <;> first | exact (List.forall_mem_nil _) | exact (nomatch hp),
    fun _ _ _ _ => ⟨none, none, [], [], hZ, hZ, .firm hp .nil, .firm hp .nil, .refl []⟩⟩

lemma empty : Legible o A [.lexeme ""] A :=
  ⟨rfl, List.forall_mem_nil _, fun a a' ha ha' => ⟨a, a', [], [], ha, ha', .empty .nil, .empty .nil, .refl []⟩⟩

lemma lexeme {b : String} {k : TokenKind} (hk : kind? b = some k) (hsolid : isSolid k = true)
    (hA : ∀ a, A a → b.toList.head?.all (meets a) = true) (hZ : Z (some b)) : Legible o A [.lexeme b] Z :=
  ⟨rfl, List.forall_mem_nil _, fun a a' ha ha' =>
    ⟨some b, some b, _, _, hZ, hZ, .lexeme hk hsolid (hA a ha) .nil, .lexeme hk hsolid (hA a' ha') .nil, .refl _⟩⟩

lemma point {ds letters : String} {k : TokenKind} (hds : isDigits ds.toList = true)
    (hA : ∀ a, A a → ds.toList.head?.all (meets a) = true) (hk : kind? letters = some k)
    (hsolid : isSolid k = true)
    (hletter : letters.toList.head?.all (['x', 'y', 'z', 'w'].contains ·) = true) (hZ : Z (some letters)) :
    Legible o A [.lexeme ds, .lexeme ".", .lexeme letters] Z :=
  ⟨rfl, List.forall_mem_nil _, fun a a' ha ha' =>
    ⟨some letters, some letters, _, _, hZ, hZ, .point hds (hA a ha) hk hsolid hletter .nil,
    .point hds (hA a' ha') hk hsolid hletter .nil, .refl _⟩⟩

lemma flatMap {α : Type} {xs : List α} {f g : α → List Piece} (h : ∀ x ∈ xs, Styled o A (f x) (g x) A) :
    Styled o A (xs.flatMap f) (xs.flatMap g) A := by
  induction xs with
  | nil => exact nil fun _ ha => ha
  | cons x xs ih =>
    rw [List.flatMap_cons, List.flatMap_cons]
    exact append (h x List.mem_cons_self) (ih fun y hy => h y (List.mem_cons_of_mem x hy))

end Styled

end

/-! ### What may follow a lexeme -/

/-- The characters that operands start with. -/
def isOperandStart (d : Char) : Bool := isWordChar d || ['(', '+', '-', '!', '~'].contains d

/-- Anything may follow. -/
def Free (a : Option String) : Prop := ∀ d, meets a d = true

/-- An operand may follow. -/
def Opens (a : Option String) : Prop := ∀ d, isOperandStart d = true → meets a d = true

/-- An operator or the end of an expression may follow. -/
def Shuts (a : Option String) : Prop := ∀ d, isWordChar d = false → d ≠ '.' → meets a d = true

/-- The same, and a member too. -/
def Dotted (a : Option String) : Prop := ∀ d, isWordChar d = false → meets a d = true

lemma free_none : Free none := fun _ => rfl

variable {a : Option String}

lemma Free.opens (h : Free a) : Opens a := fun d _ => h d

lemma Free.dotted (h : Free a) : Dotted a := fun d _ => h d

lemma Dotted.shuts (h : Dotted a) : Shuts a := fun d hd _ => h d hd

lemma Free.shuts (h : Free a) : Shuts a := h.dotted.shuts

/-- The text of a mark. -/
def markText (p : Punctuator) : String := String.ofList p.spelling

lemma kind?_markText (p : Punctuator) : kind? (markText p) = some (.mark p) := by
  have hkind : (kind? (markText p)).getD .invalid = .mark p := kind?_spelling p
  cases hmark : kind? (markText p) with
  | none => rw [hmark] at hkind; cases hkind
  | some k => rw [hmark] at hkind; exact congrArg some hkind

lemma meets_mark (p : Punctuator) (d : Char) :
    meets (some (markText p)) d = (p.spelling.getLast?.any (Piece.fuses · d) || !p.isContinued d) := by
  rw [meets, kind?_markText, Option.getD_some, markText, String.toList_ofList]
  rfl

/-- The marks that no character continues. -/
def isFinal (p : Punctuator) : Bool :=
  [.lparen, .rparen, .lbrace, .rbrace, .lbracket, .rbracket, .comma, .semicolon, .colon, .question,
    .plusPlus, .minusMinus].contains p

variable {p : Punctuator} {d : Char}

lemma mem_of_isContinued (h : p.isContinued d = true) :
    (∃ q ∈ Punctuator.all, (p.spelling ++ [d]).isPrefixOf q.spelling = true) ∨ (p = .slash ∧ (d = '/' ∨ d = '*')) ∨
      (p = .dot ∧ d.isDigit = true) := by
  simp only [Punctuator.isContinued, Bool.or_eq_true, Bool.and_eq_true, beq_iff_eq,
    List.any_eq_true, or_assoc] at h
  exact h

lemma free_mark (h : isFinal p = true) : Free (some (markText p)) := by
  have hlonger : ∀ p ∈ Punctuator.all, isFinal p = true → ∀ q ∈ Punctuator.all,
      (p.spelling.isPrefixOf q.spelling && decide (p.spelling.length < q.spelling.length)) = false := by decide
  intro d
  rw [meets_mark, Bool.or_eq_true, Bool.not_eq_true']
  refine .inr (Bool.eq_false_iff.mpr fun hcontinued => ?_)
  obtain ⟨q, hq, hprefix⟩ | ⟨rfl, -⟩ | ⟨rfl, -⟩ := mem_of_isContinued hcontinued
  · have hnot := hlonger p (Punctuator.mem_all p) h q hq
    have hprefix := List.isPrefixOf_iff_prefix.mp hprefix
    have hlength := hprefix.length_le
    rw [List.length_append, List.length_singleton] at hlength
    rw [List.isPrefixOf_iff_prefix.mpr ((List.prefix_append _ _).trans hprefix), decide_eq_true (by omega)] at hnot
    cases hnot
  · cases h
  · cases h

lemma isWordChar_of_isPrefixOf {q : Punctuator}
    (h : (p.spelling ++ [d]).isPrefixOf q.spelling = true) : isWordChar d = false := by
  have hplain : ∀ q ∈ Punctuator.all, q.spelling.all (fun c => !isWordChar c) = true := by decide
  have hmem : d ∈ q.spelling := (List.isPrefixOf_iff_prefix.mp h).subset (by simp)
  simpa using List.all_eq_true.mp (hplain q (Punctuator.mem_all q)) d hmem

lemma opens_mark (h : p ≠ .dot) : Opens (some (markText p)) := by
  have hsigns : ∀ p ∈ Punctuator.all, p = .dot ∨ (['(', '+', '-', '!', '~'].all fun d =>
      p.spelling.getLast?.any (Piece.fuses · d) || !p.isContinued d) = true := by decide
  intro d hd
  rw [meets_mark]
  obtain hd | hd := Bool.or_eq_true_iff.mp hd
  · rw [Bool.or_eq_true, Bool.not_eq_true']
    refine .inr (Bool.eq_false_iff.mpr fun hcontinued => ?_)
    obtain ⟨q, -, hprefix⟩ | ⟨-, rfl | rfl⟩ | ⟨rfl, -⟩ := mem_of_isContinued hcontinued
    · rw [isWordChar_of_isPrefixOf hprefix] at hd
      cases hd
    · cases hd
    · cases hd
    · exact h rfl
  · exact List.all_eq_true.mp ((hsigns p (Punctuator.mem_all p)).resolve_left h) d (by simpa using hd)

lemma meets_dot (h : isWordStart d = true) : meets (some ".") d = true := by
  have hmark := meets_mark .dot d
  rw [show meets (some ".") d = _ from hmark, Bool.or_eq_true, Bool.not_eq_true']
  refine .inr (Bool.eq_false_iff.mpr fun hcontinued => ?_)
  obtain ⟨q, -, hprefix⟩ | ⟨hslash, -⟩ | ⟨-, hdigit⟩ := mem_of_isContinued hcontinued
  · have hword := isWordChar_of_isPrefixOf hprefix
    rw [Scan.isWordChar_of_isWordStart h] at hword
    cases hword
  · cases hslash
  · rw [Scan.not_isWordStart_of_isDigit hdigit] at h
    cases h

/-! ### Words, numbers and marks -/

section

variable {o : Manner} {A : Option String → Prop} {a : Option String} {text : String} {k : TokenKind}

lemma meets_of_separates (hk : kind? text = some k) (h : separates k text.toList d = true) :
    meets (some text) d = true := by
  rw [meets, hk, Option.getD_some, h, Bool.or_true]

lemma isSolid_wordKind (word : List Char) : isSolid (Scan.wordKind word) = true := by
  unfold Scan.wordKind
  dsimp only
  repeat' split
  all_goals rfl

lemma dotted_word (h : isWord text.toList = true) : Dotted (some text) := by
  intro d hd
  refine meets_of_separates (Scan.kind?_of_isWord h) ?_
  rw [Scan.separates_wordKind, hd]
  rfl

lemma dotted_of_float (hk : kind? text = some .float) : Dotted (some text) := by
  intro d hd
  refine meets_of_separates hk ?_
  rw [separates, hd]
  rfl

lemma shuts_of_integer (hk : kind? text = some .integer) : Shuts (some text) := by
  intro d hd hdot
  refine meets_of_separates hk ?_
  simp [separates, hd, hdot]

lemma dotted_of_integer (hk : kind? text = some .integer) (hdigits : isDigits text.toList = false) :
    Dotted (some text) := by
  intro d hd
  refine meets_of_separates hk ?_
  simp [separates, hd, hdigits]

lemma isWordChar_of_isDigit {c : Char} (h : c.isDigit = true) : isWordChar c = true := by
  simp [isWordChar, Char.isAlphanum, h]

lemma Free.head {cs : List Char} (h : Free a) : cs.head?.all (meets a) = true := by
  cases cs with
  | nil => rfl
  | cons c cs => exact h c

lemma Opens.head {cs : List Char} (h : Opens a) (hcs : cs.head?.all isOperandStart = true) :
    cs.head?.all (meets a) = true := by
  cases cs with
  | nil => rfl
  | cons c cs => exact h c hcs

lemma isOperandStart_of_isWordChar {c : Char} (h : isWordChar c = true) :
    isOperandStart c = true := by rw [isOperandStart, h, Bool.true_or]

lemma Opens.head_word (h : Opens a) (hword : isWord text.toList = true) :
    text.toList.head?.all (meets a) = true := by
  refine h.head ?_
  cases htext : text.toList with
  | nil => rfl
  | cons c cs =>
    rw [htext] at hword
    exact isOperandStart_of_isWordChar (Scan.isWordChar_of_isWordStart (Bool.and_eq_true_iff.mp hword).1)

lemma Opens.head_digits {ds rest : List Char} (h : Opens a) (htext : text.toList = ds ++ rest)
    (hds : isDigits ds = true) :
    text.toList.head?.all (meets a) = true := by
  obtain ⟨c, cs, rfl⟩ := Scan.exists_cons_of_isDigits hds
  refine h.head ?_
  rw [htext]
  exact isOperandStart_of_isWordChar (isWordChar_of_isDigit (Bool.and_eq_true_iff.mp (Scan.all_of_isDigits hds)).1)

lemma Shuts.head_mark (h : Shuts a) (hp : p ≠ .dot) : (markText p).toList.head?.all (meets a) = true := by
  have hheads : ∀ p ∈ Punctuator.all, p = .dot ∨
    (p.spelling.head?.all fun c => !isWordChar c && c != '.') = true := by decide
  have hhead := (hheads p (Punctuator.mem_all p)).resolve_left hp
  rw [markText, String.toList_ofList]
  cases hspelling : p.spelling with
  | nil => rfl
  | cons c cs =>
    rw [hspelling] at hhead
    simp only [List.head?_cons, Option.all_some, Bool.and_eq_true, Bool.not_eq_true', bne_iff_ne] at hhead
    exact h c hhead.1 hhead.2

namespace Styled

lemma word (h : isWord text.toList = true) (hA : ∀ a, A a → Opens a) : Legible o A [.lexeme text] Dotted :=
  lexeme (Scan.kind?_of_isWord h) (isSolid_wordKind _) (fun a ha => (hA a ha).head_word h) (dotted_word h)

lemma name (h : IsName text) (hA : ∀ a, A a → Opens a) : Legible o A [.lexeme text] Dotted :=
    word (Scan.isWord_of_isName h) hA

lemma number (n : Nat) (hA : ∀ a, A a → Opens a) : Legible o A [.lexeme (toString n)] Shuts :=
  lexeme (Scan.kind?_of_isDigits (Number.isDigits_toString n)) rfl
    (fun a ha => (hA a ha).head_digits (List.append_nil _).symm (Number.isDigits_toString n))
    (shuts_of_integer (Scan.kind?_of_isDigits (Number.isDigits_toString n)))

lemma mark (p : Punctuator) (hp : p ≠ .dot) (hA : ∀ a, A a → Shuts a) : Legible o A [.lexeme (markText p)] Opens :=
  lexeme (kind?_markText p) rfl (fun a ha => (hA a ha).head_mark hp) (opens_mark hp)

lemma final (p : Punctuator) (hp : isFinal p = true) (hA : ∀ a, A a → Shuts a) :
    Legible o A [.lexeme (markText p)] Free := by
  refine lexeme (kind?_markText p) rfl (fun a ha => (hA a ha).head_mark ?_) (free_mark hp)
  rintro rfl
  cases hp

lemma opening : Legible o Opens [.lexeme "("] Free :=
  lexeme (kind?_markText .lparen) rfl (fun _ ha => ha '(' rfl) (@free_mark .lparen rfl)

lemma member (h : IsName text) : Legible o Dotted [.lexeme ".", .lexeme text] Dotted := by
  have hword := Scan.isWord_of_isName h
  have hdot : Legible o Dotted [.lexeme "."] (· = some ".") :=
    lexeme (kind?_markText .dot) rfl (fun _ ha => ha '.' rfl) rfl
  refine cons hdot (lexeme h rfl ?_ (dotted_word hword))
  rintro _ rfl
  cases htext : text.toList with
  | nil => rfl
  | cons c cs =>
    rw [htext] at hword
    exact meets_dot (Bool.and_eq_true_iff.mp hword).1

lemma blank : Legible o A [.blank] Free := firm rfl free_none

lemma gap : Legible o A [.gap] A := room rfl

end Styled

end

/-! ### Lists and dimensions -/

section

variable {o : Manner} {A : Option String → Prop} {ps qs : List Piece}

lemma separated_cons_cons {x y : List Piece} {xs : List (List Piece)} :
    separated (x :: y :: xs) = x ++ ([.lexeme ",", .gap] ++ separated (y :: xs)) := by simp [separated]

lemma Styled.separated {xs ys : List (List Piece)} (h : List.Forall₂ (fun x y => Styled o Free x y Shuts) xs ys) :
    Styled o Free (separated xs) (separated ys) Shuts := by
  induction h with
  | nil => exact nil fun _ => Free.shuts
  | @cons x y xs ys hxy hrest ih =>
    cases hrest with
    | nil => simpa [Glsl.separated] using hxy
    | cons =>
      rw [separated_cons_cons, separated_cons_cons]
      have hcomma : Legible o Shuts [.lexeme ",", .gap] Free := cons (final .comma rfl fun _ => id) gap
      exact append hxy (append hcomma ih)

lemma Styled.parenthesized (hopen : Legible o A [.lexeme "("] Free) (h : Styled o Free ps qs Shuts) :
    Styled o A (parenthesized ps) (parenthesized qs) Free :=
  append (cons hopen h) (final .rparen rfl fun _ => id)

lemma Styled.applied (h : Styled o Free ps qs Shuts) :
    Styled o Dotted (Glsl.parenthesized ps) (Glsl.parenthesized qs) Free :=
  parenthesized (final .lparen rfl fun _ => Dotted.shuts) h

lemma legible_dimensions (ty : Ty) : Legible o Dotted (dimensions ty) Dotted := by
  have hopen : Legible o Dotted [.lexeme "["] Free := .final .lbracket rfl fun _ => Dotted.shuts
  fun_induction dimensions ty with
  | case1 e n ih =>
    have hsize := Styled.cons hopen (.cons (.number n fun _ => Free.opens) (.final .rbracket rfl fun _ => id))
    exact .append hsize (ih.before fun _ => Free.dotted)
  | case2 e ih =>
    have hopening := Styled.cons hopen (.final .rbracket rfl fun _ => Free.shuts)
    exact .append hopening (ih.before fun _ => Free.dotted)
  | case3 => exact .nil fun _ => id

end

/-! ### Expressions -/

/-- What is written for an expression can be read. So can a member after it if it may stand before
one, or else it is a plain number. -/
structure Shown (o : Manner) (t : Target) (e : Expr) : Prop where
  whole : ∀ allowed, Legible o Opens (expression t allowed e) Shuts
  base : ∀ allowed ≤ Precedence.trailing, Legible o Opens (expression t allowed e) Dotted ∨
    e.ty.fields? = none ∧ ∃ ds, isDigits ds.toList = true ∧ expression t allowed e = [.lexeme ds]

namespace Shown

variable {o : Manner} {t : Target} {e a b c : Expr} {inside : List Piece} {op : Operator} {ty : Ty} {span : Span}

lemma of_guarded (heq : ∀ allowed, expression t allowed e = guarded e allowed inside)
    (h : Legible o Opens inside Shuts)
    (hbase : precedence e ≤ Precedence.trailing → Legible o Opens inside Dotted ∨
      e.ty.fields? = none ∧ ∃ ds, isDigits ds.toList = true ∧ inside = [.lexeme ds]) : Shown o t e := by
  have hparenthesized : Legible o Opens (parenthesized inside) Free :=
    .parenthesized .opening (h.before fun _ => Free.opens)
  refine ⟨fun allowed => ?_, fun allowed hallowed => ?_⟩
  all_goals
    rw [heq, guarded]
    split
  · exact hparenthesized.after fun _ => Free.shuts
  · exact h
  · exact .inl (hparenthesized.after fun _ => Free.dotted)
  · exact hbase (Nat.le_trans (Nat.le_of_not_lt ‹_›) hallowed)

lemma of_dotted (heq : ∀ allowed, expression t allowed e = guarded e allowed inside)
    (h : Legible o Opens inside Dotted) : Shown o t e :=
  of_guarded heq (h.after fun _ => Dotted.shuts) fun _ => .inl h

lemma of_plain (heq : ∀ allowed, expression t allowed e = inside)
    (h : Legible o Opens inside Dotted) : Shown o t e := by
  refine ⟨fun allowed => ?_, fun allowed _ => .inl ?_⟩
  · rw [heq]
    exact h.after fun _ => Dotted.shuts
  · rw [heq]
    exact h

lemma literal {v : Literal} {s : Scalar} (h : v.Fits s) : Shown o t (.literal v (.scalar s) span) := by
  have hmagnitude : Legible o Opens [.lexeme (magnitude v (.scalar s))] Dotted ∨
    isDigits (magnitude v (.scalar s)).toList = true ∧
      Legible o Opens [.lexeme (magnitude v (.scalar s))] Shuts := by
    obtain ⟨b, -, hword⟩ | ⟨whole, rest, htext, hwhole, hkind | hkind⟩ := kind?_magnitude h
    · exact .inl (.word hword fun _ => id)
    · cases hdigits : isDigits (magnitude v (.scalar s)).toList with
      | true =>
        exact .inr ⟨rfl, .lexeme hkind rfl (fun _ ha => ha.head_digits htext hwhole) (shuts_of_integer hkind)⟩
      | false =>
        exact .inl (.lexeme hkind rfl (fun _ ha => ha.head_digits htext hwhole) (dotted_of_integer hkind hdigits))
    · exact .inl (.lexeme hkind rfl (fun _ ha => ha.head_digits htext hwhole) (dotted_of_float hkind))
  have hwhole : Legible o Opens [.lexeme (magnitude v (.scalar s))] Shuts :=
    hmagnitude.elim (fun hdotted => hdotted.after fun _ => Dotted.shuts) fun hdigits => hdigits.2
  refine of_guarded (fun _ => by rw [expression, literal_eq h]) ?_ fun hle => ?_
  all_goals cases hsign : isNegative v
  · exact hwhole
  · have hminus : Legible o Opens [.lexeme "-"] Opens :=
      .lexeme (kind?_markText .minus) rfl (fun _ ha => ha '-' rfl) (@opens_mark .minus (by decide))
    exact .cons hminus hwhole
  · exact hmagnitude.imp id fun hdigits => ⟨rfl, _, hdigits.1, rfl⟩
  · rw [precedence_literal, hsign] at hle
    exact absurd hle (by decide)

lemma trailing_lt_precedence {l r : Ty} {types : Operands} (h : op.operands? l r = some types) :
    Precedence.trailing < op.precedence := by
  cases op with
  | increment | decrement => cases h
  | _ => decide

section Operands

variable (ha : Shown o t a) (hb : Shown o t b) (hc : Shown o t c)

include ha

lemma unary (hop : Check.takesUnary op a.ty = true) : Shown o t (.unary op a ty span) := by
  have hsign : Legible o Opens [.lexeme op.symbol] Opens := by
    have hhead : op.symbol.toList.head?.all isOperandStart = true ∧ punctuator op ≠ .dot := by
      cases op <;> first | cases hop | decide
    rw [symbol_eq] at hhead ⊢
    exact .lexeme (kind?_markText _) rfl (fun _ hx => hx.head hhead.1) (opens_mark hhead.2)
  refine of_guarded (fun _ => by rw [expression]) (.cons hsign (ha.whole _)) fun hle => ?_
  change Precedence.leading ≤ Precedence.trailing at hle
  exact absurd hle (by decide)

lemma step (hop : op.isStep = true) : Shown o t (.step op a ty span) := by
  have hsymbol : Legible o Shuts [.lexeme op.symbol] Free := by
    rw [symbol_eq]
    exact .final (punctuator op) (by cases op <;> first | rfl | cases hop) fun _ => id
  have hinside := Styled.append (ha.whole Precedence.trailing) hsymbol
  exact of_dotted (fun _ => by rw [expression]) (hinside.after fun _ => Free.dotted)

lemma swizzle {cs : List (Fin 4)} (hcs : cs ≠ []) : Shown o t (.swizzle a cs ty span) := by
  have hname := isName_letters hcs
  have hinside : Legible o Opens (expression t Precedence.trailing a ++
    [.lexeme ".", .lexeme (String.ofList (cs.map componentLetter))])
      Dotted := by
    obtain hdotted | ⟨-, ds, hds, hdigits⟩ := ha.base _ (Nat.le_refl _)
    · exact .append hdotted (.member hname)
    · have hletter : (String.ofList (cs.map componentLetter)).toList.head?.all
        (['x', 'y', 'z', 'w'].contains ·) = true := by
        have hletters : ∀ i, ['x', 'y', 'z', 'w'].contains (componentLetter i) = true := by decide
        rw [String.toList_ofList]
        cases cs with
        | nil => rfl
        | cons i cs => exact hletters i
      rw [hdigits]
      exact .point hds (fun _ hx => hx.head_digits (List.append_nil _).symm hds) hname rfl hletter
        (dotted_word (Scan.isWord_of_isName hname))
  exact of_dotted (fun _ => by rw [expression]) hinside

include hb

lemma index : Shown o t (.index a b ty span) := by
  have hopening := Styled.append (ha.whole Precedence.trailing) (.final .lbracket rfl fun _ => id)
  have hinside := Styled.append (.append hopening ((hb.whole Precedence.expression).before fun _ =>
    Free.opens)) (.final .rbracket rfl fun _ => id)
  exact of_dotted (fun _ => by rw [expression]; rfl) (hinside.after fun _ => Free.dotted)

lemma binary {types : Operands} (hop : op.operands? a.ty b.ty = some types) :
    Shown o t (.binary op a b ty span) := by
  have hbetween : Legible o Shuts (between op) Opens := by
    unfold between
    split
    · exact .cons (.mark .comma (by decide) fun _ => id) .gap
    · rw [symbol_eq]
      refine .cons .gap (.cons (.mark (punctuator op) ?_ fun _ => id) .gap)
      cases op <;> decide
  have hinside := Styled.append (.append (ha.whole (operandLevels op).1) hbetween) (hb.whole (operandLevels op).2)
  refine of_guarded (fun _ => by rw [expression]) hinside fun hle => ?_
  exact absurd (trailing_lt_precedence hop) (Nat.not_lt_of_le hle)

include hc in
lemma conditional : Shown o t (.conditional a b c ty span) := by
  have hroom (p : Punctuator) (hp : p ≠ .dot) : Legible o Shuts [.gap, .lexeme (markText p), .gap] Opens :=
    .cons .gap (.cons (.mark p hp fun _ => id) .gap)
  have hfirst := Styled.append (.append (ha.whole Precedence.logicalOr)
    (hroom .question (by decide))) (hb.whole Precedence.sequence)
  have hinside := Styled.append (.append hfirst (hroom .colon (by decide))) (hc.whole Precedence.assignment)
  refine of_guarded (fun _ => by rw [expression]; rfl) hinside fun hle => ?_
  change Precedence.conditional ≤ Precedence.trailing at hle
  exact absurd hle (by decide)

end Operands

lemma name {text : String} (h : IsName text) (heq : ∀ allowed,
    expression t allowed e = [.lexeme text]) : Shown o t e :=
  of_plain heq (.name h fun _ => id)

lemma pipelineName {number : Nat} {otherwise : String} (h : IsName otherwise) (hspan : o.places span) :
    Legible o Opens (Target.pipelineName number otherwise span) Dotted := by
  unfold Target.pipelineName
  split
  · exact .name (isName_pipeline ‹_›) fun _ => id
  · refine .cons (.room rfl ?_) (.name h fun _ => id)
    rintro _ ⟨⟩
    exact hspan

lemma variable_ {n : Nat} (h : IsName (t.program.variableAt n).name) (hspan : o.places span) :
    Shown o t (.variable_ n ty span) := by
  cases hbuiltin : (t.program.variableAt n).modifiers.layout.builtin with
  | none => exact name h fun _ => by simp only [expression, hbuiltin]
  | some number =>
    have hinside : Legible o Opens (Target.pipelineName number (t.program.variableAt n).name span)
      Dotted := pipelineName h hspan
    exact of_plain (fun _ => by simp only [expression, hbuiltin]) hinside

lemma field {i : Nat} {anonymous : Bool} {fields : List (Field Ty)} {f : Field Ty}
    (hfields : a.ty.fields? = some fields)
    (hf : fieldOf? a.ty i = some f) (hname : IsName f.name) (hspan : o.places span)
    (ha : anonymous = false → Shown o t a) :
    Shown o t (.field a i anonymous ty span) := by
  cases hbuiltin : f.modifiers.layout.builtin with
  | some number =>
    have hinside : Legible o Opens (Target.pipelineName number f.name span) Dotted := pipelineName hname hspan
    exact of_dotted (fun _ => by simp only [expression, hf, hbuiltin]) hinside
  | none =>
    cases anonymous with
    | true =>
      exact of_dotted (fun _ => by simp only [expression, hf, hbuiltin, if_true, List.nil_append])
        (.name hname fun _ => id)
    | false =>
      obtain hdotted | ⟨hnone, -⟩ := (ha rfl).base _ (Nat.le_refl _)
      · refine of_dotted (fun _ => ?_) (.append hdotted (.member hname))
        simp [expression, hf, hbuiltin]
      · rw [hfields] at hnone
        cases hnone

variable {as : List Expr}

lemma separated (h : ∀ x ∈ as, Shown o t x) :
    Legible o Free (separated (expressions t Precedence.assignment as)) Shuts := by
  rw [expressions_eq]
  refine .separated (List.forall₂_same.mpr (List.forall_mem_map.mpr fun x hx => ?_))
  exact ((h x hx).whole _).before fun _ => Free.opens

lemma applied {text : String} {ps : List Piece} (ty : Ty) (htext : IsName text) (hps : Legible o Free ps Shuts)
    (heq : ∀ allowed, expression t allowed e = .lexeme text :: dimensions ty ++ parenthesized ps) :
    Shown o t e := by
  have hhead : Legible o Opens (.lexeme text :: dimensions ty) Dotted :=
    .cons (.name htext fun _ => id) (legible_dimensions ty)
  exact of_plain heq ((Styled.append hhead (.applied hps)).after fun _ => Free.dotted)

lemma fields?_of_isNeedless {kind : ConstructorKind} {types : List Ty} (h : isNeedless kind as ty = true)
    (htakes : kind.Takes types ty) : ty.fields? = none := by
  cases kind with
  | scalarCast => cases ty <;> first | rfl | cases htakes.1
  | compoundCast => obtain ⟨hty | hty, -⟩ := htakes <;> cases ty <;> first | rfl | cases hty
  | _ => cases h

lemma construct {kind : ConstructorKind} {types : List Ty} (has : ∀ x ∈ as, Shown o t x)
    (hname : IsName ty.leaf.glslName) (htakes : kind.Takes types ty) : Shown o t (.construct kind as ty span) := by
  cases hneedless : isNeedless kind as ty with
  | true =>
    have hnone := fields?_of_isNeedless hneedless htakes
    obtain ⟨x, rfl⟩ := exists_of_isNeedless hneedless
    have hx := has x List.mem_cons_self
    refine ⟨fun allowed => ?_, fun allowed hallowed => ?_⟩ <;> rw [expression_needless hneedless]
    · exact hx.whole allowed
    · exact (hx.base allowed hallowed).imp id fun hdigits => ⟨hnone, hdigits.2⟩
  | false =>
    refine applied ty hname (separated has) fun _ => ?_
    rw [expression, hneedless]
    rfl

lemma saturated (ha : Shown o t a) (heq : ∀ allowed,
    expression t allowed e = saturated (expression t Precedence.assignment a)) :
    Shown o t e := by
  have hfraction {text : String} (hkind : kind? text = some .float)
    (hhead : text.toList.head?.all isOperandStart = true) :
      Legible o Free [.lexeme text] Shuts :=
    .lexeme hkind rfl (fun _ hx => hx.opens.head hhead) (dotted_of_float hkind).shuts
  refine applied .void (isName_intrinsic .clamp) (.separated ?_) heq
  exact .cons ((ha.whole _).before fun _ => Free.opens)
    (.cons (hfraction kind?_bounds.1 rfl) (.cons (hfraction kind?_bounds.2 rfl) .nil))

lemma expandedFma (ha : Shown o t a) (hb : Shown o t b) (hc : Shown o t c)
    (heq : ∀ allowed, expression t allowed e =
    expandedFma (expression t Precedence.expression a) (expression t Precedence.expression b)
    (expression t Precedence.expression c)) :
    Shown o t e := by
  have hoperand {x : Expr} (hx : Shown o t x) :
    Legible o Opens (parenthesized (expression t Precedence.expression x)) Free :=
    .parenthesized .opening ((hx.whole _).before fun _ => Free.opens)
  have hroom (p : Punctuator) (hp : p ≠ .dot) : Legible o Free [.gap, .lexeme (markText p), .gap] Opens :=
    .cons .gap (.cons (.mark p hp fun _ => Free.shuts) .gap)
  have hproduct := Styled.append (.append (hoperand ha) (hroom .star (by decide))) (hoperand hb)
  have hsum := Styled.append (.append hproduct (hroom .plus (by decide))) (hoperand hc)
  have hinside := Styled.parenthesized .opening ((hsum.before fun _ => Free.opens).after fun _ => Free.shuts)
  exact of_plain heq (hinside.after fun _ => Free.dotted)

lemma call {f : Nat} (has : ∀ x ∈ as, Shown o t x) (hname : IsName (t.functionName f)) :
    Shown o t (.call f as ty span) := by
  cases hexpansion : expansion? t f as.length with
  | none =>
    refine applied .void hname (separated has) fun _ => ?_
    simp only [expression, hexpansion]
    rfl
  | some expansion =>
    obtain ⟨rfl, x, rfl⟩ | ⟨rfl, x, y, z, rfl⟩ := expansion?_cases hexpansion
    · refine saturated (has x List.mem_cons_self) fun _ => ?_
      simp only [expression, hexpansion, expressions, List.flatten_singleton]
    · simp only [List.forall_mem_cons] at has
      refine expandedFma has.1 has.2.1 has.2.2.1 fun _ => ?_
      simp only [expression, hexpansion, expressions]

end Shown

lemma shown {o : Manner} {t : Target} {c : Context} {e : Expr} (hp : t.program.Regular c) (hs : t.program.Sound)
    (hw : e.WellTyped t.program.declared) (hr : e.Regular c) (hn : ∀ x ∈ e.nodes, o.places x.span) :
    Shown o t e := by
  induction e using Expr.of_parts with
  | _ e ih =>
  obtain ⟨-, hrule, hparts⟩ := Expr.wellTyped_iff.mp hw
  replace ih (x : Expr) (hx : x ∈ e.parts) (hr : x.Regular c) : Shown o t x :=
    ih x hx (hparts x hx) hr fun y hy => hn y (Expr.mem_nodes.mpr (.inr ⟨x, hx, hy⟩))
  have hspan : o.places e.span := hn e (Expr.mem_nodes.mpr (.inl rfl))
  cases e with
  | poison => cases hrule
  | literal v ty span =>
    obtain ⟨s, rfl, hfits⟩ := hr
    exact .literal hfits
  | variable_ n ty span =>
    obtain ⟨v, hv, -⟩ := hrule
    change t.program.variables[n]? = some v at hv
    have hat : t.program.variableAt n = v := by
      rw [Program.variableAt, Array.getD_eq_getD_getElem?, hv, Option.getD_some]
    rw [hp.variables] at hv
    exact .variable_ (hat ▸ hr v hv hp.clean) hspan
  | unary op a ty span => exact .unary (ih a List.mem_cons_self hr) hrule.2
  | step op a ty span => exact .step (ih a List.mem_cons_self hr) hrule.1
  | binary op a b ty span =>
    exact .binary (ih a List.mem_cons_self hr.1) (ih b (List.mem_cons_of_mem _ List.mem_cons_self) hr.2) hrule.1
  | conditional a b c ty span =>
    exact .conditional (ih a List.mem_cons_self hr.1) (ih b (List.mem_cons_of_mem _ List.mem_cons_self) hr.2.1)
      (ih c (List.mem_cons_of_mem _ (List.mem_cons_of_mem _ List.mem_cons_self)) hr.2.2)
  | index a b ty span =>
    exact .index (ih a List.mem_cons_self hr.1) (ih b (List.mem_cons_of_mem _ List.mem_cons_self) hr.2)
  | swizzle a cs ty span => exact .swizzle (ih a List.mem_cons_self hr) (List.length_pos_iff.mp hrule.2.1)
  | field a i anonymous ty span =>
    obtain ⟨fields, f, hfields, hf, -⟩ := hrule
    have hknown := hp.known_ty hs (hparts a List.mem_cons_self) (hr.part List.mem_cons_self)
    refine .field hfields (fieldOf?_of_fields? hfields hf) ((hknown.field hfields hf).1 hp.clean)
      hspan fun hnamed => ?_
    obtain ⟨hanonymous, -⟩ | hr := hr
    · rw [hnamed] at hanonymous
      cases hanonymous
    · exact ih a List.mem_cons_self hr
  | construct kind as ty span =>
    have hknown := hp.known_ty hs hw (.inl hr)
    exact .construct (fun a ha => ih a ha (Expr.areRegular_iff.mp hr.2 a ha)) (isName_leaf hp.clean hknown) hrule.2
  | call f as ty span =>
    obtain ⟨-, g, hg, -⟩ := hrule
    exact .call (fun a ha => ih a ha (Expr.areRegular_iff.mp hr a ha)) (isName_functionName hp hs rfl hg)

end Shading.Glsl
