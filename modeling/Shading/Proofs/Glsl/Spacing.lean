import Shading.Glsl.Piece
import Shading.Proofs.Token.Lossless

/-! The tokens of pieces that are laid out. Pieces are laid out for readers or with as little
whitespace as possible; either way the text has one token for each lexeme, as long as no lexeme is
continued by what may come to stand right after it. -/
namespace Shading

namespace Scan

variable {c d : Char} {cs rest next : List Char} {kind : TokenKind} {text : String}

/-- Words, numbers and marks. A blank ends them all. -/
def isSolid : TokenKind → Bool
  | .integer | .float | .truth _ | .identifier | .reserved | .keyword _ | .mark _ => true
  | .endOfFile | .invalid | .whitespace | .lineComment | .blockComment => false

/-- The tokens of a text without its whitespace. -/
def significant (cs : List Char) : List (TokenKind × List Char) := (tokens cs).filter (·.1 != .whitespace)

lemma significant_nil : significant [] = [] := by rw [significant, tokens_nil]; rfl

lemma significant_dropWhile : significant (cs.dropWhile isBlank) = significant cs := by
  cases cs with
  | nil => rfl
  | cons c rest =>
    cases hc : isBlank c with
    | false => rw [List.dropWhile_cons, hc]; rfl
    | true =>
      have htokens : tokens (c :: rest) = (.whitespace, (run isBlank (c :: rest)).1) ::
        tokens ((c :: rest).dropWhile isBlank) := by
        rw [tokens_cons, munch_blank hc]
        rfl
      rw [significant, significant, htokens]
      rfl

lemma significant_blank (hc : isBlank c = true) : significant (c :: rest) = significant rest := by
  rw [← significant_dropWhile, List.dropWhile_cons, hc, if_pos rfl, significant_dropWhile]

lemma significant_blanks (h : cs.all isBlank = true) : significant (cs ++ rest) = significant rest := by
  induction cs with
  | nil => rfl
  | cons c cs ih =>
    obtain ⟨hc, hcs⟩ := Bool.and_eq_true_iff.mp h
    rw [List.cons_append, significant_blank hc, ih hcs]

lemma munch_of_kind? (h : kind? text = some kind) : ∃ c cs, text.toList = c :: cs ∧
    munch c cs = (kind, c :: cs, []) := by
  unfold kind? at h
  split at h
  · cases h
  rename_i c cs htext
  split at h
  · rename_i hempty
    have happend := munch_append c cs
    rw [List.isEmpty_iff.mp hempty, List.append_nil] at happend
    exact ⟨c, cs, htext, Prod.ext (Option.some.inj h) (Prod.ext happend (List.isEmpty_iff.mp hempty))⟩
  · cases h

lemma ne_nil_of_kind? (h : kind? text = some kind) : text.toList ≠ [] := by
  obtain ⟨c, cs, htext, -⟩ := munch_of_kind? h
  rw [htext]
  exact List.cons_ne_nil c cs

lemma significant_token (h : kind? text = some kind) (hsolid : isSolid kind = true)
    (hends : ends kind text.toList next = true) :
    significant (text.toList ++ next) = (kind, text.toList) :: significant next := by
  obtain ⟨c, cs, htext, hmunch⟩ := munch_of_kind? h
  rw [htext] at hends ⊢
  have hkind : (kind != .whitespace) = true := by cases kind <;> first | rfl | cases hsolid
  rw [List.cons_append, significant, tokens_cons, munch_replace hmunch hends, List.filter_cons, if_pos hkind]
  rfl

lemma isWordChar_of_isBlank (h : isBlank d = true) : isWordChar d = false := by
  simp only [isBlank, Bool.or_eq_true, beq_iff_eq] at h
  obtain ((((rfl | rfl) | rfl) | rfl) | rfl) | rfl := h <;> decide

lemma isContinued_of_isBlank (p : Punctuator) (h : isBlank d = true) : p.isContinued d = false := by
  simp only [isBlank, Bool.or_eq_true, beq_iff_eq] at h
  obtain ((((rfl | rfl) | rfl) | rfl) | rfl) | rfl := h <;> cases p <;> rfl

lemma separates_of_isBlank {lexeme : List Char} (hsolid : isSolid kind = true)
    (hd : isBlank d = true) : separates kind lexeme d = true := by
  have hword := isWordChar_of_isBlank hd
  obtain ⟨-, hdot, -⟩ := isDigit_of_isBlank hd
  cases kind with
  | mark p => simp [separates, isContinued_of_isBlank p hd]
  | integer => simp [separates, hword, hdot]
  | float | truth | identifier | reserved | keyword => simp [separates, hword]
  | _ => cases hsolid

/-- Digits before a point are one number with it, whatever letter follows that has no meaning in
numbers. -/
lemma significant_point (h : isDigits cs = true) (hd : d.isDigit = false) (hmark : d ∉ ['e', 'E', 'f', 'F']) :
    significant (cs ++ '.' :: d :: next) = (.float, cs ++ ['.']) :: significant (d :: next) := by
  simp only [List.mem_cons, List.not_mem_nil, or_false, not_or] at hmark
  obtain ⟨he, hE, hf, hF⟩ := hmark
  have hrun : run Char.isDigit (cs ++ '.' :: d :: next) = (cs, '.' :: d :: next) :=
    run_append_of_all (all_of_isDigits h) rfl
  have hdecimal : decimal (cs ++ '.' :: d :: next) = (.float, cs ++ ['.'], d :: next) := by
    have hfraction : fraction ('.' :: d :: next) = (['.'], d :: next) := by simp [fraction, run, hd]
    have hexponent : exponent (d :: next) = ([], d :: next) := by simp [exponent, he, hE]
    have hsuffix : suffix 'f' 'F' (d :: next) = ([], d :: next) := by simp [suffix, hf, hF]
    simp [decimal, hrun, hfraction, hexponent, hsuffix]
  have hx (x : Char) (hx : x.isDigit = false) (hpoint : x ≠ '.') (rest : List Char) :
    cs ++ '.' :: d :: next ≠ '0' :: x :: rest := by
    intro heq
    have hall := List.all_eq_true.mp (all_of_isDigits h)
    cases cs with
    | nil => cases heq
    | cons c cs =>
      obtain ⟨-, htail⟩ := List.cons.inj heq
      cases cs with
      | nil => exact hpoint (List.cons.inj htail).1.symm
      | cons y cs =>
        obtain ⟨rfl, -⟩ := List.cons.inj htail
        simp [hx] at hall
  have hnumber : number (cs ++ '.' :: d :: next) = (.float, cs ++ ['.'], d :: next) := by
    unfold number
    split
    · exact absurd ‹_› (hx 'x' rfl (by decide) _)
    · exact absurd ‹_› (hx 'X' rfl (by decide) _)
    · exact hdecimal
  obtain ⟨c, cs, rfl⟩ := exists_cons_of_isDigits h
  have hc : c.isDigit = true := (Bool.and_eq_true_iff.mp (all_of_isDigits h)).1
  have hmunch : munch c (cs ++ '.' :: d :: next) = (.float, c :: cs ++ ['.'], d :: next) := by
    unfold munch
    rw [not_isWordStart_of_isDigit hc, hc]
    exact hnumber
  rw [List.cons_append, significant, tokens_cons, hmunch]
  rfl

end Scan

namespace Glsl

open Scan (kind? isSolid isBlank separates ends significant)

variable {m : Bool} {before : Option Char} {done : List Char} {ps qs : List Piece}

/-! ### Layout from the left -/

namespace Piece

/-- What is written for a piece after a character. -/
def spelled (m : Bool) (before : Option Char) : Piece → List Char
  | lexeme text => match text.toList with
    | [] => []
    | c :: cs => if before.any (fuses · c) then ' ' :: c :: cs else c :: cs
  | blank => [' ']
  | gap => if m then [] else [' ']
  | newline => if m then [] else ['\n']
  | newlineOrBlank => [if m then ' ' else '\n']
  | indent level => if m then [] else List.replicate (level * indentWidth) ' '
  | problem _ => []

lemma append_eq (text : List Char) : append done text = text.reverse ++ done := by
  induction text generalizing done with
  | nil => rfl
  | cons c cs ih => rw [append, List.foldl_cons, ← append, ih, List.reverse_cons, List.append_assoc]; rfl

lemma appendLexeme_eq (text : List Char) : appendLexeme done text = (match text with
    | [] => []
    | c :: cs => if done.head?.any (fuses · c) then ' ' :: c :: cs else c :: cs).reverse ++ done := by
  cases text with
  | nil => cases done <;> rfl
  | cons c cs =>
    cases done with
    | nil => exact append_eq _
    | cons a done =>
      simp only [appendLexeme, append_eq, List.head?_cons, Option.any_some]
      by_cases h : fuses a c = true <;> simp [h]

lemma write_eq (p : Piece) : write m done p = (spelled m done.head? p).reverse ++ done := by
  cases p with
  | lexeme text => exact appendLexeme_eq _
  | indent level =>
    cases m with
    | true => rfl
    | false => exact append_eq _
  | _ => cases m <;> rfl

end Piece

/-- What is written for pieces after a character. -/
def spell (m : Bool) (before : Option Char) : List Piece → List Char
  | [] => []
  | p :: ps => p.spelled m before ++ spell m ((p.spelled m before).getLast?.or before) ps

lemma foldl_write : ps.foldl (Piece.write m) done = (spell m done.head? ps).reverse ++ done := by
  induction ps generalizing done with
  | nil => rfl
  | cons p ps ih =>
    rw [List.foldl_cons, ih, Piece.write_eq, List.head?_append, List.head?_reverse, spell,
      List.reverse_append, List.append_assoc]

lemma toList_layOut {first : String} : ∃ rest, (rest = [] ∨ rest = ['\n']) ∧
    (layOut m first ps).toList = first.toList ++ (spell m first.toList.getLast? ps ++ rest) := by
  have hdone : ps.foldl (Piece.write m) first.toList.reverse =
      (first.toList ++ spell m first.toList.getLast? ps).reverse := by
    rw [foldl_write, List.head?_reverse, List.reverse_append]
  unfold layOut
  dsimp only
  rw [String.toList_ofList, hdone]
  split
  · exact ⟨[], .inl rfl, by rw [List.reverse_reverse, List.append_nil]⟩
  · exact ⟨['\n'], .inr rfl, by rw [List.reverse_cons, List.reverse_reverse, List.append_assoc]⟩

/-! ### Lexemes side by side -/

/-- Whether a lexeme that starts with the character stays apart from what is written right before
it: a lexeme, or else the start of the text or a blank. -/
def meets (a : Option String) (d : Char) : Bool :=
  match a with
  | none => true
  | some a => a.toList.getLast?.any (Piece.fuses · d) || separates ((kind? a).getD .endOfFile) a.toList d

/-- Room that may be left out. -/
def Piece.isRoom : Piece → Bool
  | gap | newline | indent _ | problem _ => true
  | lexeme _ | blank | newlineOrBlank => false

/-- Room that is always there. -/
def Piece.isFirm : Piece → Bool
  | blank | newlineOrBlank => true
  | lexeme _ | gap | newline | indent _ | problem _ => false

/-- The tokens of pieces, whichever way they are laid out. Before and after the pieces stands the
lexeme that the next one may come to stand next to, if there is one. A number in front of a swizzle
takes the point with it. -/
inductive Spells : Option String → List Piece → List (TokenKind × List Char) → Option String → Prop where
  | nil {a : Option String} : Spells a [] [] a
  | firm {a z : Option String} {p : Piece} {ps : List Piece} {ts : List (TokenKind × List Char)}
    (hp : p.isFirm = true)
      (h : Spells none ps ts z) : Spells a (p :: ps) ts z
  | room {a z : Option String} {p : Piece} {ps : List Piece} {ts : List (TokenKind × List Char)}
    (hp : p.isRoom = true)
      (h : Spells a ps ts z) : Spells a (p :: ps) ts z
  | empty {a z : Option String} {ps : List Piece} {ts : List (TokenKind × List Char)} (h : Spells a ps ts z) :
      Spells a (.lexeme "" :: ps) ts z
  | lexeme {a z : Option String} {b : String} {k : TokenKind} {ps : List Piece} {ts : List (TokenKind × List Char)}
      (hk : kind? b = some k) (hsolid : isSolid k = true)
        (hmeets : b.toList.head?.all (meets a) = true) (h : Spells (some b) ps ts z) :
      Spells a (.lexeme b :: ps) ((k, b.toList) :: ts) z
  | point {a z : Option String} {ds letters : String} {k : TokenKind} {ps : List Piece}
    {ts : List (TokenKind × List Char)}
      (hds : Scan.isDigits ds.toList = true) (hmeets : ds.toList.head?.all (meets a) = true)
        (hk : kind? letters = some k)
      (hsolid : isSolid k = true) (hletter : letters.toList.head?.all (['x', 'y', 'z', 'w'].contains ·) = true)
      (h : Spells (some letters) ps ts z) :
      Spells a (.lexeme ds :: .lexeme "." :: .lexeme letters :: ps)
        ((.float, ds.toList ++ ['.']) :: (k, letters.toList) :: ts) z

namespace Spells

variable {a b z : Option String} {ts us : List (TokenKind × List Char)} {rest : List Char}

lemma append (h : Spells a ps ts b) (k : Spells b qs us z) : Spells a (ps ++ qs) (ts ++ us) z := by
  induction h with
  | nil => exact k
  | firm hp _ ih => exact .firm hp (ih k)
  | room hp _ ih => exact .room hp (ih k)
  | empty _ ih => exact .empty (ih k)
  | lexeme hk hsolid hmeets _ ih => exact .lexeme hk hsolid hmeets (ih k)
  | point hds hmeets hk hsolid hletter _ ih => exact .point hds hmeets hk hsolid hletter (ih k)

end Spells

lemma spell_of_nil {p : Piece} (h : p.spelled m before = []) : spell m before (p :: ps) = spell m before ps := by
  rw [spell, h]
  rfl

lemma all_spelled_of_isRoom {p : Piece} (hp : p.isRoom = true) : (p.spelled m before).all isBlank = true := by
  cases p with
  | gap | newline | problem => cases m <;> rfl
  | indent level =>
    cases m with
    | true => rfl
    | false => exact List.all_eq_true.mpr fun c hc => List.eq_of_mem_replicate hc ▸ rfl
  | _ => cases hp

lemma spelled_of_isFirm {p : Piece} (hp : p.isFirm = true) : ∃ c, isBlank c = true ∧ p.spelled m before = [c] := by
  cases p with
  | blank => exact ⟨' ', rfl, rfl⟩
  | newlineOrBlank => cases m <;> exact ⟨_, rfl, rfl⟩
  | _ => cases hp

variable {text : String}

lemma spelled_lexeme (htext : text.toList ≠ []) :
    Piece.spelled m before (.lexeme text) = text.toList ∨
    Piece.spelled m before (.lexeme text) = ' ' :: text.toList := by
  unfold Piece.spelled
  dsimp only
  split
  · exact absurd ‹_› htext
  · rename_i hcons
    rw [hcons]
    split
    · exact .inr rfl
    · exact .inl rfl

lemma getLast?_spelled_lexeme (htext : text.toList ≠ []) :
    (Piece.spelled m before (.lexeme text)).getLast?.or before = text.toList.getLast? := by
  have hlast : text.toList.getLast? = some (text.toList.getLast htext) := List.getLast?_eq_some_getLast htext
  obtain h | h := @spelled_lexeme m before _ htext
  · rw [h, hlast]
    rfl
  · rw [h, List.getLast?_cons, hlast]
    rfl

variable {rest : List Char}

section Ends

variable {x : String} {kind : TokenKind} (hkind : kind? x = some kind) (hsolid : isSolid kind = true)
include hsolid

lemma ends_of_isBlank {cs : List Char} (h : cs.head?.all isBlank = true) : ends kind x.toList cs = true := by
  cases cs with
  | nil => rfl
  | cons c cs => exact Scan.separates_of_isBlank hsolid h

include hkind

lemma ends_spelled (htext : text.toList ≠ []) (hmeets : text.toList.head?.all (meets (some x)) = true) :
    ends kind x.toList (Piece.spelled m x.toList.getLast? (.lexeme text) ++ rest) = true := by
  unfold Piece.spelled
  dsimp only
  split
  · exact absurd ‹_› htext
  rename_i c cs hcons
  rw [hcons, List.head?_cons, Option.all_some, meets, hkind, Option.getD_some, Bool.or_eq_true] at hmeets
  split
  · exact Scan.separates_of_isBlank hsolid rfl
  · exact hmeets.resolve_left ‹_›

lemma Spells.ends_spell {z : Option String} {ts : List (TokenKind × List Char)} (h : Spells (some x) ps ts z)
    (hrest : rest.head?.all isBlank = true) :
    ends kind x.toList (spell m x.toList.getLast? ps ++ rest) = true := by
  generalize ha : some x = a at h
  induction h with
  | nil => exact ends_of_isBlank hsolid hrest
  | @firm _ _ p ps _ hp _ _ =>
    obtain ⟨c, hc, hspelled⟩ := @spelled_of_isFirm m x.toList.getLast? _ hp
    rw [spell, hspelled]
    exact ends_of_isBlank hsolid hc
  | @room _ _ p ps _ hp _ ih =>
    have hblank := @all_spelled_of_isRoom m x.toList.getLast? _ hp
    cases hspelled : p.spelled m x.toList.getLast? with
    | nil =>
      rw [spell_of_nil hspelled]
      exact ih ha
    | cons c cs =>
      rw [hspelled] at hblank
      rw [spell, hspelled]
      exact ends_of_isBlank hsolid (Bool.and_eq_true_iff.mp hblank).1
  | empty _ ih =>
    rw [spell_of_nil rfl]
    exact ih ha
  | lexeme hk _ hmeets _ _ =>
    subst ha
    rw [spell, List.append_assoc]
    exact ends_spelled hkind hsolid (Scan.ne_nil_of_kind? hk) hmeets
  | point hds hmeets _ _ _ _ _ =>
    subst ha
    obtain ⟨c, cs, hcons⟩ := Scan.exists_cons_of_isDigits hds
    rw [spell, List.append_assoc]
    exact ends_spelled hkind hsolid (by rw [hcons]; exact List.cons_ne_nil c cs) hmeets

end Ends

lemma significant_lexeme {kind : TokenKind} (hkind : kind? text = some kind) (hsolid : isSolid kind = true)
    (hends : ends kind text.toList rest = true) :
    significant (Piece.spelled m before (.lexeme text) ++ rest) = (kind, text.toList) :: significant rest := by
  obtain h | h := @spelled_lexeme m before _ (Scan.ne_nil_of_kind? hkind)
  · rw [h, Scan.significant_token hkind hsolid hends]
  · rw [h, List.cons_append, Scan.significant_blank rfl, Scan.significant_token hkind hsolid hends]

lemma spelled_dot : Piece.spelled m before (.lexeme ".") = ['.'] := by
  have hfuses (a : Char) : Piece.fuses a '.' = false := by
    rw [Piece.fuses, Bool.and_eq_false_iff]
    by_cases ha : a = '.'
    · exact .inr (ha ▸ rfl)
    · exact .inl (beq_eq_false_iff_ne.mpr ha)
  have hany : before.any (Piece.fuses · '.') = false := by
    cases before with
    | none => rfl
    | some a => exact hfuses a
  change (if before.any (Piece.fuses · '.') = true then _ else _) = _
  rw [hany]
  rfl

lemma isComponent_facts {d : Char} (hd : d ∈ ['x', 'y', 'z', 'w']) :
    Piece.fuses '.' d = false ∧ d.isDigit = false ∧ d ∉ ['e', 'E', 'f', 'F'] := by
  simp only [List.mem_cons, List.not_mem_nil, or_false] at hd
  obtain rfl | rfl | rfl | rfl := hd <;> decide

lemma Spells.significant_spell {a z : Option String} {ts : List (TokenKind × List Char)} (h : Spells a ps ts z)
    (hrest : rest.head?.all isBlank = true) :
    significant (spell m before ps ++ rest) = ts ++ significant rest := by
  induction h generalizing before with
  | nil => rfl
  | @firm _ _ p _ _ hp _ ih =>
    obtain ⟨c, hc, hspelled⟩ := @spelled_of_isFirm m before _ hp
    rw [spell, hspelled, List.append_assoc, List.singleton_append, Scan.significant_blank hc, ih]
  | @room _ _ p _ _ hp _ ih =>
    rw [spell, List.append_assoc, Scan.significant_blanks (all_spelled_of_isRoom hp), ih]
  | empty _ ih => rw [spell_of_nil rfl, ih]
  | @lexeme _ _ b k _ _ hk hsolid _ h ih =>
    have hends := h.ends_spell (m := m) hk hsolid hrest
    rw [spell, getLast?_spelled_lexeme (Scan.ne_nil_of_kind? hk), List.append_assoc,
      significant_lexeme hk hsolid hends, ih]
    rfl
  | @point _ _ ds letters k ps _ hds _ hk hsolid hletter h ih =>
    have hends := h.ends_spell (m := m) hk hsolid hrest
    obtain ⟨d, ls, hletters⟩ := List.exists_cons_of_ne_nil (Scan.ne_nil_of_kind? hk)
    obtain ⟨hfuses, hdigit, hmark⟩ := isComponent_facts
      (show d ∈ ['x', 'y', 'z', 'w'] by simpa [hletters] using hletter)
    have hspell : spell m (some '.') (.lexeme letters :: ps) = d ::
      (ls ++ spell m letters.toList.getLast? ps) := by
      have hplain : Piece.spelled m (some '.') (.lexeme letters) = letters.toList := by
        unfold Piece.spelled
        simp only [hletters, Option.any_some, hfuses, Bool.false_eq_true, if_false]
      have hlast := @getLast?_spelled_lexeme m (some '.') _ (Scan.ne_nil_of_kind? hk)
      rw [spell, hlast, hplain, hletters]
      rfl
    have hpoint : significant (ds.toList ++ '.' :: d :: (ls ++ spell m letters.toList.getLast? ps ++ rest)) =
        (.float, ds.toList ++ ['.']) :: (k, letters.toList) ::
          significant (spell m letters.toList.getLast? ps ++ rest) := by
      rw [Scan.significant_point hds hdigit hmark, ← Scan.significant_token hk hsolid hends,
        hletters, List.append_assoc]
      rfl
    have hne : ds.toList ≠ [] := by
      obtain ⟨c, cs, hcons⟩ := Scan.exists_cons_of_isDigits hds
      rw [hcons]
      exact List.cons_ne_nil c cs
    rw [spell, spell, spelled_dot, List.getLast?_singleton, Option.some_or, hspell]
    obtain h | h := @spelled_lexeme m before _ hne
    · rw [h]
      simpa [ih] using hpoint
    · rw [h, List.cons_append, List.cons_append, Scan.significant_blank rfl]
      simpa [ih] using hpoint

end Glsl
end Shading
