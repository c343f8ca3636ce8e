import Mathlib
import Shading.Token.Scan

/-! Texts that are one token. A name that has been scanned is one token by itself, and so is
whatever else consists of letters, digits and underscores and does not start with a digit. -/
namespace Shading

namespace Scan

/-- The kind of the token that a text is, if it is one. -/
def kind? (text : String) : Option TokenKind :=
  match text.toList with
  | [] => none
  | c :: rest => if (munch c rest).2.2.isEmpty then some (munch c rest).1 else none

/-- A text of letters, digits and underscores that does not start with a digit. -/
def isWord : List Char → Bool
  | [] => false
  | c :: cs => isWordStart c && (c :: cs).all isWordChar

lemma isWordChar_of_isWordStart {c : Char} (h : isWordStart c = true) : isWordChar c = true := by
  simp only [isWordStart, isWordChar, Char.isAlphanum, Bool.or_eq_true] at *
  tauto

lemma kind?_of_isWord {text : String} (h : isWord text.toList = true) :
    kind? text = some (wordKind text.toList) := by
  unfold kind?
  split
  · rename_i hempty
    rw [hempty] at h
    cases h
  · rename_i c rest htext
    rw [htext] at h ⊢
    simp only [isWord, Bool.and_eq_true] at h
    have hall : ∀ d ∈ c :: rest, isWordChar d = true := List.all_eq_true.mp h.2
    have hrun : run isWordChar (c :: rest) = (c :: rest, []) := by
      unfold run
      rw [List.takeWhile_eq_self_iff.mpr hall, List.dropWhile_eq_nil_iff.mpr hall]
    unfold munch
    rw [if_pos h.1, hrun]
    rfl

end Scan

/-- A name: an identifier and nothing else. -/
def IsName (text : String) : Prop := Scan.kind? text = some .identifier

instance (text : String) : Decidable (IsName text) := inferInstanceAs (Decidable (_ = _))

namespace Scan

lemma fst_number {cs : List Char} : (number cs).1 = .integer ∨ (number cs).1 = .float := by
  unfold number hexadecimal decimal
  split
  · exact .inl rfl
  · exact .inl rfl
  · dsimp only
    split
    · exact .inl rfl
    · exact .inr rfl

lemma isWordStart_of_munch {c : Char} {rest : List Char} (h : (munch c rest).1 = .identifier) :
    isWordStart c = true := by
  unfold munch at h
  split at h
  · assumption
  split at h
  · obtain hn | hn := @fst_number (c :: rest) <;> rw [hn] at h <;> cases h
  split at h
  · cases h
  · unfold other at h
    repeat' split at h
    all_goals cases h

lemma isWord_takeWhile {c : Char} {rest : List Char} (h : isWordStart c = true) :
    isWord ((c :: rest).takeWhile isWordChar) = true := by
  rw [List.takeWhile_cons_of_pos (isWordChar_of_isWordStart h), isWord, h, Bool.true_and, List.all_cons,
    isWordChar_of_isWordStart h, Bool.true_and]
  exact List.all_takeWhile

lemma isName_of_munch {c : Char} {rest : List Char} (h : (munch c rest).1 = .identifier) :
    IsName (String.ofList (munch c rest).2.1) := by
  have hstart := isWordStart_of_munch h
  have hmunch : munch c rest = (wordKind ((c :: rest).takeWhile isWordChar), (c :: rest).takeWhile isWordChar,
      (c :: rest).dropWhile isWordChar) := by
    unfold munch
    rw [if_pos hstart]
    rfl
  rw [hmunch] at h ⊢
  have hkind := @kind?_of_isWord (String.ofList ((c :: rest).takeWhile isWordChar))
  rw [String.toList_ofList] at hkind
  exact (hkind (isWord_takeWhile hstart)).trans (congrArg some h)

/-- Words with a meaning of their own. -/
def specialWords : List String := ["true", "false"] ++ Keyword.all.map Keyword.spelling ++ reservedWords

lemma isName_of_isWord {text : String} (h : isWord text.toList = true)
    (hspecial : text ∉ specialWords) : IsName text := by
  simp only [specialWords, List.mem_append, List.mem_cons, List.not_mem_nil, or_false, List.mem_map,
    not_or, not_exists, not_and] at hspecial
  obtain ⟨⟨⟨htrue, hfalse⟩, hkeyword⟩, hreserved⟩ := hspecial
  have hnone : Keyword.ofSpelling? text = none := by
    refine List.find?_eq_none.mpr fun k hk heq => hkeyword k hk (eq_of_beq heq)
  rw [IsName, kind?_of_isWord h, wordKind, String.ofList_toList]
  simp [htrue, hfalse, hnone, hreserved]

lemma isWord_of_isName {text : String} (h : IsName text) : isWord text.toList = true := by
  unfold IsName kind? at h
  split at h
  · cases h
  rename_i c rest htext
  split at h
  · rename_i hempty
    have hstart := isWordStart_of_munch (Option.some.inj h)
    unfold munch run at hempty
    rw [if_pos hstart, List.isEmpty_iff, List.dropWhile_eq_nil_iff] at hempty
    rw [htext, isWord, hstart, Bool.true_and]
    exact List.all_eq_true.mpr hempty
  · cases h

lemma isName_of_mem_loop {offset : Nat} {cs : List Char} {found : Array Token}
    (hfound : ∀ t ∈ found, t.kind = .identifier → IsName t.text) : ∀ t ∈ loop offset cs found,
    t.kind = .identifier → IsName t.text := by
  fun_induction loop offset cs found with
  | case1 offset found =>
    intro t ht
    obtain ht | rfl := Array.mem_push.mp ht
    · exact hfound t ht
    · nofun
  | case2 offset found c rest ih =>
    refine ih fun t ht => ?_
    obtain ht | rfl := Array.mem_push.mp ht
    · exact hfound t ht
    · exact isName_of_munch

end Scan
end Shading
