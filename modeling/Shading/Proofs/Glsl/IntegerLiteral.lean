import Shading.Proofs.Check.Wrap
import Shading.Proofs.Glsl.Lexemes
import Shading.Proofs.Token.Integer

/-! Integer literals denote their numeral. What a token spells becomes a literal of 32 bits, and
what is written for the literal is read as the literal again. -/
namespace Shading

open Numeral (IsMark Spells integer? positional)

lemma exists_spells {source : String} {t : Token} (ht : t ∈ tokenize source) (hkind : t.kind = .integer) :
    ∃ mark base digits, IsMark mark ∧ Spells mark t.lexeme base digits := by
  rw [← Array.mem_toList_iff, toList_tokenize] at ht
  obtain ht | ht := List.mem_append.mp ht
  · obtain ⟨c, rest, xs, r, hlexeme, hmunch⟩ := Scan.exists_of_mem_tokens (Scan.mem_of_mem_placed ht)
    have hspells : ∃ mark base digits, IsMark mark ∧ Spells mark (Scan.munch c rest).2.1 base digits :=
      Scan.spells_of_munch (by rw [hmunch]; exact hkind)
    rw [hmunch] at hspells
    rwa [show t.lexeme = c :: xs from hlexeme]
  · rw [List.mem_singleton.mp ht] at hkind
    cases hkind

namespace Grammar

variable {w : Word} {c : Context} {n : Nat} {unsigned : Bool}

/-- The literal of a number: an unsigned one keeps it, and any other keeps its bits. -/
def literalOf (n : Nat) (unsigned : Bool) : Int := if unsigned then n else (Literal.word n).toInt

def scalarOf (unsigned : Bool) : Scalar := if unsigned then .uint else .int

lemma integerLiteral_eq (h : integer? w.text.toList = some (n, unsigned)) (hn : n < 2 ^ 32) :
    integerLiteral w c = (.literal (.int (literalOf n unsigned)) (.scalar (scalarOf unsigned)) w.span, c) := by
  unfold integerLiteral
  rw [h]
  dsimp only
  rw [if_neg (show ¬ 0x100000000 ≤ n from Nat.not_le.mpr hn)]
  cases unsigned <;> rfl

lemma integerLiteral_reports (h : ∀ n unsigned, integer? w.text.toList = some (n, unsigned) → 2 ^ 32 ≤ n) :
    (integerLiteral w c).2 ≠ c := by
  have hreported {p : Problem} : (Check.report p w.span c).2 ≠ c := fun heq => by
    have hlength := congrArg (fun c : Context => c.journal.length) heq
    exact absurd hlength (Nat.succ_ne_self _)
  unfold integerLiteral
  cases hinteger : integer? w.text.toList with
  | none => exact hreported
  | some r =>
    dsimp only
    rw [if_pos (show 0x100000000 ≤ r.1 from h r.1 r.2 hinteger)]
    exact hreported

/-- An unsigned literal is the number itself, and any other the one of 32 bits that is congruent to
it. -/
def Denotes (n : Nat) (unsigned : Bool) (i : Int) (s : Scalar) : Prop :=
  if unsigned then s = .uint ∧ i = n else s = .int ∧ -2 ^ 31 ≤ i ∧ i < 2 ^ 31 ∧ i ≡ n [ZMOD 2 ^ 32]

lemma denotes_literalOf : Denotes n unsigned (literalOf n unsigned) (scalarOf unsigned) := by
  cases unsigned with
  | true => exact ⟨rfl, rfl⟩
  | false =>
    have hrange := Literal.toInt_range (Literal.word n)
    refine ⟨rfl, hrange.1, hrange.2, ?_⟩
    change (BitVec.ofInt 32 n).toInt % 2 ^ 32 = n % 2 ^ 32
    rw [BitVec.toInt_ofInt]
    exact Int.bmod_emod

lemma Denotes.fits {i : Int} {s : Scalar} (hn : n < 2 ^ 32) (h : Denotes n unsigned i s) :
    (Literal.int i).Fits s := by
  cases unsigned with
  | true =>
    obtain ⟨rfl, rfl⟩ := h
    exact .inr ⟨rfl, by omega, by omega⟩
  | false =>
    obtain ⟨rfl, hlo, hhi, -⟩ := h
    exact .inl ⟨rfl, hlo, hhi⟩

/-- The literal is written as an integer token that is read as the literal, or as one that is after
a minus. -/
def ReadsBack (v : Literal) (s : Scalar) : Prop :=
  ∃ text u, Scan.kind? text = some .integer ∧
    (∀ (w : Word) (c : Context), w.text = text → integerLiteral w c = (.literal u (.scalar s) w.span, c)) ∧
    (Glsl.literal v (.scalar s) = [.lexeme text] ∧ u = v ∨
      Glsl.literal v (.scalar s) = [.lexeme "-", .lexeme text] ∧
        ∀ span whole, Check.foldUnary? .sub (.literal u (.scalar s) span) whole =
          some (.literal v (.scalar s) whole))

lemma neg_toInt_word {i : Int} (h : -2 ^ 31 ≤ i) (hneg : i < 0) :
    Literal.wrap .int (-Literal.long (Literal.word i.natAbs).toInt) = i := by
  have habs : (i.natAbs : Int) = -i := by omega
  change ((-Literal.long (Literal.word i.natAbs).toInt).setWidth 32).toInt = i
  rw [Literal.setWidth_long_neg, Literal.word, BitVec.ofInt_toInt, Literal.word, habs, BitVec.ofInt_neg, neg_neg]
  exact Glsl.toInt_word ⟨h, by omega⟩

lemma readsBack_of_fits {i : Int} {s : Scalar} (hs : s = .uint ∨ s = .int)
    (h : (Literal.int i).Fits s) : ReadsBack (.int i) s := by
  have hliteral := Glsl.literal_eq h
  obtain rfl | rfl := hs
  · obtain ⟨hkind, -⟩ | ⟨-, hlo, hhi⟩ := h
    · cases hkind
    have hnumber : i.natAbs < 2 ^ 32 := by omega
    have htext : (s!"{i.natAbs}u").toList = (toString i.natAbs).toList ++ ['u'] := by simp [Number.toString_text]
    refine ⟨s!"{i.natAbs}u", .int i, Scan.kind?_of_isDigits_u htext (Number.isDigits_toString _),
      ?_, .inl ⟨?_, rfl⟩⟩
    · intro w c hw
      have hread := Numeral.integer?_toString (Nat.lt_trans hnumber (by decide)) (.inr (.inl rfl) : IsMark ['u'])
      rw [← htext, ← hw] at hread
      rw [integerLiteral_eq hread hnumber]
      simp [literalOf, scalarOf, abs_of_nonneg hlo]
    · rw [hliteral, if_neg (by simpa [Glsl.isNegative] using hlo)]
      rfl
  · obtain ⟨-, hlo, hhi⟩ | ⟨hkind, -⟩ := h
    swap
    · cases hkind
    have hnumber : i.natAbs < 2 ^ 32 := by omega
    have hread : integer? (toString i.natAbs).toList = some (i.natAbs, false) := by
      simpa using Numeral.integer?_toString (Nat.lt_trans hnumber (by decide)) (.inl rfl : IsMark [])
    refine ⟨toString i.natAbs, .int (Literal.word i.natAbs).toInt,
      Scan.kind?_of_isDigits (Number.isDigits_toString _), ?_, ?_⟩
    · intro w c hw
      rw [← hw] at hread
      exact integerLiteral_eq hread hnumber
    · by_cases hneg : i < 0
      · refine .inr ⟨by rw [hliteral, if_pos (by simpa [Glsl.isNegative] using hneg)]; rfl, fun span whole => ?_⟩
        change some (Expr.literal (.int (Literal.wrap .int
          (-Literal.long (Literal.word i.natAbs).toInt))) (.scalar .int) whole) = _
        rw [neg_toInt_word hlo hneg]
      · refine .inl ⟨by rw [hliteral, if_neg (by simpa [Glsl.isNegative] using hneg)]; rfl, ?_⟩
        have habs : (i.natAbs : Int) = i := by omega
        rw [habs, Glsl.toInt_word ⟨hlo, hhi⟩]

/-- An integer token has a base, digits and maybe a mark. Its numeral is refused exactly if digits
are missing after the mark of the base, if an octal one has a digit that is not octal, or if the
number does not fit into 64 bits; otherwise it is the number of the digits in the base, with or
without the mark. The literal is made without a report exactly if the number fits into 32 bits. It
then denotes the number, and what is written for it is read as the same literal. -/
theorem integer_literal_denotes {source : String} {t : Token} (ht : t ∈ tokenize source)
    (hkind : t.kind = .integer) :
    ∃ mark base digits, IsMark mark ∧ Spells mark t.lexeme base digits ∧
      (integer? t.lexeme = none ↔
        base = 16 ∧ digits = [] ∨ base = 8 ∧ ('8' ∈ digits ∨ '9' ∈ digits) ∨ 2 ^ 64 ≤ positional base digits) ∧
      (∀ r, integer? t.lexeme = some r → r = (positional base digits, !mark.isEmpty)) ∧
      ∀ (w : Word) (c : Context), w.text = t.text →
        ((integerLiteral w c).2 = c ↔ ∃ n unsigned, integer? t.lexeme = some (n, unsigned) ∧ n < 2 ^ 32) ∧
        ∀ n unsigned, integer? t.lexeme = some (n, unsigned) → n < 2 ^ 32 →
          ∃ i s, integerLiteral w c = (.literal (.int i) (.scalar s) w.span, c) ∧
          Denotes n unsigned i s ∧ ReadsBack (.int i) s := by
  obtain ⟨mark, base, digits, hmark, hspells⟩ := exists_spells ht hkind
  refine ⟨mark, base, digits, hmark, hspells, ?_, fun r hr => ?_, fun w c hw => ?_⟩
  · rw [← or_assoc]
    obtain ⟨hbad, hnone⟩ | ⟨hgood, hsome⟩ := Numeral.integer?_of_spells hmark hspells
    · exact ⟨fun _ => hbad, fun _ => hnone⟩
    · exact ⟨fun h => absurd (hsome.symm.trans h) (by simp), fun h => absurd h hgood⟩
  · obtain ⟨-, hnone⟩ | ⟨-, hsome⟩ := Numeral.integer?_of_spells hmark hspells
    · rw [hnone] at hr
      cases hr
    · exact Option.some.inj (hr.symm.trans hsome)
  · have hlexeme : w.text.toList = t.lexeme := by rw [hw, Token.text, String.toList_ofList]
    rw [← hlexeme]
    refine ⟨⟨fun hsilent => ?_, ?_⟩, fun n unsigned h hn => ?_⟩
    · by_contra hnone
      refine integerLiteral_reports (fun n unsigned h => ?_) hsilent
      by_contra hn
      exact hnone ⟨n, unsigned, h, Nat.lt_of_not_le hn⟩
    · rintro ⟨n, unsigned, h, hn⟩
      rw [integerLiteral_eq h hn]
    · have hdenotes : Denotes n unsigned (literalOf n unsigned) (scalarOf unsigned) := denotes_literalOf
      refine ⟨_, _, integerLiteral_eq h hn, hdenotes, readsBack_of_fits ?_ (hdenotes.fits hn)⟩
      cases unsigned
      · exact .inr rfl
      · exact .inl rfl

/-- All bits of a word are written as `-1`, which is read as the same literal. -/
theorem integer_literal_denotes_ones : ∃ t ∈ tokenize "0xFFFFFFFF", t.kind = .integer ∧
    ∃ base digits, Spells [] t.lexeme base digits ∧ positional base digits = 4294967295 ∧
      ∀ (w : Word) (c : Context), w.text = "0xFFFFFFFF" →
        integerLiteral w c = (.literal (.int (-1)) (.scalar .int) w.span, c) ∧ ReadsBack (.int (-1)) .int := by
  have ht : (⟨.integer, "0xFFFFFFFF".toList, 0⟩ : Token) ∈ tokenize "0xFFFFFFFF" := by
    have hmunch : Scan.munch '0' "xFFFFFFFF".toList = (.integer, "0xFFFFFFFF".toList, []) := by decide +kernel
    rw [← Array.mem_toList_iff, toList_tokenize,
      show "0xFFFFFFFF".toList = '0' :: "xFFFFFFFF".toList from rfl, Scan.tokens_cons, hmunch]
    exact List.mem_cons_self
  refine ⟨_, ht, rfl, ?_⟩
  obtain ⟨mark, base, digits, hmark, hspells, -, hvalue, hliteral⟩ := integer_literal_denotes ht rfl
  have hinteger : integer? "0xFFFFFFFF".toList = some (4294967295, false) := by decide +kernel
  obtain ⟨hn, hunsigned⟩ := Prod.mk.inj (hvalue _ hinteger)
  obtain rfl : mark = [] := by simpa using hunsigned
  refine ⟨base, digits, hspells, hn.symm, fun w c hw => ?_⟩
  obtain ⟨i, s, hread, hdenotes, hback⟩ := (hliteral w c hw).2 _ _ hinteger (by decide)
  obtain ⟨rfl, hlo, hhi, hcongr⟩ := hdenotes
  obtain rfl : i = -1 := by
    have := Int.emod_emod_of_dvd i (dvd_refl (2 ^ 32))
    unfold Int.ModEq at hcongr
    omega
  exact ⟨hread, hback⟩

end Grammar
end Shading
