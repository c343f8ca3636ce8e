import Shading.Numeral
import Shading.Proofs.Number.Text
import Shading.Proofs.Token.Lossless

/-! The integers that tokens spell. A numeral has a base, digits and maybe a mark for unsigned
numbers. It denotes the number that the digits stand for in the base, if they are digits of the base
and the number stays below the bound. -/
namespace Shading

namespace Numeral

/-- The digits of all bases. Letters count in both cases. -/
def allDigits : List Char := ['0', '1', '2', '3', '4', '5', '6', '7', '8', '9', 'a', 'b', 'c', 'd', 'e', 'f']

/-- What a digit stands for is its place among all digits. -/
def digitValue (c : Char) : Nat := allDigits.idxOf c.toLower

/-- The number that digits stand for in a base. The last digit is the one of units. -/
def positional (base : Nat) (digits : List Char) : Nat := Nat.ofDigits base (digits.map digitValue).reverse

/-- The mark of an unsigned number, or none. -/
def IsMark (mark : List Char) : Prop := mark = [] ∨ mark = ['u'] ∨ mark = ['U']

/-- How digits and a mark make a numeral: hexadecimal after `0x`, octal after a zero, and otherwise
decimal. -/
inductive Spells (mark : List Char) : List Char → Nat → List Char → Prop
  | hexadecimal {x : Char} {digits : List Char} (hx : x = 'x' ∨ x = 'X') (h : digits.all Scan.isHexDigit = true) :
      Spells mark ('0' :: x :: digits ++ mark) 16 digits
  | octal {digits : List Char} (h : Scan.isDigits digits = true) : Spells mark ('0' :: digits ++ mark) 8 digits
  | decimal {digits : List Char} (h : Scan.isDigits digits = true)
    (hzero : digits.head? = some '0' → digits = ['0']) :
      Spells mark (digits ++ mark) 10 digits

end Numeral

/-! ### The shape of integer tokens -/

namespace Scan

open Numeral (IsMark Spells)

variable {c : Char} {cs rest : List Char}

lemma spells_of_isDigits {digits mark : List Char} (h : isDigits digits = true) :
    ∃ base ds, Spells mark (digits ++ mark) base ds := by
  obtain ⟨d, ds, rfl⟩ := exists_cons_of_isDigits h
  by_cases hoctal : d = '0' ∧ ds ≠ []
  · obtain ⟨rfl, hne⟩ := hoctal
    have hds : isDigits ds = true := by
      have hall := all_of_isDigits h
      rw [List.all_cons, Bool.and_eq_true] at hall
      exact Number.isDigits_of_all hall.2 hne
    exact ⟨8, ds, .octal hds⟩
  · refine ⟨10, d :: ds, .decimal h fun hd => ?_⟩
    obtain rfl : d = '0' := Option.some.inj hd
    rw [not_and, not_not] at hoctal
    rw [hoctal rfl]

lemma spells_of_decimal (hstart : startsNumber c rest = true) (h : (decimal (c :: rest)).1 = .integer) :
    ∃ mark base digits, IsMark mark ∧ Spells mark (decimal (c :: rest)).2.1 base digits := by
  have heq : decimal (c :: rest) =
      if (fraction (run Char.isDigit (c :: rest)).2).1.isEmpty &&
        (exponent (fraction (run Char.isDigit (c :: rest)).2).2).1.isEmpty &&
          (suffix 'f' 'F' (exponent (fraction (run Char.isDigit (c :: rest)).2).2).2).1.isEmpty then
        (.integer, (run Char.isDigit (c :: rest)).1 ++
          (suffix 'u' 'U' (exponent (fraction (run Char.isDigit (c :: rest)).2).2).2).1,
          (suffix 'u' 'U' (exponent (fraction (run Char.isDigit (c :: rest)).2).2).2).2)
      else (.float, (run Char.isDigit (c :: rest)).1 ++ (fraction (run Char.isDigit (c :: rest)).2).1 ++
        (exponent (fraction (run Char.isDigit (c :: rest)).2).2).1 ++
        (suffix 'f' 'F' (exponent (fraction (run Char.isDigit (c :: rest)).2).2).2).1,
        (suffix 'f' 'F' (exponent (fraction (run Char.isDigit (c :: rest)).2).2).2).2) := rfl
  rw [heq] at h ⊢
  split at h
  · rename_i hempty
    rw [if_pos hempty]
    have hdigit : c.isDigit = true := by
      -- A number that starts with a point has a fraction.
      by_contra hc
      rw [Bool.not_eq_true] at hc
      simp only [startsNumber, hc, Bool.false_or, Bool.and_eq_true, beq_iff_eq] at hstart
      obtain ⟨rfl, -⟩ := hstart
      simp [run, fraction, hc] at hempty
    have hdigits : isDigits (run Char.isDigit (c :: rest)).1 = true :=
      Number.isDigits_of_all (by simp [run]) (run_ne_nil hdigit)
    obtain ⟨base, ds, hspells⟩ := spells_of_isDigits hdigits
    exact ⟨_, base, ds, isSuffix_suffix, hspells⟩
  · cases h

lemma spells_of_number (hstart : startsNumber c rest = true) (h : (number (c :: rest)).1 = .integer) :
    ∃ mark base digits, IsMark mark ∧ Spells mark (number (c :: rest)).2.1 base digits := by
  have hhexadecimal {x : Char} (hx : x = 'x' ∨ x = 'X') (more : List Char) :
      ∃ mark base digits, IsMark mark ∧ Spells mark (hexadecimal x more).2.1 base digits :=
    ⟨_, 16, (run isHexDigit more).1, isSuffix_suffix, .hexadecimal hx (by simp)⟩
  revert h
  unfold number
  split
  · exact fun _ => hhexadecimal (.inl rfl) _
  · exact fun _ => hhexadecimal (.inr rfl) _
  · exact spells_of_decimal hstart

lemma wordKind_ne_integer {word : List Char} : wordKind word ≠ .integer := by
  unfold wordKind
  dsimp only
  repeat' split
  all_goals simp

lemma spells_of_munch (h : (munch c rest).1 = .integer) :
    ∃ mark base digits, IsMark mark ∧ Spells mark (munch c rest).2.1 base digits := by
  cases hword : isWordStart c with
  | true =>
    rw [munch_word hword] at h
    exact absurd h wordKind_ne_integer
  | false =>
    cases hnumber : startsNumber c rest with
    | true =>
      rw [munch_of_startsNumber hword hnumber] at h ⊢
      exact spells_of_number hnumber h
    | false =>
      cases hblank : isBlank c with
      | true =>
        rw [munch_blank hblank] at h
        cases h
      | false =>
        rw [munch_of_other hword hnumber hblank] at h
        unfold other at h
        repeat' split at h
        all_goals cases h

end Scan

/-! ### Values -/

namespace Numeral

variable {base : Nat} {digits mark cs : List Char} {c : Char}

lemma positional_eq_foldl : positional base digits = digits.foldl (fun n c => digitValue c + base * n) 0 := by
  rw [positional, Nat.ofDigits_eq_foldr, List.foldr_reverse, List.foldl_map]
  simp

/-- What is counted is the number, or both have reached the bound. -/
def Saturates (number counted : Nat) : Prop := counted = number ∨ bound ≤ counted ∧ bound ≤ number

lemma Saturates.step {n m d : Nat} (hbase : 0 < base) (h : Saturates n m) :
    Saturates (d + base * n) (if m < bound then m * base + d else m) := by
  have hle : n ≤ base * n := Nat.le_mul_of_pos_left n hbase
  unfold Saturates at *
  split
  · obtain rfl | h := h
    · exact .inl (by rw [Nat.mul_comm, Nat.add_comm])
    · omega
  · omega

lemma foldlM_of_digits (hbase : 0 < base) (h : ∀ d ∈ digits, digit? base d = some (digitValue d))
    {n m : Nat} (hm : Saturates n m) :
    ∃ k, digits.foldlM (fun n c => (digit? base c).map fun d =>
    if n < bound then n * base + d else n) m = some k ∧
      Saturates (digits.foldl (fun n c => digitValue c + base * n) n) k := by
  induction digits generalizing n m with
  | nil => exact ⟨m, rfl, hm⟩
  | cons d digits ih =>
    rw [List.forall_mem_cons] at h
    rw [List.foldlM_cons, h.1]
    exact ih h.2 (hm.step hbase)

lemma value?_of_digits (hbase : 0 < base) (h : ∀ d ∈ digits, digit? base d = some (digitValue d)) :
    ∃ k, value? base digits = some k ∧ Saturates (positional base digits) k := by
  rw [positional_eq_foldl]
  exact foldlM_of_digits hbase h (.inl rfl)

lemma value?_eq_none (h : ∃ d ∈ digits, digit? base d = none) : value? base digits = none := by
  have hfold (n : Nat) : digits.foldlM (fun n c => (digit? base c).map fun d =>
    if n < bound then n * base + d else n) n = none := by
    induction digits generalizing n with
    | nil => obtain ⟨d, hd, -⟩ := h; cases hd
    | cons d digits ih =>
      obtain ⟨x, hx, hnone⟩ := h
      rw [List.foldlM_cons]
      obtain rfl | hx := List.mem_cons.mp hx
      · rw [hnone]
        rfl
      · cases digit? base d with
        | none => rfl
        | some k => exact ih ⟨x, hx, hnone⟩ _
  exact hfold 0

lemma mem_of_isHexDigit (h : Scan.isHexDigit c = true) : c ∈ allDigits ++ ['A', 'B', 'C', 'D', 'E', 'F'] := by
  simp only [Scan.isHexDigit, Char.isDigit, Bool.or_eq_true, Bool.and_eq_true, decide_eq_true_eq,
    UInt32.le_iff_toNat_le,
    Char.le_def, ge_iff_le] at h
  change ((48 ≤ c.toNat ∧ c.toNat ≤ 57) ∨ 97 ≤ c.toNat ∧ c.toNat ≤ 102) ∨ 65 ≤ c.toNat ∧ c.toNat ≤ 70 at h
  rw [← Char.ofNat_toNat c]
  generalize c.toNat = n at h
  obtain (⟨hlo, hhi⟩ | ⟨hlo, hhi⟩) | ⟨hlo, hhi⟩ := h <;> interval_cases n <;> decide

lemma digit?_of_isHexDigit (h : Scan.isHexDigit c = true) : digit? 16 c = some (digitValue c) := by
  have hall : ∀ c ∈ allDigits ++ ['A', 'B', 'C', 'D', 'E', 'F'], digit? 16 c = some (digitValue c) := by
    simp only [allDigits, List.cons_append, List.nil_append, List.forall_mem_cons]
    refine ⟨rfl, rfl, rfl, rfl, rfl, rfl, rfl, rfl, rfl, rfl, rfl, rfl, rfl, rfl, rfl, rfl, rfl,
      rfl, rfl, rfl, rfl, rfl, by simp⟩
  exact hall c (mem_of_isHexDigit h)

lemma digit?_of_isDigit (h : c.isDigit = true) : digit? 10 c = some (digitValue c) ∧
    digit? 8 c = if c = '8' ∨ c = '9' then none else some (digitValue c) := by
  have hc := mem_of_isHexDigit (c := c) (by simp [Scan.isHexDigit, h])
  simp only [allDigits, List.cons_append, List.nil_append, List.mem_cons, List.not_mem_nil, or_false] at hc
  repeat' obtain rfl | hc := hc
  all_goals first | exact ⟨rfl, rfl⟩ | exact absurd h (by decide)

/-! ### Numerals -/

/-- Digits that are missing, or that the base does not have. -/
def IsMalformed (base : Nat) (digits : List Char) : Prop := base = 16 ∧ digits = [] ∨ base = 8 ∧
    ('8' ∈ digits ∨ '9' ∈ digits)

lemma dropEnding_append (hmark : IsMark mark) (hlast : ∀ c ∈ cs.getLast?, c ≠ 'u' ∧ c ≠ 'U') :
    dropEnding ['u', 'U'] (cs ++ mark) = (cs, !mark.isEmpty) := by
  unfold dropEnding
  obtain rfl | rfl | rfl := hmark
  · rw [List.append_nil]
    cases hcs : cs.reverse with
    | nil => rfl
    | cons c rest =>
      have hc := hlast c (by rw [← List.head?_reverse, hcs]; rfl)
      simp [hc]
  all_goals simp

lemma ne_u_of_isHexDigit (h : Scan.isHexDigit c = true) : c ≠ 'u' ∧ c ≠ 'U' := by
  constructor <;> rintro rfl <;> exact absurd h (by decide)

lemma magnitude?_octal (h : Scan.isDigits digits = true) : magnitude? ('0' :: digits) = value? 8 digits := by
  obtain ⟨d, ds, rfl⟩ := Scan.exists_cons_of_isDigits h
  have hd := Scan.ne_x_of_all (Scan.all_of_isDigits h) d List.mem_cons_self
  unfold magnitude?
  split <;> simp_all

lemma magnitude?_decimal (h : Scan.isDigits digits = true) (hzero : digits.head? = some '0' → digits = ['0']) :
    magnitude? digits = value? 10 digits := by
  obtain ⟨d, ds, rfl⟩ := Scan.exists_cons_of_isDigits h
  by_cases hd : d = '0'
  · subst hd
    rw [hzero rfl]
    decide
  · unfold magnitude?
    split <;> simp_all

/-- The number before the mark is refused if it is malformed, and otherwise counted up to the
bound. -/
lemma exists_magnitude?_of_spells (h : Spells mark cs base digits) : ∃ body, cs = body ++ mark ∧
    (∀ c ∈ body.getLast?, c ≠ 'u' ∧ c ≠ 'U') ∧ (IsMalformed base digits ∧ magnitude? body = none ∨
      ¬ IsMalformed base digits ∧ ∃ k, magnitude? body = some k ∧ Saturates (positional base digits) k) := by
  have hlast {ds : List Char} (hds : ∀ d ∈ ds, Scan.isHexDigit d = true) : ∀ c ∈ ds.getLast?, c ≠ 'u' ∧ c ≠ 'U' :=
    fun c hc => ne_u_of_isHexDigit (hds c (List.mem_of_getLast? hc))
  have hhex {ds : List Char} (hds : Scan.isDigits ds = true) : ∀ d ∈ ds, Scan.isHexDigit d = true :=
    fun d hd => by
    simp [Scan.isHexDigit, List.all_eq_true.mp (Scan.all_of_isDigits hds) d hd]
  cases h with
  | @hexadecimal x _ hx h =>
    rw [List.all_eq_true] at h
    refine ⟨'0' :: x :: digits, rfl, ?_, ?_⟩
    · cases digits with
      | nil => obtain rfl | rfl := hx <;> simp
      | cons d ds => simpa using hlast h
    have hmagnitude : magnitude? ('0' :: x :: digits) = if digits.isEmpty then none else value? 16 digits := by
      obtain rfl | rfl := hx <;> rfl
    rw [hmagnitude]
    cases digits with
    | nil => exact .inl ⟨.inl ⟨rfl, rfl⟩, rfl⟩
    | cons d ds =>
      exact .inr ⟨by simp [IsMalformed], value?_of_digits (by decide) fun d hd => digit?_of_isHexDigit (h d hd)⟩
  | octal h =>
    refine ⟨'0' :: digits, rfl, ?_, ?_⟩
    · obtain ⟨d, ds, rfl⟩ := Scan.exists_cons_of_isDigits h
      simpa using hlast (hhex h)
    have hdigit : ∀ d ∈ digits, digit? 8 d = if d = '8' ∨ d = '9' then none else some (digitValue d) :=
      fun d hd => (digit?_of_isDigit (List.all_eq_true.mp (Scan.all_of_isDigits h) d hd)).2
    rw [magnitude?_octal h]
    by_cases hbad : '8' ∈ digits ∨ '9' ∈ digits
    · refine .inl ⟨.inr ⟨rfl, hbad⟩, value?_eq_none ?_⟩
      obtain hbad | hbad := hbad <;> exact ⟨_, hbad, by rw [hdigit _ hbad]; rfl⟩
    · refine .inr ⟨by simpa [IsMalformed] using hbad, value?_of_digits (by decide) fun d hd => ?_⟩
      rw [hdigit d hd, if_neg]
      rintro (rfl | rfl)
      · exact hbad (.inl hd)
      · exact hbad (.inr hd)
  | decimal h hzero =>
    refine ⟨digits, rfl, hlast (hhex h), .inr ⟨by simp [IsMalformed], ?_⟩⟩
    rw [magnitude?_decimal h hzero]
    exact value?_of_digits (by decide) fun d hd =>
      (digit?_of_isDigit (List.all_eq_true.mp (Scan.all_of_isDigits h) d hd)).1

/-- A numeral that is well formed and below the bound is the number of its digits, and any other is
refused. -/
lemma integer?_of_spells (hmark : IsMark mark) (h : Spells mark cs base digits) :
    (IsMalformed base digits ∨ bound ≤ positional base digits) ∧ integer? cs = none ∨
      ¬ (IsMalformed base digits ∨ bound ≤ positional base digits) ∧
      integer? cs = some (positional base digits, !mark.isEmpty) := by
  obtain ⟨body, rfl, hlast, hmagnitude⟩ := exists_magnitude?_of_spells h
  have hinteger : integer? (body ++ mark) = (magnitude? body).bind fun n =>
    if n < bound then some (n, !mark.isEmpty) else none := by
    unfold integer?
    rw [dropEnding_append hmark hlast]
  rw [hinteger]
  obtain ⟨hbad, hnone⟩ | ⟨hgood, k, hk, hsaturates⟩ := hmagnitude
  · exact .inl ⟨.inl hbad, by rw [hnone]; rfl⟩
  rw [hk, Option.bind_some]
  obtain rfl | ⟨hcounted, hnumber⟩ := hsaturates
  · by_cases hbound : positional base digits < bound
    · exact .inr ⟨by simpa [hgood] using hbound, by rw [if_pos hbound]⟩
    · exact .inl ⟨.inr (Nat.le_of_not_lt hbound), by rw [if_neg hbound]⟩
  · exact .inl ⟨.inr hnumber, by rw [if_neg (Nat.not_lt.mpr hcounted)]⟩

/-! ### Numbers as they are written -/

lemma digitValue_digitChar {n : Nat} (h : n < 10) : digitValue n.digitChar = n := by
  interval_cases n <;> decide

lemma positional_toDigits (n : Nat) : positional 10 (Nat.toDigits 10 n) = n := by
  induction n using Nat.strong_induction_on with
  | _ n ih =>
    by_cases hn : n < 10
    · rw [Nat.toDigits_of_lt_base hn]
      simp [positional, digitValue_digitChar hn]
    · rw [Nat.toDigits_of_base_le (by decide) (by omega)]
      have hrest := ih (n / 10) (by omega)
      unfold positional at hrest ⊢
      rw [List.map_append, List.reverse_append, List.map_singleton, List.reverse_singleton, List.singleton_append,
        Nat.ofDigits_cons, hrest, digitValue_digitChar (Nat.mod_lt n (by decide))]
      omega

lemma eq_of_head?_toDigits (n : Nat) (h : (Nat.toDigits 10 n).head? = some '0') : Nat.toDigits 10 n = ['0'] := by
  induction n using Nat.strong_induction_on with
  | _ n ih =>
    by_cases hn : n < 10
    · rw [Nat.toDigits_of_lt_base hn] at h ⊢
      rw [Option.some.inj h]
    · rw [Nat.toDigits_of_base_le (by decide) (by omega)] at h
      have hne : Nat.toDigits 10 (n / 10) ≠ [] := by simp
      rw [List.head?_append_of_ne_nil _ hne] at h
      have hzero := congrArg (positional 10) (ih (n / 10) (by omega) h)
      rw [positional_toDigits] at hzero
      have : positional 10 ['0'] = 0 := by decide
      omega

lemma integer?_toString {n : Nat} (hn : n < bound) (hmark : IsMark mark) :
    integer? ((toString n).toList ++ mark) = some (n, !mark.isEmpty) := by
  have hlist : (toString n).toList = Nat.toDigits 10 n := Nat.toList_repr
  have hspells : Spells mark ((toString n).toList ++ mark) 10 (toString n).toList := by
    refine .decimal (Number.isDigits_toString n) fun h => ?_
    rw [hlist] at h ⊢
    exact eq_of_head?_toDigits n h
  have hvalue : positional 10 (toString n).toList = n := by rw [hlist, positional_toDigits]
  obtain ⟨h, -⟩ | ⟨-, h⟩ := integer?_of_spells hmark hspells
  · rw [hvalue] at h
    obtain h | h := h
    · simp [IsMalformed] at h
    · omega
  · rw [h, hvalue]

end Numeral
end Shading
