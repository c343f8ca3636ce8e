import Mathlib
import Shading.Location

/-! The table of lines is exact. The lines that start at or before an offset are one more than the
line breaks that end there, the last of them starts after the last such break, and columns count the
characters since then. -/
namespace Shading

/-! ### Bytes -/

@[simp] lemma byteSize_nil : byteSize [] = 0 := rfl

@[simp] lemma byteSize_cons (c : Char) (text : List Char) :
    byteSize (c :: text) = c.utf8Size + byteSize text := rfl

@[simp] lemma byteSize_append (front back : List Char) :
    byteSize (front ++ back) = byteSize front + byteSize back := by
  induction front with
  | nil => simp
  | cons c front ih => simp [ih, Nat.add_assoc]

lemma byteSize_pos {text : List Char} (h : text ≠ []) : 0 < byteSize text := by
  cases text with
  | nil => exact absurd rfl h
  | cons c text =>
    have := c.utf8Size_pos
    rw [byteSize_cons]
    omega

lemma splitBytes?_append (front back : List Char) :
    splitBytes? (byteSize front) (front ++ back) = some (front, back) := by
  induction front with
  | nil => rw [byteSize_nil, splitBytes?, List.nil_append]
  | cons c front ih =>
    obtain ⟨n, hn⟩ : ∃ n, byteSize (c :: front) = n + 1 := Nat.exists_eq_add_one.mpr (byteSize_pos nofun)
    have hrest : n + 1 - c.utf8Size = byteSize front := by rw [← hn, byteSize_cons]; omega
    have hfits : ¬ n + 1 < c.utf8Size := by rw [← hn, byteSize_cons]; omega
    rw [hn, List.cons_append, splitBytes?, if_neg hfits, hrest, ih]
    rfl

lemma exists_between {a b a' b' : List Char} (h : a ++ b = a' ++ b')
    (hle : byteSize a ≤ byteSize a') : ∃ line, a' = a ++ line := by
  obtain ⟨line, ha', -⟩ | ⟨line, ha, -⟩ := List.append_eq_append_iff.mp h
  · exact ⟨line, ha'⟩
  · cases line with
    | nil => exact ⟨[], by simpa using ha.symm⟩
    | cons c line =>
      have hpos := byteSize_pos (List.cons_ne_nil c line)
      rw [ha, byteSize_append] at hle
      omega

/-! ### Search -/

section Search

variable {entries : Array Nat} {bound lo hi : Nat}

lemma getD_mono (hsorted : entries.toList.Pairwise (· < ·)) {i j : Nat} (hij : i ≤ j) (hj : j < entries.size) :
    entries.getD i 0 ≤ entries.getD j 0 := by
  obtain rfl | hlt := hij.eq_or_lt
  · exact le_rfl
  · have hget := List.pairwise_iff_getElem.mp hsorted i j (by simpa using hlt.trans hj) (by simpa using hj) hlt
    simpa [Array.getD, hj, hlt.trans hj] using hget.le

/-- What halving keeps: entries before the range are within the bound, those after it are above
it. -/
lemma upperBound_spec (hsorted : entries.toList.Pairwise (· < ·)) (hle : lo ≤ hi) (hhi : hi ≤ entries.size)
    (hlow : ∀ i < lo, entries.getD i 0 ≤ bound)
    (hhigh : ∀ i, hi ≤ i → i < entries.size → bound < entries.getD i 0) :
    upperBound entries bound lo hi ≤ entries.size ∧
    (∀ i < upperBound entries bound lo hi, entries.getD i 0 ≤ bound) ∧
      ∀ i, upperBound entries bound lo hi ≤ i → i < entries.size → bound < entries.getD i 0 := by
  fun_induction upperBound entries bound lo hi with
  | case1 lo hi h mid hmid ih =>
    have hrange : mid < hi := by omega
    exact ih hrange hhi (fun i hi' => (getD_mono hsorted (Nat.le_of_lt_succ hi')
      (hrange.trans_le hhi)).trans hmid) hhigh
  | case2 lo hi h mid hmid ih =>
    have hrange : mid < hi := by omega
    refine ih (by omega) (by omega) hlow fun i hi' hsize => ?_
    exact (Nat.lt_of_not_le hmid).trans_le (getD_mono hsorted hi' hsize)
  | case3 lo hi h =>
    obtain rfl : lo = hi := by omega
    exact ⟨hhi, hlow, hhigh⟩

end Search

namespace Location

/-- Locations in the order of reading. -/
def Before (l l' : Location) : Prop := l.line < l'.line ∨ l.line = l'.line ∧ l.column < l'.column

lemma Before.irrefl (l : Location) : ¬ l.Before l := by
  unfold Before
  omega

end Location

namespace LineTable

/-! ### Line breaks -/

/-- A line break ends at the offset: a line feed, whatever stands before it, or a carriage return
without a line feed after it. -/
def EndsBreak (text : List Char) (offset : Nat) : Prop :=
  ∃ before after, offset = byteSize before + 1 ∧
    (text = before ++ '\n' :: after ∨ text = before ++ '\r' :: after ∧ after.head? ≠ some '\n')

lemma endsLine_iff {c : Char} {rest : List Char} : endsLine c rest = true ↔ c = '\n' ∨ c = '\r' ∧
    rest.head? ≠ some '\n' := by
  unfold endsLine
  split
  · simp
  · simp
  · rename_i hfeed hreturn
    simp only [Bool.false_eq_true, false_iff, not_or, not_and]
    exact ⟨hfeed, fun h => absurd h hreturn⟩

lemma endsBreak_cons {c : Char} {rest : List Char} {offset : Nat} :
    EndsBreak (c :: rest) offset ↔
      endsLine c rest = true ∧ offset = c.utf8Size ∨ ∃ k, EndsBreak rest k ∧ offset = c.utf8Size + k := by
  constructor
  · rintro ⟨before, after, rfl, h⟩
    cases before with
    | nil =>
      obtain h | ⟨h, hafter⟩ := h
      · obtain ⟨rfl, -⟩ := List.cons.inj h
        exact .inl ⟨rfl, rfl⟩
      · obtain ⟨rfl, rfl⟩ := List.cons.inj h
        exact .inl ⟨endsLine_iff.mpr (.inr ⟨rfl, hafter⟩), rfl⟩
    | cons c' before =>
      refine .inr ⟨byteSize before + 1, ⟨before, after, rfl, ?_⟩, ?_⟩
      · simp only [List.cons_append, List.cons.injEq] at h
        tauto
      · obtain h | ⟨h, -⟩ := h <;> (cases h; simp [Nat.add_assoc])
  · rintro (⟨h, rfl⟩ | ⟨k, ⟨before, after, rfl, h⟩, rfl⟩)
    · obtain rfl | ⟨rfl, hrest⟩ := endsLine_iff.mp h
      · exact ⟨[], rest, rfl, .inl rfl⟩
      · exact ⟨[], rest, rfl, .inr ⟨rfl, hrest⟩⟩
    · refine ⟨c :: before, after, by simp [Nat.add_assoc], ?_⟩
      simpa using h

lemma mem_startsFrom {offset e : Nat} {text : List Char} : e ∈ startsFrom offset text ↔
    ∃ k, EndsBreak text k ∧ e = offset + k := by
  induction text generalizing offset with
  | nil => simp [startsFrom, EndsBreak]
  | cons c rest ih =>
    simp only [startsFrom, endsBreak_cons]
    split
    · simp only [List.mem_cons, ih]
      grind
    · rw [ih]
      grind

lemma pairwise_startsFrom (offset : Nat) (text : List Char) :
    (offset :: startsFrom offset text).Pairwise (· < ·) := by
  induction text generalizing offset with
  | nil => simp [startsFrom]
  | cons c rest ih =>
    have hpos := c.utf8Size_pos
    have hrest := ih (offset + c.utf8Size)
    refine List.pairwise_cons.mpr ⟨fun e he => ?_, ?_⟩
    · obtain ⟨k, ⟨before, after, rfl, -⟩, rfl⟩ := mem_startsFrom.mp he
      omega
    · simp only [startsFrom]
      split
      · exact hrest
      · exact (List.pairwise_cons.mp hrest).2

/-- The offset stands between two characters of the text, or at one of its ends. -/
def IsBoundary (text : List Char) (offset : Nat) : Prop := ∃ before after, text = before ++ after ∧
    offset = byteSize before

lemma EndsBreak.isBoundary {text : List Char} {e : Nat} (h : EndsBreak text e) : IsBoundary text e := by
  obtain ⟨before, after, rfl, rfl | ⟨rfl, -⟩⟩ := h
  · exact ⟨before ++ ['\n'], after, by simp, by simp; rfl⟩
  · exact ⟨before ++ ['\r'], after, by simp, by simp; rfl⟩

/-! ### Lookup -/

section Lookup

variable (text : String) (offset : Nat)

lemma getD_starts {i : Nat} (hi : i < (0 :: startsFrom 0 text.toList).length) :
    (ofString text).starts.getD i 0 = (0 :: startsFrom 0 text.toList)[i] := by
  rw [Array.getD, dif_pos (show i < (ofString text).starts.size from hi)]
  rfl

lemma linesUpTo_spec : (ofString text).linesUpTo offset ≤ (ofString text).starts.size ∧
    (∀ i < (ofString text).linesUpTo offset, (ofString text).starts.getD i 0 ≤ offset) ∧
      ∀ i, (ofString text).linesUpTo offset ≤ i → i < (ofString text).starts.size →
      offset < (ofString text).starts.getD i 0 :=
  upperBound_spec (pairwise_startsFrom 0 text.toList) (Nat.zero_le _) (Nat.le_refl _) nofun
    fun _ h h' => absurd h' (by omega)

lemma linesUpTo_pos : 0 < (ofString text).linesUpTo offset := by
  by_contra h
  have hfirst := (linesUpTo_spec text offset).2.2 0 (by omega) (by simp [ofString])
  simp [ofString] at hfirst

/-- The lines that start at or before an offset are the first one and those that a line break ends
in front of. -/
lemma linesUpTo_eq : (ofString text).linesUpTo offset = 1 + {e | e ≤ offset ∧ EndsBreak text.toList e}.ncard := by
  obtain ⟨hsize, hlow, hhigh⟩ := linesUpTo_spec text offset
  generalize (ofString text).linesUpTo offset = n at hsize hlow hhigh
  have hsorted := pairwise_startsFrom 0 text.toList
  have hset : {e | e ≤ offset ∧ EndsBreak text.toList e} =
    ((startsFrom 0 text.toList).filter (· ≤ offset)).toFinset := by
    ext e
    simp [mem_startsFrom, and_comm]
  have hnodup : ((startsFrom 0 text.toList).filter (· ≤ offset)).Nodup :=
    ((List.pairwise_cons.mp hsorted).2.imp Nat.ne_of_lt).filter _
  rw [hset, Set.ncard_coe_finset, List.toFinset_card_of_nodup hnodup]
  have htake : ((0 :: startsFrom 0 text.toList).take n).filter (· ≤ offset) =
    (0 :: startsFrom 0 text.toList).take n := by
    refine List.filter_eq_self.mpr fun e he => ?_
    obtain ⟨i, hi, rfl⟩ := List.mem_take_iff_getElem.mp he
    exact decide_eq_true (getD_starts text (lt_min_iff.mp hi).2 ▸ hlow i (lt_min_iff.mp hi).1)
  have hdrop : ((0 :: startsFrom 0 text.toList).drop n).filter (· ≤ offset) = [] := by
    refine List.filter_eq_nil_iff.mpr fun e he => ?_
    obtain ⟨i, hi, rfl⟩ := List.mem_drop_iff_getElem.mp he
    have habove := hhigh (i + n) (Nat.le_add_left _ _) hi
    rw [getD_starts text hi] at habove
    simpa [Nat.add_comm] using habove
  calc n = ((0 :: startsFrom 0 text.toList).take n).length := (List.length_take_of_le hsize).symm
    _ = ((0 :: startsFrom 0 text.toList).filter (· ≤ offset)).length := by
      nth_rewrite 2 [← List.take_append_drop n (0 :: startsFrom 0 text.toList)]
      rw [List.filter_append, htake, hdrop, List.append_nil]
    _ = 1 + ((startsFrom 0 text.toList).filter (· ≤ offset)).length := by simp [Nat.add_comm]

/-- The start of the line of an offset: the last place up to the offset at which the text starts or
a line break ends. -/
structure IsLineStart (text : List Char) (offset start : Nat) : Prop where
  le : start ≤ offset
  starts : start = 0 ∨ EndsBreak text start
  last : ∀ e, start < e → e ≤ offset → ¬ EndsBreak text e

lemma isLineStart_getD :
    IsLineStart text.toList offset ((ofString text).starts.getD ((ofString text).linesUpTo offset - 1) 0) := by
  obtain ⟨hsize, hlow, hhigh⟩ := linesUpTo_spec text offset
  have hpos := linesUpTo_pos text offset
  generalize (ofString text).linesUpTo offset = n at hsize hlow hhigh hpos
  have hentry : (ofString text).starts.getD (n - 1) 0 ∈ 0 :: startsFrom 0 text.toList := by
    rw [getD_starts text (show n - 1 < (ofString text).starts.size by omega)]
    exact List.getElem_mem _
  refine ⟨hlow _ (by omega), ?_, fun e hlt hle hbreak => ?_⟩
  · obtain h | h := List.mem_cons.mp hentry
    · exact .inl h
    · obtain ⟨k, hk, heq⟩ := mem_startsFrom.mp h
      rw [heq, Nat.zero_add]
      exact .inr hk
  · have hmem : e ∈ 0 :: startsFrom 0 text.toList :=
      .tail _ (mem_startsFrom.mpr ⟨e, hbreak, (Nat.zero_add e).symm⟩)
    obtain ⟨j, hj, rfl⟩ := List.mem_iff_getElem.mp hmem
    rw [← getD_starts text hj] at hlt hle
    -- An entry up to the offset has one of the first `n` positions, and the start has the last of them.
    have hjn : j < n := by
      by_contra hn
      have := hhigh j (by omega) hj
      omega
    have hmono := getD_mono (pairwise_startsFrom 0 text.toList) (Nat.le_sub_one_of_lt hjn)
      (show n - 1 < (ofString text).starts.size by omega)
    exact Nat.not_lt.mpr hmono hlt

end Lookup

/-- The line and the column of an offset between two characters: the line breaks up to the offset,
and the characters since the start of its line, each counted from one. -/
structure IsAt (text : List Char) (offset : Nat) (l : Location) : Prop where
  line : l.line = 1 + {e | e ≤ offset ∧ EndsBreak text e}.ncard
  column : ∃ before line after, text = before ++ (line ++ after) ∧ offset = byteSize before + byteSize line ∧
    IsLineStart text offset (byteSize before) ∧ l.column = 1 + line.length

lemma isAt_location {text : String} {offset : Nat} (h : IsBoundary text.toList offset) :
    IsAt text.toList offset ((ofString text).location offset) := by
  obtain ⟨before, after, htext, rfl⟩ := h
  have hstart := isLineStart_getD text (byteSize before)
  have hmin : min (byteSize before) (byteSize (ofString text).text) = byteSize before := by
    change min _ (byteSize text.toList) = _
    rw [htext, byteSize_append]
    omega
  obtain ⟨front, back, hsplit, hfront⟩ : IsBoundary text.toList _ :=
    hstart.starts.elim (fun h => ⟨[], text.toList, rfl, h⟩) EndsBreak.isBoundary
  obtain ⟨line, rfl⟩ := exists_between (hsplit.symm.trans htext) (hfront ▸ hstart.le)
  rw [List.append_assoc] at htext
  have hfirst : splitBytes? (byteSize front) (ofString text).text = some (front, line ++ after) := by
    change splitBytes? _ text.toList = _
    rw [htext, splitBytes?_append]
  have hsecond : splitBytes? (byteSize (front ++ line) - byteSize front) (line ++ after) = some (line, after) := by
    rw [byteSize_append, Nat.add_sub_cancel_left, splitBytes?_append]
  have hlocation : (ofString text).location (byteSize (front ++ line)) =
      ⟨(ofString text).linesUpTo (byteSize (front ++ line)) - 1 + 1, line.length + 1⟩ := by
    unfold location
    dsimp only
    rw [hmin, hfront, hfirst]
    dsimp only [Option.bind_eq_bind, Option.bind_some]
    rw [hsecond, Option.elim_some]
  rw [hlocation]
  refine ⟨?_, front, line, after, htext, byteSize_append .., hfront ▸ hstart, Nat.add_comm ..⟩
  rw [← linesUpTo_eq]
  exact Nat.sub_add_cancel (linesUpTo_pos text _)

/-! ### Order -/

lemma IsLineStart.le_of_le {text : List Char} {o o' start start' : Nat}
    (h : IsLineStart text o start) (h' : IsLineStart text o' start')
    (hle : start ≤ o') : start ≤ start' := by
  obtain hzero | hbreak := h.starts
  · omega
  · exact Nat.le_of_not_lt fun hlt => h'.last start hlt hle hbreak

lemma IsAt.before {text : List Char} {o o' : Nat} {l l' : Location} (h : IsAt text o l)
    (h' : IsAt text o' l') (hlt : o < o') :
    l.Before l' := by
  obtain ⟨hline, front, line, back, htext, ho, hstart, hcolumn⟩ := h
  obtain ⟨hline', front', line', back', htext', ho', hstart', hcolumn'⟩ := h'
  by_cases hbreak : ∃ e, o < e ∧ e ≤ o' ∧ EndsBreak text e
  · obtain ⟨e, hoe, heo', he⟩ := hbreak
    have hmore : {e | e ≤ o ∧ EndsBreak text e} ⊂ {e | e ≤ o' ∧ EndsBreak text e} :=
      ⟨fun e he => ⟨he.1.trans hlt.le, he.2⟩, fun hsub => Nat.not_le.mpr hoe (hsub ⟨heo', he⟩).1⟩
    have := Set.ncard_lt_ncard hmore ((Set.finite_Iic o').subset fun _ h => h.1)
    exact .inl (by omega)
  · have hsame : {e | e ≤ o ∧ EndsBreak text e} = {e | e ≤ o' ∧ EndsBreak text e} := by
      refine Set.Subset.antisymm (fun e he => ⟨he.1.trans hlt.le, he.2⟩) fun e he => ⟨?_, he.2⟩
      exact Nat.le_of_not_lt fun hoe => hbreak ⟨e, hoe, he.1, he.2⟩
    -- No line break ends between the offsets, so that their lines start at the same place.
    have hle : byteSize front' ≤ o := by
      obtain hzero | hends := hstart'.starts
      · omega
      · exact Nat.le_of_not_lt fun hoe => hbreak ⟨_, hoe, hstart'.le, hends⟩
    have hsize : byteSize front = byteSize front' :=
      Nat.le_antisymm (hstart.le_of_le hstart' (hstart.le.trans hlt.le)) (hstart'.le_of_le hstart hle)
    obtain ⟨more, rfl⟩ := exists_between (htext.symm.trans htext') hsize.le
    obtain rfl : more = [] := by
      by_contra hne
      have := byteSize_pos hne
      rw [byteSize_append] at hsize
      omega
    rw [List.append_nil] at htext' ho'
    obtain ⟨more, rfl⟩ := exists_between (List.append_cancel_left (htext.symm.trans htext')) (by omega)
    have hmore : more ≠ [] := by
      rintro rfl
      rw [List.append_nil] at ho'
      omega
    have := List.length_pos_iff.mpr hmore
    rw [List.length_append] at hcolumn'
    exact .inr ⟨by rw [hline, hline', hsame], by omega⟩

/-- The table of lines is exact. At every place between two characters it counts the line breaks
before it and the characters since the last of them, so that locations and places determine each
other and have the same order. Past the end the location is that of the end, and no lookup leaves
the table. -/
theorem location_exact (text : String) :
    (∀ o, IsBoundary text.toList o → IsAt text.toList o ((ofString text).location o)) ∧
    (∀ o o', IsBoundary text.toList o → IsBoundary text.toList o' →
      (o < o' → ((ofString text).location o).Before ((ofString text).location o')) ∧
      ((ofString text).location o = (ofString text).location o' → o = o')) ∧
    (∀ o, byteSize text.toList ≤ o → (ofString text).location o =
      (ofString text).location (byteSize text.toList)) ∧
    ∀ o, 0 < (ofString text).linesUpTo o ∧ (ofString text).linesUpTo o - 1 < (ofString text).starts.size ∧
      (ofString text).starts.getD ((ofString text).linesUpTo o - 1) 0 ≤ o := by
  have hbefore {o o' : Nat} (h : IsBoundary text.toList o) (h' : IsBoundary text.toList o') (hlt : o < o') :=
    (isAt_location h).before (isAt_location h') hlt
  refine ⟨fun o h => isAt_location h, fun o o' h h' => ⟨hbefore h h', fun heq => ?_⟩, fun o h => ?_, fun o => ?_⟩
  · obtain hlt | rfl | hlt := Nat.lt_trichotomy o o'
    · exact absurd (heq ▸ hbefore h h' hlt) (Location.Before.irrefl _)
    · rfl
    · exact absurd (heq ▸ hbefore h' h hlt) (Location.Before.irrefl _)
  · unfold location
    have hend : min o (byteSize (ofString text).text) =
      min (byteSize text.toList) (byteSize (ofString text).text) := by
      change min o (byteSize text.toList) = min _ (byteSize text.toList)
      omega
    rw [hend]
  · have hpos := linesUpTo_pos text o
    have hsize := (linesUpTo_spec text o).1
    exact ⟨hpos, by omega, (isLineStart_getD text o).le⟩

/-- A line break of two characters is one line break: the letter after it is the first of the second
line. -/
theorem location_exact_two : IsBoundary "a\r\né".toList 3 ∧
    IsAt "a\r\né".toList 3 ((ofString "a\r\né").location 3) := by
  have h : IsBoundary "a\r\né".toList 3 := ⟨['a', '\r', '\n'], ['é'], by decide, by decide⟩
  exact ⟨h, (location_exact "a\r\né").1 3 h⟩

end LineTable
end Shading
