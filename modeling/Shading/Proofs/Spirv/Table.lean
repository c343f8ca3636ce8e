import Mathlib
import Shading.Proofs.Check.Journal
import Shading.Spirv.Module

/-! The table of the instructions that are written once. Templates are found by numbers that tell
them apart, and what the table holds has been written. -/
namespace Shading.Spirv

/-! ### Numbers tell templates apart -/

/-- The operation with a number. -/
def Op.ofCode? (code : UInt32) : Option Op :=
  match code.toNat with
  | 5 =>
    some .name | 6 => some .memberName | 10 => some .extension | 11 => some .extInstImport | 12 => some .extInst
  | 14 => some .memoryModel | 15 => some .entryPoint | 16 => some .executionMode | 17 => some .capability
  | 19 =>
    some .typeVoid | 20 => some .typeBool | 21 => some .typeInt | 22 => some .typeFloat | 23 => some .typeVector
  | 24 => some .typeMatrix | 28 => some .typeArray | 29 => some .typeRuntimeArray | 30 => some .typeStruct
  | 32 => some .typePointer | 33 => some .typeFunction | 41 => some .constantTrue | 42 => some .constantFalse
  | 43 => some .constant | 44 => some .constantComposite | 54 => some .function | 55 => some .functionParameter
  | 56 =>
    some .functionEnd | 57 => some .functionCall | 59 => some .variable_ | 61 => some .load | 62 => some .store
  | 65 => some .accessChain | 71 => some .decorate | 72 => some .memberDecorate | 77 => some .vectorExtractDynamic
  | 79 => some .vectorShuffle | 80 => some .compositeConstruct | 81 => some .compositeExtract
  | 82 => some .compositeInsert | 109 => some .convertFToU | 110 => some .convertFToS | 111 => some .convertSToF
  | 112 =>
    some .convertUToF | 124 => some .bitcast | 126 => some .sNegate | 127 => some .fNegate | 128 => some .iAdd
  | 129 => some .fAdd | 130 => some .iSub | 131 => some .fSub | 132 => some .iMul | 133 => some .fMul
  | 134 => some .uDiv | 135 => some .sDiv | 136 => some .fDiv | 137 => some .uMod | 139 => some .sMod
  | 141 => some .fMod | 142 => some .vectorTimesScalar | 143 => some .matrixTimesScalar
  | 144 => some .vectorTimesMatrix | 145 => some .matrixTimesVector | 146 => some .matrixTimesMatrix
  | 148 =>
    some .dot | 154 => some .any | 155 => some .all | 164 => some .logicalEqual | 165 => some .logicalNotEqual
  | 166 => some .logicalOr | 167 => some .logicalAnd | 168 => some .logicalNot | 169 => some .select
  | 170 => some .iEqual | 171 => some .iNotEqual | 172 => some .uGreaterThan | 173 => some .sGreaterThan
  | 174 =>
    some .uGreaterThanEqual | 175 => some .sGreaterThanEqual | 176 => some .uLessThan | 177 => some .sLessThan
  | 178 =>
    some .uLessThanEqual | 179 => some .sLessThanEqual | 180 => some .fOrdEqual | 183 => some .fUnordNotEqual
  | 184 => some .fOrdLessThan | 186 => some .fOrdGreaterThan | 188 => some .fOrdLessThanEqual
  | 190 => some .fOrdGreaterThanEqual | 194 => some .shiftRightLogical | 195 => some .shiftRightArithmetic
  | 196 => some .shiftLeftLogical | 197 => some .bitwiseOr | 198 => some .bitwiseXor | 199 => some .bitwiseAnd
  | 200 =>
    some .not | 245 => some .phi | 246 => some .loopMerge | 247 => some .selectionMerge | 248 => some .label
  | 249 => some .branch | 250 => some .branchConditional | 251 => some .switch | 252 => some .kill
  | 253 => some .return_ | 254 => some .returnValue | 255 => some .unreachable
  | _ => none

lemma Op.ofCode?_code (op : Op) : ofCode? op.code = some op := by
  cases op <;> rfl

lemma Op.code_injective : Function.Injective Op.code := by
  intro a b h
  have hsame := congrArg ofCode? h
  rw [ofCode?_code, ofCode?_code] at hsame
  exact Option.some.inj hsame

lemma Operand.key_append_injective {a b : Operand} {ks ls : List Nat}
    (h : a.key ++ ks = b.key ++ ls) : a = b ∧ ks = ls := by
  cases a <;> cases b <;> simp_all [Operand.key, UInt32.toNat_inj]

lemma Operand.keys_injective {as bs : List Operand}
    (h : as.flatMap Operand.key = bs.flatMap Operand.key) : as = bs := by
  induction as generalizing bs with
  | nil =>
    cases bs with
    | nil => rfl
    | cons b bs => cases b <;> simp [Operand.key] at h
  | cons a as ih =>
    cases bs with
    | nil => cases a <;> simp [Operand.key] at h
    | cons b bs =>
      rw [List.flatMap_cons, List.flatMap_cons] at h
      obtain ⟨rfl, hrest⟩ := Operand.key_append_injective h
      rw [ih hrest]

lemma Sharing.key_append_injective {a b : Sharing} {ks ls : List Nat}
    (h : a.key ++ ks = b.key ++ ls) : a = b ∧ ks = ls := by
  cases a <;> cases b <;> simp_all [Sharing.key]

lemma Template.key_injective : Function.Injective Template.key := by
  rintro ⟨op, type, operands, sharing⟩ ⟨op', type', operands', sharing'⟩ h
  simp only [Template.key, List.cons.injEq] at h
  obtain ⟨hop, htype, hrest⟩ := h
  obtain rfl : op = op' := Op.code_injective (UInt32.toNat_inj.mp hop)
  obtain ⟨rfl, hoperands⟩ := Sharing.key_append_injective hrest
  obtain rfl := Operand.keys_injective hoperands
  have hsame : type = type' := by
    cases type <;> cases type' <;> simp_all
  rw [hsame]

variable {t : Template}

lemma Template.compareOn_key_eq_iff {u : Template} : compareOn Template.key t u = .eq ↔ t = u := by
  unfold compareOn
  rw [Std.LawfulEqCmp.compare_eq_iff_eq]
  exact ⟨fun h => Template.key_injective h, congrArg _⟩

lemma getElem?_insert_template {ids : Std.TreeMap Template Nat (compareOn Template.key)}
    {u : Template} {id : Nat} :
    (ids.insert t id)[u]? = if t = u then some id else ids[u]? := by
  rw [Std.TreeMap.getElem?_insert]
  by_cases h : t = u
  · rw [if_pos (Template.compareOn_key_eq_iff.mpr h), if_pos h]
  · rw [if_neg (fun heq => h (Template.compareOn_key_eq_iff.mp heq)), if_neg h]

/-! ### What has been written -/

/-- The ids that instructions define. -/
def results (is : List Instruction) : List Nat := is.filterMap (·.result)

@[simp] lemma results_nil : results [] = [] := rfl

@[simp] lemma results_append (is js : List Instruction) : results (is ++ js) = results is ++ results js :=
  List.filterMap_append

@[simp] lemma results_cons (i : Instruction) (is : List Instruction) :
    results (i :: is) = i.result.toList ++ results is := by
  unfold results
  cases h : i.result with
  | none => rw [List.filterMap_cons_none h]; rfl
  | some x => rw [List.filterMap_cons_some h]; rfl

lemma mem_results {x : Nat} {is : List Instruction} : x ∈ results is ↔
    ∃ i ∈ is, i.result = some x := List.mem_filterMap

lemma eq_of_result {is : List Instruction} {x : Nat} {i j : Instruction}
    (hnodup : (results is).Nodup) (hi : i ∈ is) (hj : j ∈ is)
    (hx : i.result = some x) (hx' : j.result = some x) : i = j := by
  induction is with
  | nil => cases hi
  | cons k is ih =>
    rw [results_cons] at hnodup
    have hnot {m : Instruction} (hm : m ∈ is) (hmx : m.result = some x) : k.result ≠ some x := by
      intro hk
      rw [hk] at hnodup
      exact (List.nodup_cons.mp hnodup).1 (mem_results.mpr ⟨m, hm, hmx⟩)
    obtain rfl | hi' := List.mem_cons.mp hi <;> obtain rfl | hj' := List.mem_cons.mp hj
    · rfl
    · exact absurd hx (hnot hj' hx')
    · exact absurd hx' (hnot hi' hx)
    · exact ih hnodup.of_append_right hi' hj'

namespace Builder

/-- The tables hold what has been written. -/
structure Tabled (b : Builder) : Prop where
  shared : ∀ {t : Template} {id : Nat}, b.ids[t]? = some id → t.sharing ≠ .noResult → b.templates[id]? = some t
  written : ∀ {id : Nat} {t : Template}, b.templates[id]? = some t → t.sharing ≠ .noResult ∧
    t.instruction id ∈ b.globals
  range : ∀ x ∈ results b.globals, x < b.next

/-- The tables go on as those of another state, as long as these hold what has been written. -/
structure Keeps (b b' : Builder) : Prop where
  ids : ∀ {t : Template} {id : Nat}, b.ids[t]? = some id → b'.ids[t]? = some id
  templates : Tabled b → ∀ {id : Nat} {t : Template}, b.templates[id]? = some t → b'.templates[id]? = some t
  tabled : Tabled b → Tabled b'

lemma Tabled.lt {b : Builder} {id : Nat} (h : Tabled b) (ht : b.templates[id]? = some t) : id < b.next := by
  obtain ⟨hresult, hmem⟩ := h.written ht
  exact h.range id (mem_results.mpr ⟨_, hmem, if_neg hresult⟩)

namespace Keeps

variable {b b' b'' : Builder}

lemma refl (b : Builder) : Keeps b b := ⟨id, fun _ => id, id⟩

lemma trans (h : Keeps b b') (h' : Keeps b' b'') : Keeps b b'' :=
  ⟨fun ht => h'.ids (h.ids ht), fun hb _ _ ht => h'.templates (h.tabled hb) (h.templates hb ht),
    fun hb => h'.tabled (h.tabled hb)⟩

/-- Only the list of the types and constants grows, by instructions with new ids. -/
lemma grow (is : List Instruction) (hids : b'.ids = b.ids) (htemplates : b'.templates = b.templates)
    (hglobals : b'.globals = is ++ b.globals) (hnext : b.next ≤ b'.next)
    (hnew : ∀ x ∈ results is, x < b'.next) : Keeps b b' := by
  refine ⟨fun ht => by rw [hids]; exact ht, fun _ _ _ ht => by rw [htemplates]; exact ht, fun hb => ⟨?_, ?_, ?_⟩⟩
  · rw [hids, htemplates]
    exact hb.shared
  · rw [htemplates, hglobals]
    exact fun ht => (hb.written ht).imp_right (List.mem_append_right _)
  · intro x hx
    rw [hglobals, results_append, List.mem_append] at hx
    exact hx.elim (hnew x) fun hx => Nat.lt_of_lt_of_le (hb.range x hx) hnext

lemma of_eq (hids : b'.ids = b.ids) (htemplates : b'.templates = b.templates) (hglobals : b'.globals = b.globals)
    (hnext : b.next ≤ b'.next) : Keeps b b' :=
  grow [] hids htemplates hglobals hnext (by simp)

lemma rememberNote {names decorations : List Instruction} (hnew : b.ids[t]? = none) (ht : t.sharing = .noResult) :
    Keeps b { b with ids := b.ids.insert t 0, names, decorations } := by
  refine ⟨fun {u id} hu => ?_, fun _ _ _ hu => hu, fun hb => ⟨fun {u id} hu hresult => ?_, hb.written, hb.range⟩⟩
  · refine getElem?_insert_template.trans ((if_neg ?_).trans hu)
    rintro rfl
    cases hnew.symm.trans hu
  · refine hb.shared ?_ hresult
    rw [← hu]
    refine (getElem?_insert_template.trans (if_neg ?_)).symm
    rintro rfl
    exact hresult ht

/-- A template is written under a new id and remembered; it is only shared if no equal one is
there. -/
lemma remember {ids : Std.TreeMap Template Nat (compareOn Template.key)}
    (hids : ids = b.ids ∨ ids = b.ids.insert t b.next)
    (hnew : b.ids[t]? = none) (ht : t.sharing ≠ .noResult) :
    Keeps b { b with
      next := b.next + 1
      globals := t.instruction b.next :: b.globals
      ids := ids
      templates := b.templates.insert b.next t } := by
  have hself : (b.templates.insert b.next t)[b.next]? = some t := Std.TreeMap.getElem?_insert_self
  have hother (hb : Tabled b) {id : Nat} {u : Template} (hu : b.templates[id]? = some u) :
      (b.templates.insert b.next t)[id]? = some u := by
    rw [Std.TreeMap.getElem?_insert, if_neg, hu]
    simpa using Nat.ne_of_gt (hb.lt hu)
  have hlookup {u : Template} {id : Nat} (hu : ids[u]? = some id) : (u = t ∧ id = b.next) ∨
    b.ids[u]? = some id := by
    obtain rfl | rfl := hids
    · exact .inr hu
    · rw [getElem?_insert_template] at hu
      split at hu
      · cases hu
        exact .inl ⟨Eq.symm ‹_›, rfl⟩
      · exact .inr hu
  refine ⟨fun {u id} hu => ?_, fun hb _ _ hu => hother hb hu, fun hb =>
    ⟨fun {u id} hu hresult => ?_, fun {id u} hu => ?_, ?_⟩⟩
  · obtain rfl | rfl := hids
    · exact hu
    · refine getElem?_insert_template.trans ((if_neg ?_).trans hu)
      rintro rfl
      cases hnew.symm.trans hu
  · obtain ⟨rfl, rfl⟩ | hu := hlookup hu
    · exact hself
    · exact hother hb (hb.shared hu hresult)
  · change (b.templates.insert b.next t)[id]? = some u at hu
    rw [Std.TreeMap.getElem?_insert] at hu
    split at hu
    · cases hu
      obtain rfl : b.next = id := Std.LawfulEqCmp.eq_of_compare ‹_›
      exact ⟨ht, List.mem_cons_self⟩
    · exact (hb.written hu).imp_right (List.mem_cons_of_mem _)
  · intro x hx
    have hresult : (t.instruction b.next).result = some b.next := if_neg ht
    rw [results_cons, hresult] at hx
    obtain rfl | hx := List.mem_cons.mp hx
    · exact Nat.lt_succ_self _
    · exact Nat.lt_succ_of_lt (hb.range x hx)

end Keeps
end Builder

namespace Build

lemma remember_eq (id : Nat) (s : Setting) (b : Builder) : (remember t id s b).2 = match t.sharing with
    | .noResult => { b with ids := b.ids.insert t id }
    | .unique => { b with templates := b.templates.insert id t }
    | .shared | .keyed _ => { b with ids := b.ids.insert t id, templates := b.templates.insert id t } := rfl

lemma write_eq (ht : t.sharing ≠ .noResult) (s : Setting) (b : Builder) : write .globals t s b =
    (b.next, { b with
      next := b.next + 1
      globals := t.instruction b.next :: b.globals
      ids := if t.sharing = .unique then b.ids else b.ids.insert t b.next
      templates := b.templates.insert b.next t }) := by
  unfold write
  rw [if_neg ht]
  change (b.next, (remember t b.next s
    { b with next := b.next + 1, globals := t.instruction b.next :: b.globals }).2) = _
  rw [remember_eq]
  cases hsharing : t.sharing with
  | noResult => exact absurd hsharing ht
  | unique => rfl
  | shared => rfl
  | keyed key => rfl

lemma write_note {part : Section} (ht : t.sharing = .noResult) (s : Setting) (b : Builder) : write part t s b =
    (0, { (append part (t.instruction 0) s b).2 with ids := (append part (t.instruction 0) s b).2.ids.insert t 0 })
    := by
  unfold write
  rw [if_pos ht]
  change (0, (remember t 0 s (append part (t.instruction 0) s b).2).2) = _
  rw [remember_eq, ht]

lemma once_eq (part : Section) (t : Template) (s : Setting) (b : Builder) : once part t s b = match b.ids[t]? with
    | some id => (id, { b with journal := .instructionShared id :: b.journal })
    | none => write part t s b := by
  change (match b.ids[t]? with
    | some id => do
      note (.instructionShared id)
      return id
    | none => write part t : Build Nat) s b = _
  cases b.ids[t]? <;> rfl

lemma global_template {s : Setting} {b : Builder} (hb : b.Tabled) (ht : t.sharing ≠ .noResult) :
    (global t s b).2.templates[(global t s b).1]? = some t := by
  rw [global, once_eq]
  cases hfound : b.ids[t]? with
  | some id => exact hb.shared hfound ht
  | none =>
    rw [write_eq ht]
    exact Std.TreeMap.getElem?_insert_self

end Build
end Shading.Spirv
