import Shading.Proofs.Spirv.SupplyModule

/-! Modules are in single-assignment form: every id is defined once, and what an instruction needs
has been defined before it. Labels and functions may be named before they are defined, labels only
inside of their function. -/
namespace Shading

namespace Spirv

namespace Instruction

/-- The labels that an instruction names. -/
def labels (i : Instruction) : List Nat := i.targets ++ i.announced ++ i.parents

/-- What is said of ids, wherever they are defined: names, decorations and the entry point. -/
def isAbout (i : Instruction) : Bool := i.op matches
    .name | .memberName | .decorate | .memberDecorate | .entryPoint | .executionMode

lemma mem_evens_or_odds {x : Nat} {xs : List Nat} (h : x ∈ xs) : x ∈ evens xs ∨ x ∈ odds xs := by
  fun_induction evens xs with
  | case1 a b rest ih =>
    simp only [List.mem_cons, odds] at h ⊢
    tauto
  | case2 => exact .inl h

/-- An id that an instruction names is a label, a function, or something that it needs. -/
lemma mem_ids {i : Instruction} {x : Nat} (h : x ∈ i.ids) : x ∈ i.needs ∨ x ∈ i.labels ∨ i.callee? = some x := by
  -- a condition or a selector comes first, and labels follow
  have hfirst (hop : i.op = .branchConditional ∨ i.op = .switch) : x ∈ i.needs ∨ x ∈ i.labels := by
    rw [← List.take_append_drop 1 i.ids, List.mem_append, List.drop_one] at h
    obtain hop | hop := hop <;> exact h.imp (fun h => by simp [needs, hop, h]) fun h =>
      by simp [labels, targets, hop, h]
  cases hop : i.op
  case branch => simp [labels, targets, hop, h]
  case selectionMerge => simp [labels, announced, isMerge, hop, h]
  case loopMerge => simp [labels, announced, isMerge, hop, h]
  case branchConditional => exact (hfirst (.inl hop)).imp_right .inl
  case switch => exact (hfirst (.inr hop)).imp_right .inl
  case phi =>
    exact (mem_evens_or_odds h).imp (fun h => by simp [needs, hop, h])
      fun h => .inl (by simp [labels, parents, hop, h])
  case functionCall =>
    obtain ⟨callee, rest, hids⟩ := List.exists_cons_of_ne_nil (List.ne_nil_of_mem h)
    obtain rfl | hx := List.mem_cons.mp (hids ▸ h)
    · simp [callee?, hop, hids]
    · exact .inl (by simp [needs, hop, hids, hx])
  all_goals exact .inl (by simp [needs, hop, h])

lemma labels_of_isProlog {i : Instruction} (h : i.isProlog = true) : i.labels = [] := by
  cases hop : i.op <;> simp_all [isProlog, isDeclaration, isNote, labels, targets, announced, parents, isMerge]

lemma callee?_of_isProlog {i : Instruction} (h : i.isProlog = true) : i.callee? = none := by
  refine callee?_eq_none fun hop => ?_
  simp [isProlog, isDeclaration, isNote, hop] at h

end Instruction

namespace FunctionText

variable {id entry : Nat} {t : FunctionText}

/-- The labels that the instructions of a function name are those of its blocks. -/
lemma WellFormed.mem_opened (h : t.WellFormed id entry) {i : Instruction} (hi : i ∈ t.instructions)
    {l : Nat} (hl : l ∈ i.labels) :
    l ∈ opened t.instructions := by
  have hentry : entry ∈ opened t.instructions := by
    obtain ⟨parameters, start, hheader, -⟩ := h.header
    refine List.mem_filterMap.mpr ⟨labelled entry, ?_, rfl⟩
    simp [instructions, hheader]
  have hcode {l : Nat} (hl : l ∈ opened t.code) : l ∈ opened t.instructions := by
    obtain ⟨i, hi, hopened⟩ := List.mem_filterMap.mp hl
    exact List.mem_filterMap.mpr ⟨i, t.code_subset_instructions hi, hopened⟩
  obtain rfl | hi := List.mem_cons.mp hi
  · cases hl
  obtain hi | hi := List.mem_append.mp hi
  · obtain hl | hl := List.mem_append.mp hl
    · refine hcode (h.code.named l ((List.mem_append.mp hl).imp (fun hl => ?_) fun hl => ?_))
      · exact List.mem_flatMap.mpr ⟨i, hi, hl⟩
      · exact List.mem_flatMap.mpr ⟨i, hi, hl⟩
    · obtain rfl | hl := h.code.parents l (List.mem_flatMap.mpr ⟨i, hi, hl⟩)
      · exact hentry
      · exact hcode hl
  · obtain hop | hop | hop | hop := h.op_of_mem hi <;>
      simp [Instruction.labels, Instruction.targets, Instruction.announced, Instruction.parents,
        Instruction.isMerge, hop] at hl

lemma WellFormed.exists_function (h : t.WellFormed id entry) : ∃ i ∈ t.instructions,
    i.op = .function ∧ i.result = some id := by
  obtain ⟨parameters, start, hheader, hop, hresult, -⟩ := h.header
  exact ⟨start, by simp [instructions, hheader], hop, hresult⟩

end FunctionText

namespace Builder

variable {b : Builder} {p : Program} {x : Nat}

lemma results_preamble (b : Builder) (p : Program) : Spirv.results (b.preamble p) = [b.mathSet] := by
  have hcapabilities : Spirv.results (b.capabilities p.kind) = [] := by
    unfold capabilities
    cases b.readsInputAttachments <;> cases p.kind <;> rfl
  have hextensions : Spirv.results b.extensions = [] := by
    unfold extensions
    split <;> rfl
  have hentry : Spirv.results (b.entryPoint p) = [] := by
    unfold entryPoint
    split
    · simp [Spirv.results, List.filterMap_map]
    · rfl
  simp [preamble, hcapabilities, hextensions, hentry]

lemma results_eq_nil {is : List Instruction} (h : ∀ i ∈ is, i.isNote = true) : Spirv.results is = [] :=
  List.filterMap_eq_nil_iff.mpr fun i hi => Instruction.result_of_isNote (h i hi)

/-- The instructions before those of types, constants and global variables. -/
def opening (b : Builder) (p : Program) : List Instruction :=
    b.preamble p ++ b.names.reverse ++ b.decorations.reverse

lemma Complete.results_opening (h : Complete p b) : Spirv.results (b.opening p) = [b.mathSet] := by
  have hnotes := List.forall_mem_append.mp h.notes
  have hnames : Spirv.results b.names.reverse = [] := results_eq_nil fun i hi =>
    hnotes.1 i (List.mem_reverse.mp hi)
  have hdecorations : Spirv.results b.decorations.reverse = [] := results_eq_nil fun i hi =>
    hnotes.2 i (List.mem_reverse.mp hi)
  rw [opening, results_append, results_append, hnames, hdecorations, results_preamble,
    List.append_nil, List.append_nil]

lemma instructions_module (b : Builder) (s : Setting) :
    (b.module s).instructions = b.opening s.program ++ (b.functions ++ b.globals).reverse := by
  simp [module, opening]

lemma Complete.results_module {s : Setting} (h : Complete s.program b) :
    (Spirv.results (b.module s).instructions).Nodup ∧ ∀ x ∈ Spirv.results (b.module s).instructions,
    b.IsTaken x := by
  have hperm : (Spirv.results (b.module s).instructions).Perm
    (b.mathSet :: (Spirv.results b.globals ++ Spirv.results b.functions)) := by
    rw [instructions_module, results_append, h.results_opening, results_reverse, results_append,
      List.singleton_append]
    exact ((List.reverse_perm _).trans List.perm_append_comm).cons _
  have hsub : (b.mathSet :: (Spirv.results b.globals ++ Spirv.results b.functions)).Sublist
    ([b.mathSet] ++ b.results) := by
    rw [results, results_append, results_append, ← List.append_assoc (Spirv.results b.globals)]
    exact (List.sublist_append_left _ _).cons_cons _
  refine ⟨hperm.nodup_iff.mpr (h.distinct.nodup.sublist hsub), fun x hx => ?_⟩
  exact h.distinct.range x (hsub.subset (hperm.mem_iff.mp hx))

lemma functions_suffix_text (b : Builder) : b.functions <:+ b.text :=
  ⟨b.body.code ++ (b.body.locals ++ b.body.header), by simp [text]⟩

namespace Ordered

variable {d : Declared} {i : Instruction} (h : b.Ordered d)
include h

/-- Types, constants, global variables and functions need only what stands before them, and the
extended instruction set. -/
lemma follows : Follows (· = b.mathSet) (b.functions ++ b.globals) := by
  obtain ⟨newer, hnewer⟩ := b.functions_suffix_text
  have hfunctions := (Follows.append_iff.mp (hnewer.symm ▸ h.text)).2
  exact Follows.append_iff.mpr ⟨hfunctions.mono fun x hx => hx.symm, h.globals.mono fun _ hx => hx.elim⟩

lemma entryPoint (hi : i ∈ b.entryPoint p) : i.isAbout = true ∧ ∀ x ∈ i.type.toList ++ i.ids, b.IsTaken x := by
  unfold Builder.entryPoint at hi
  split at hi
  · rename_i stage main _ hmain
    obtain ⟨f, -, hf⟩ := Option.bind_eq_some_iff.mp hmain
    have hmain : b.IsTaken main := h.functionIds main ⟨f, hf⟩
    obtain rfl | hi := List.mem_cons.mp hi
    · have hids : Instruction.ids
          { op := .entryPoint,
            operands := .number stage :: .id main :: textOperands "main" ++ Operand.ids b.interface.reverse } =
          main :: b.interface.reverse :=
        (Operand.used_append (.number stage :: .id main :: textOperands "main") _).trans (by simp)
      refine ⟨rfl, fun x hx => ?_⟩
      obtain rfl | hx := List.mem_cons.mp (hids ▸ (show x ∈ Instruction.ids _ from hx))
      · exact hmain
      · exact h.isTaken (h.interface x (List.mem_reverse.mp hx))
    · obtain ⟨mode, -, rfl⟩ := List.mem_map.mp hi
      have hids : Instruction.ids { op := .executionMode, operands := .id main :: Operand.numbers mode.words } =
        [main] :=
        (Operand.used_cons_id main _).trans (by simp)
      refine ⟨rfl, fun x hx => ?_⟩
      obtain rfl := List.mem_singleton.mp (hids ▸ (show x ∈ Instruction.ids _ from hx))
      exact hmain
  · cases hi

/-- What stands at the start of a module names only ids that have been taken, and needs nothing
unless it is about ids. -/
lemma opening (hnotes : ∀ i ∈ b.names ++ b.decorations, i.isNote = true) (hi : i ∈ b.opening p) :
    (i.isAbout = true ∨ i.needs = []) ∧ ∀ x ∈ i.type.toList ++ i.ids, b.IsTaken x := by
  have hplain {i : Instruction} (htype : i.type = none) (hids : i.ids = []) :
      (i.isAbout = true ∨ i.needs = []) ∧ ∀ x ∈ i.type.toList ++ i.ids, b.IsTaken x := by
    have hnone : i.type.toList ++ i.ids = [] := by rw [htype, hids]; rfl
    exact ⟨.inr (List.subset_nil.mp (hnone ▸ i.needs_subset)), by rw [hnone]; simp⟩
  have hcapabilities : ∀ i ∈ b.capabilities p.kind, i.type = none ∧ i.ids = [] := by
    unfold capabilities
    cases b.readsInputAttachments <;> cases p.kind <;> decide
  have hnoted (hi : i ∈ b.names ++ b.decorations) : (i.isAbout = true ∨ i.needs = []) ∧
    ∀ x ∈ i.type.toList ++ i.ids, b.IsTaken x := by
    refine ⟨.inl ?_, h.notes i hi⟩
    have hnote := (Bool.and_eq_true_iff.mp (hnotes i hi)).2
    unfold Instruction.isAbout
    cases hop : i.op <;> simp_all
  unfold Builder.opening preamble at hi
  simp only [List.mem_append, List.mem_reverse, List.mem_cons, List.not_mem_nil, or_false] at hi
  obtain (((((hi | hi) | rfl | rfl) | hi) | hi) | hi) := hi
  · exact hplain (hcapabilities i hi).1 (hcapabilities i hi).2
  · unfold extensions at hi
    split at hi
    · obtain rfl := List.mem_singleton.mp hi
      exact hplain rfl (Operand.used_textOperands _)
    · cases hi
  · exact hplain rfl (Operand.used_textOperands _)
  · exact hplain rfl rfl
  · exact (h.entryPoint hi).imp_left .inl
  · exact hnoted (List.mem_append_left _ hi)
  · exact hnoted (List.mem_append_right _ hi)

end Ordered

section

variable {d : Declared} {i : Instruction} (hc : Complete p b) (ho : b.Ordered d)
include hc

lemma Complete.exists_text (hi : i ∈ b.functions) : ∃ t : FunctionText,
    (∃ id entry, t.WellFormed id entry) ∧ i ∈ t.instructions ∧ t.instructions ⊆ b.functions := by
  obtain ⟨texts, hfunctions, htexts⟩ := hc.texts
  rw [hfunctions] at hi ⊢
  obtain ⟨t, ht, hi⟩ := List.mem_flatMap.mp hi
  obtain ⟨id, -, hwell⟩ := Build.exists_of_mem_forall₂ htexts ht
  exact ⟨t, ⟨id, hwell⟩, hi, fun j hj => List.mem_flatMap.mpr ⟨t, ht, hj⟩⟩

lemma Complete.labels_of_mem_globals (hi : i ∈ b.globals) : i.labels = [] ∧ i.callee? = none := by
  have hprolog : i.isProlog = true := by simp [Instruction.isProlog, hc.globals i hi]
  exact ⟨Instruction.labels_of_isProlog hprolog, Instruction.callee?_of_isProlog hprolog⟩

include ho

lemma Complete.exists_callee (hdefined : ∀ f id : Nat, b.functionIds[f]? = some id →
    f ∈ p.definitions) (hi : i ∈ b.functions ++ b.globals)
    (hx : i.callee? = some x) : ∃ j ∈ b.functions, j.op = .function ∧ j.result = some x := by
  obtain hi | hi := List.mem_append.mp hi
  · obtain ⟨f, hf⟩ := ho.calls i (b.functions_suffix_text.subset hi) x hx
    obtain ⟨texts, hfunctions, htexts⟩ := hc.texts
    have hmem : x ∈ (b.idsOf p.definitions).reverse :=
      List.mem_reverse.mpr (List.mem_filterMap.mpr ⟨f, hdefined f x hf, hf⟩)
    obtain ⟨t, ht, entry, hwell⟩ := Build.exists_of_mem_forall₂ htexts.flip hmem
    obtain ⟨j, hj, hfunction⟩ := hwell.exists_function
    exact ⟨j, hfunctions ▸ List.mem_flatMap.mpr ⟨t, ht, hj⟩, hfunction⟩
  · rw [(hc.labels_of_mem_globals hi).2] at hx
    cases hx

/-- All ids that types, constants, global variables and functions name have been taken. -/
lemma Complete.isTaken (hi : i ∈ b.functions ++ b.globals) (hx : x ∈ i.type.toList ++ i.ids) : b.IsTaken x := by
  have hresult (is : List Instruction) (his : is ⊆ b.functions ++ b.globals)
    (hx : x ∈ Spirv.results is) : b.IsTaken x := by
    obtain ⟨j, hj, hx⟩ := mem_results.mp hx
    refine hc.distinct.range x (List.mem_append_right _ (mem_results.mpr ⟨j, ?_, hx⟩))
    have := his hj
    simp only [List.mem_append] at this ⊢
    tauto
  have hneeds (hx : x ∈ i.needs) : b.IsTaken x := by
    obtain rfl | hx := ho.follows.mem hi x hx
    · exact hc.distinct.range b.mathSet List.mem_cons_self
    · exact hresult _ (List.Subset.refl _) hx
  obtain hx | hx := List.mem_append.mp hx
  · exact hneeds (List.mem_append_left _ hx)
  obtain hx | hx | hx := Instruction.mem_ids hx
  · exact hneeds hx
  · obtain hi | hi := List.mem_append.mp hi
    · obtain ⟨t, ⟨id, entry, hwell⟩, hmem, hsub⟩ := hc.exists_text hi
      exact hresult _ (List.subset_append_of_subset_left _ hsub)
        (opened_subset_results _ (hwell.mem_opened hmem hx))
    · rw [(hc.labels_of_mem_globals hi).1] at hx
      cases hx
  · obtain hi | hi := List.mem_append.mp hi
    · exact ho.functionIds x (ho.calls i (b.functions_suffix_text.subset hi) x hx)
    · rw [(hc.labels_of_mem_globals hi).2] at hx
      cases hx

end

end Builder
end Spirv

namespace Program

open Spirv (Builder Module Build FunctionText Instruction)

variable {p : Program} {version : SpirvVersion} {m : Module}

end Program
end Shading
