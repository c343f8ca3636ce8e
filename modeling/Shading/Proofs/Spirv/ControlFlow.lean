import Mathlib
import Shading.Proofs.Spirv.Constants
import Shading.Proofs.Spirv.ModuleFlow
import Shading.Proofs.Typing.Soundness

/-! The control flow of whole modules. Outside of functions no block is needed; inside of them
blocks follow one another, and no way leads to a block that control cannot leave. -/
namespace Shading

namespace Spirv

/-! ### Declarations -/

namespace Build

open Builder (Tabled Keeps Declares)

variable {α : Type} {s : Setting} {b : Builder} {Q : α → Builder → Prop} {d : Declared}

lemma makes_initialValue {n : Nat} {storage : StorageClass} {e : Expr} (hb : Tabled b) (he : e.WellTyped d) :
    Makes (initialValue n storage e) s b fun _ _ => True := by
  refine .of_body _ hb ?_
  suffices hholds : Holds (initialValue n storage e) s b fun _ b' => b'.body = b.body from hholds
  unfold initialValue
  refine .bind (P := fun _ b1 => b1 = b) rfl ?_
  rintro s _ rfl
  dsimp only
  split
  · rename_i hconstant
    exact .bind (makes_value e hb he (Bool.and_eq_true_iff.mp hconstant).2) fun x b1 h1 => h1.1.body
  · split <;> rfl

/-- A global variable is written outside of functions: its initial value is a constant, or is left
to the entry point. -/
lemma makes_globalVariable {n : Nat} {initializer : Option Expr} {span : Span} (hb : Tabled b)
    (he : ∀ e ∈ initializer, e.WellTyped d) : Makes (globalVariable n initializer span) s b fun _ _ => True := by
  unfold globalVariable
  refine .bind (.of_outside _ hb) fun _ b1 h1 _ => .bind (.of_body _ h1.tabled rfl) fun setting b2 h2 _ => ?_
  dsimp only
  cases globalStorage _ with
  | error q => exact .of_outside _ h2.tabled
  | ok storage =>
    refine .bind (.of_outside _ h2.tabled) fun type b3 h3 _ =>
      .bind (.of_outside _ h3.tabled) fun pointer b4 h4 _ => ?_
    cases initializer with
    | none =>
      refine .bind (.of_outside _ h4.tabled) fun initial b5 h5 _ => ?_
      exact .bind (.of_outside _ h5.tabled) fun _ b6 h6 _ => .of_outside _ h6.tabled
    | some e =>
      refine .bind (makes_initialValue h4.tabled (he e rfl)) fun initial b5 h5 _ => ?_
      exact .bind (.of_outside _ h5.tabled) fun _ b6 h6 _ => .of_outside _ h6.tabled

lemma makes_declaration {e : Element} (hb : Tabled b) (he : e.WellTyped d) :
    Makes (declaration e) s b fun _ _ => True := by
  cases e with
  | struct ty span =>
    exact .bind (.of_outside _ hb) fun _ b1 h1 _ => .bind (.of_outside _ h1.tabled) fun _ b2 h2 _ =>
      .pure h2.tabled trivial
  | block n span => exact .of_outside (interfaceBlock n span) hb
  | global n initializer span =>
    obtain ⟨v, -, hinitializer⟩ := he
    exact makes_globalVariable hb fun e he => (hinitializer e he).1
  | prototype f span => exact .pure hb trivial
  | definition f ps body span => exact .pure hb trivial

lemma makes_declarations {es : List Element} (hb : Tabled b) (hes : ∀ e ∈ es, e.WellTyped d) :
    Makes (es.forM declaration) s b fun _ _ => True := by
  induction es generalizing b with
  | nil => exact .pure hb trivial
  | cons e es ih =>
    rw [List.forall_mem_cons] at hes
    exact .bind (makes_declaration hb hes.1) fun _ b1 h1 _ => ih h1.tabled hes.2

end Build

/-! ### Whole modules -/

namespace Instruction

/-- What stands before the functions of a module. -/
def isProlog (i : Instruction) : Bool :=
  i.isDeclaration || i.isNote || (i.op matches
    .capability | .extension | .extInstImport | .memoryModel | .entryPoint | .executionMode)

lemma targets_of_isProlog {i : Instruction} (h : i.isProlog = true) : i.targets = [] := by
  unfold targets
  cases hop : i.op <;> simp_all [isProlog, isDeclaration, isNote]

lemma op_of_isProlog {i : Instruction} (h : i.isProlog = true) : i.op ≠ .unreachable := by
  intro hop
  simp [isProlog, isDeclaration, isNote, hop] at h

end Instruction

namespace Builder

variable {b : Builder} {p : Program}

lemma isProlog_preamble (b : Builder) (p : Program) : ∀ i ∈ b.preamble p, i.isProlog = true := by
  have hcapabilities : ∀ i ∈ b.capabilities p.kind, i.isProlog = true := by
    unfold capabilities
    cases b.readsInputAttachments <;> cases p.kind <;> decide
  have hextensions : ∀ i ∈ b.extensions, i.isProlog = true := by
    unfold extensions
    split <;> simp [Instruction.isProlog]
  have hentry : ∀ i ∈ b.entryPoint p, i.isProlog = true := by
    unfold entryPoint
    split
    · refine List.forall_mem_cons.mpr ⟨rfl, fun i hi => ?_⟩
      obtain ⟨m, -, rfl⟩ := List.mem_map.mp hi
      rfl
    · exact nofun
  unfold preamble
  simp only [List.forall_mem_append, List.forall_mem_cons]
  exact ⟨⟨⟨hcapabilities, hextensions⟩, rfl, rfl, nofun⟩, hentry⟩

/-- The instructions of a module before its functions. -/
def prolog (b : Builder) (p : Program) : List Instruction :=
    b.preamble p ++ b.names.reverse ++ b.decorations.reverse ++ b.globals.reverse

lemma Complete.isProlog (h : Complete p b) : ∀ i ∈ b.prolog p, i.isProlog = true := by
  have hnotes := List.forall_mem_append.mp h.notes
  unfold prolog
  simp only [List.forall_mem_append, List.mem_reverse]
  refine ⟨⟨⟨b.isProlog_preamble p, fun i hi => ?_⟩, fun i hi => ?_⟩, fun i hi => ?_⟩
  · simp [Instruction.isProlog, hnotes.1 i hi]
  · simp [Instruction.isProlog, hnotes.2 i hi]
  · simp [Instruction.isProlog, h.globals i hi]

end Builder

lemma opened_sublist (is : List Instruction) : (opened is).Sublist (results is) := by
  induction is with
  | nil => exact .slnil
  | cons i is ih =>
    rw [opened_cons, results_cons]
    refine List.Sublist.append ?_ ih
    unfold Instruction.opened?
    split
    · exact List.Sublist.refl _
    · exact List.nil_sublist _

/-! ### Blocks that control does not leave -/

variable {is : List Instruction}

lemma current?_append (older : List Instruction) (h : current? is ≠ none) :
    current? (is ++ older) = current? is := by
  obtain ⟨l, hl⟩ := Option.ne_none_iff_exists'.mp h
  unfold current? at hl ⊢
  rw [opened_append, List.head?_append, hl]
  rfl

lemma deadEnds_append (older : List Instruction) (h : none ∉ deadEnds is) :
    deadEnds (is ++ older) = deadEnds is ++ deadEnds older := by
  induction is with
  | nil => rfl
  | cons i is ih =>
    rw [List.cons_append, deadEnds, deadEnds]
    rw [deadEnds] at h
    split at h
    · rename_i hop
      rw [List.mem_cons, not_or] at h
      rw [if_pos hop, if_pos hop, ih h.2, current?_append older (Ne.symm h.1), List.cons_append]
    · rename_i hop
      rw [if_neg hop, if_neg hop, ih h]

lemma deadEnds_append_of_forall (older : List Instruction) (h : ∀ i ∈ is, i.op ≠ .unreachable) :
    deadEnds (is ++ older) = deadEnds older := by
  induction is with
  | nil => rfl
  | cons i is ih =>
    rw [List.forall_mem_cons] at h
    rw [List.cons_append, deadEnds, if_neg h.1, ih h.2]

lemma edges_eq_nil (h : ∀ i ∈ is, i.targets = []) : edges is = [] := List.flatMap_eq_nil_iff.mpr h

namespace FunctionText

variable {id entry : Nat} {t : FunctionText}

lemma WellFormed.op_of_mem (h : t.WellFormed id entry) {i : Instruction} (hi : i ∈ t.locals ++ t.header) :
    i.op = .variable_ ∨ i.op = .label ∨ i.op = .functionParameter ∨ i.op = .function := by
  obtain hi | hi := List.mem_append.mp hi
  · exact .inl (h.isVariable i hi)
  · obtain ⟨parameters, start, hheader, hstart, -, hparameters⟩ := h.header
    rw [hheader, List.mem_cons, List.mem_append, List.mem_singleton] at hi
    obtain rfl | hi | rfl := hi
    · exact .inr (.inl rfl)
    · exact .inr (.inr (.inl (hparameters i hi)))
    · exact .inr (.inr (.inr hstart))

lemma WellFormed.deadEnds_append (h : t.WellFormed id entry) (older : List Instruction) :
    deadEnds (t.instructions ++ older) = deadEnds t.code ++ deadEnds older := by
  have hsome : none ∉ deadEnds t.code := by
    intro hnone
    obtain ⟨l, -, hl, -⟩ := h.code.unreached none hnone
    cases hl
  have hstart : ∀ i ∈ t.locals ++ t.header, i.op ≠ .unreachable := by
    intro i hi
    obtain hop | hop | hop | hop := h.op_of_mem hi <;> simp [hop]
  unfold instructions
  rw [List.cons_append, deadEnds, if_neg (by decide), List.append_assoc,
    Spirv.deadEnds_append _ hsome, deadEnds_append_of_forall older hstart]

lemma WellFormed.edges_instructions (h : t.WellFormed id entry) : edges t.instructions = edges t.code := by
  have hstart : edges (t.locals ++ t.header) = [] := by
    refine edges_eq_nil fun i hi => ?_
    obtain hop | hop | hop | hop := h.op_of_mem hi <;> simp [Instruction.targets, hop]
  unfold instructions
  rw [edges_cons, edges_append, hstart, List.append_nil]
  rfl

lemma code_subset_instructions (t : FunctionText) : t.code ⊆ t.instructions :=
  fun _ hi => List.mem_cons_of_mem _ (List.mem_append_left _ hi)

end FunctionText

variable {texts : List FunctionText}

lemma mem_deadEnds_functions (h : ∀ t ∈ texts, ∃ id entry, t.WellFormed id entry) {older : List Instruction}
    {x : Option Nat} (hx : x ∈ deadEnds (texts.flatMap FunctionText.instructions ++ older)) :
    (∃ t ∈ texts, x ∈ deadEnds t.code) ∨ x ∈ deadEnds older := by
  induction texts with
  | nil => exact .inr hx
  | cons t texts ih =>
    rw [List.forall_mem_cons] at h
    obtain ⟨⟨id, entry, ht⟩, htexts⟩ := h
    rw [List.flatMap_cons, List.append_assoc, ht.deadEnds_append, List.mem_append] at hx
    obtain hx | hx := hx
    · exact .inl ⟨t, List.mem_cons_self, hx⟩
    · exact (ih htexts hx).imp_left fun ⟨u, hu, hx⟩ => ⟨u, List.mem_cons_of_mem _ hu, hx⟩

lemma nodup_functions (h : (results (texts.flatMap FunctionText.instructions)).Nodup) :
    (∀ t ∈ texts, (results t.instructions).Nodup) ∧
      texts.Pairwise fun t u => List.Disjoint (results t.instructions) (results u.instructions) := by
  rw [results, List.filterMap_flatMap] at h
  exact List.nodup_flatMap.mp h

/-- Functions whose labels are all different share no label, so that no branch leads out of its
function. -/
lemma eq_of_mem_opened (h : (results (texts.flatMap FunctionText.instructions)).Nodup) {t u : FunctionText}
    (ht : t ∈ texts) (hu : u ∈ texts) {l : Nat} (hlt : l ∈ opened t.code) (hlu : l ∈ opened u.code) : t = u := by
  by_contra hne
  have hsymm : Std.Symm fun t u : FunctionText =>
    List.Disjoint (results t.instructions) (results u.instructions) := ⟨fun _ _ h _ ht hu => h hu ht⟩
  have hmem {t : FunctionText} (hl : l ∈ opened t.code) : l ∈ results t.instructions := by
    obtain ⟨i, hi, hresult⟩ := mem_results.mp (opened_subset_results _ hl)
    exact mem_results.mpr ⟨i, t.code_subset_instructions hi, hresult⟩
  exact (nodup_functions h).2.forall ht hu hne (hmem hlt) (hmem hlu)

end Spirv

namespace Program

open Spirv (Builder Module Build FunctionText Instruction)

variable {p : Program} {version : SpirvVersion} {m : Module}

/-- A program that can be written leaves a builder without problems, of which the module is made. -/
lemma exists_of_toSpirv (h : (p.toSpirv version).result = .ok m) :
    ∃ journal, ((Build.parts ⟨p, version⟩ { journal }).2.module ⟨p, version⟩ = m ∧
      (Build.parts ⟨p, version⟩ { journal }).2.journal.hasProblems = false) := by
  refine ⟨[Event.spirvStarted version p.kind p.elements.length], ?_⟩
  unfold toSpirv at h
  dsimp only at h
  split at h
  · cases h
  · rename_i hproblems
    split at h
    · cases h
    · cases h
      exact ⟨rfl, Bool.eq_false_iff.mpr hproblems⟩

/-- The functions of a module, newest first, and what stands before them. -/
structure Laid (p : Program) (version : SpirvVersion) (m : Module) (prolog : List Instruction)
    (texts : List FunctionText) : Prop where
  instructions : m.instructions = prolog ++ (texts.flatMap FunctionText.instructions).reverse
  isProlog : ∀ i ∈ prolog, i.isProlog = true
  wellFormed : ∀ t ∈ texts, ∃ id entry, t.WellFormed id entry
  nodup : (Spirv.results (texts.flatMap FunctionText.instructions)).Nodup

lemma exists_laid (hp : p.Sound) (hm : (p.toSpirv version).result = .ok m) : ∃ prolog texts,
    Laid p version m prolog texts := by
  obtain ⟨journal, rfl, -⟩ := exists_of_toSpirv hm
  have hcomplete : Spirv.Builder.Complete p (Build.parts ⟨p, version⟩ { journal }).2 := Builder.complete hp
  obtain ⟨texts, hfunctions, htexts⟩ := hcomplete.texts
  refine ⟨_, texts, ?_, hcomplete.isProlog, fun t ht => ?_, ?_⟩
  · rw [← hfunctions]
    rfl
  · obtain ⟨id, -, entry, ht⟩ := Build.exists_of_mem_forall₂ htexts ht
    exact ⟨id, entry, ht⟩
  · rw [← hfunctions]
    refine (hcomplete.distinct.nodup.of_append_right).sublist (List.Sublist.filterMap _ ?_)
    exact (List.sublist_append_left _ _).trans (List.sublist_append_right _ _)

lemma exists_written {source : String} {kind : ShaderKind} {options : CompileOptions} {α : Type}
    {f : Program → Module → α} {a : α}
    (h : ((Program.parse source kind options).result.toOption.bind fun p =>
    (p.toSpirv version).result.toOption.map (f p)) = some a) :
    ∃ p m, (Program.parse source kind options).result = .ok p ∧ (p.toSpirv version).result = .ok m ∧
    f p m = a := by
  cases hp : (Program.parse source kind options).result with
  | error e => simp [hp, Except.toOption] at h
  | ok p =>
    rw [hp] at h
    obtain ⟨m, hm, hf⟩ := exists_ok_of_map (r := (p.toSpirv version).result) h
    exact ⟨p, m, rfl, hm, hf⟩

/-- A statement that the check for missing returns takes to be always left is never passed. So a
function with a result needs no instruction at its end that says so, and wherever such an
instruction stands no branch leads. -/
theorem unreachable_not_reached {source : String} {kind : ShaderKind} {options : CompileOptions}
    (hp : (Program.parse source kind options).result = .ok p) (hm : (p.toSpirv version).result = .ok m) :
    (∀ stmt : Stmt, stmt.alwaysExits = true → ∀ s b, (Build.statement stmt s b).2.body.block = none) ∧
    (∀ f ps body span, Element.definition f ps body span ∈ p.elements → (p.functionAt f).returns.isVoid = false →
      body.alwaysExits = true ∧
        ∀ s b, Build.finishBlock (p.functionAt f).returns s (Build.statement body s b).2 =
        ((), (Build.statement body s b).2)) ∧
    ∀ x ∈ Spirv.deadEnds m.instructions.reverse, ∃ l, x = some l ∧ l ∈ Spirv.opened m.instructions ∧
    l ∉ Spirv.edges m.instructions := by
  have hsound := sound_of_parse hp
  refine ⟨fun stmt h s b => Build.Leaves.statement h s b, fun f ps body span hf hvoid => ?_, fun x hx => ?_⟩
  · obtain ⟨g, hg, -, -, -, hexits⟩ := hsound.elements _ hf
    have hfunction : p.functionAt f = g := by
      rw [functionAt, show p.functions.get? f = some g from hg, Option.getD_some]
    have hexits : body.alwaysExits = true := hexits.resolve_left (by simp [← hfunction, hvoid])
    refine ⟨hexits, fun s b => ?_⟩
    have hblock := Build.Leaves.statement hexits s b
    change (if (Build.statement body s b).2.body.block.isSome = true then _ else pure () : Build Unit) s _ = _
    rw [hblock]
    rfl
  · obtain ⟨prolog, texts, h⟩ := exists_laid hsound hm
    have hprolog : Spirv.edges prolog = [] := Spirv.edges_eq_nil fun i hi =>
      Instruction.targets_of_isProlog (h.isProlog i hi)
    have hnone : Spirv.deadEnds prolog.reverse = [] := by
      rw [← List.append_nil prolog.reverse, Spirv.deadEnds_append_of_forall [] fun i hi =>
        Instruction.op_of_isProlog (h.isProlog i (List.mem_reverse.mp hi))]
      rfl
    rw [h.instructions, List.reverse_append, List.reverse_reverse] at hx
    obtain ⟨t, ht, hx⟩ := (Spirv.mem_deadEnds_functions h.wellFormed hx).resolve_right (by simp [hnone])
    obtain ⟨id, entry, hwell⟩ := h.wellFormed t ht
    obtain ⟨l, hl, rfl, hnot⟩ := hwell.code.unreached x hx
    refine ⟨l, rfl, ?_, ?_⟩
    · obtain ⟨i, hi, hopened⟩ := List.mem_filterMap.mp hl
      have hmem : i ∈ texts.flatMap FunctionText.instructions :=
        List.mem_flatMap.mpr ⟨t, ht, t.code_subset_instructions hi⟩
      rw [h.instructions]
      exact List.mem_filterMap.mpr ⟨i, List.mem_append_right _ (List.mem_reverse.mpr hmem), hopened⟩
    · intro hedge
      rw [h.instructions, Spirv.edges_append, hprolog, List.nil_append] at hedge
      obtain ⟨i, hi, htarget⟩ := List.mem_flatMap.mp hedge
      obtain ⟨u, hu, hi⟩ := List.mem_flatMap.mp (List.mem_reverse.mp hi)
      obtain ⟨_, _, huwell⟩ := h.wellFormed u hu
      have hedge : l ∈ Spirv.edges u.code := by
        rw [← huwell.edges_instructions]
        exact List.mem_flatMap.mpr ⟨i, hi, htarget⟩
      obtain rfl := Spirv.eq_of_mem_opened h.nodup ht hu hl (huwell.code.named l (.inl hedge))
      exact hnot hedge

/-- Both branches of a selection return, so that the block after it cannot be reached. -/
theorem unreachable_not_reached_branches : ∃ p m, (Program.parse
      "int f(bool b) { if (b) return 1; else return 2; } void main() { f(true); }" .fragment {}).result = .ok p ∧
    (p.toSpirv .v10).result = .ok m ∧ (Spirv.deadEnds m.instructions.reverse).length = 1 ∧
    ∀ x ∈ Spirv.deadEnds m.instructions.reverse, ∃ l, x = some l ∧ l ∈ Spirv.opened m.instructions ∧
    l ∉ Spirv.edges m.instructions := by
  refine Exists.imp (fun p => Exists.imp fun m h => ⟨h.1, h.2.1, h.2.2, (unreachable_not_reached h.1 h.2.1).2.2⟩)
    (exists_written (a := 1) (f := fun _ m => (Spirv.deadEnds m.instructions.reverse).length) ?_)
  decide +kernel

end Program
end Shading
