import Shading.Proofs.Spirv.ComposedParts
import Shading.Proofs.Spirv.ControlFlow
import Shading.Proofs.Spirv.Order
import Shading.Proofs.Spirv.WordBuffer

/-! The steps of a builder while a module is written, and what each of them writes. A run is a
sequence of such steps; what has been written in it is what the lists of the module hold at its
end. -/
namespace Shading

namespace Spirv

/-- The lists of a module. -/
inductive Stream where
  | names
  | decorations
  | globals
  | functions
deriving DecidableEq

/-- The list that a section is. -/
def Section.stream : Section → Stream
  | names => .names
  | decorations => .decorations
  | globals => .globals

/-- Instructions with the lists that they are written to, the oldest first. -/
abbrev Trace := List (Stream × Instruction)

variable {i : Instruction}

namespace Trace

/-- What is written to one of the lists. -/
def on (tr : Trace) (stream : Stream) : List Instruction := (tr.filter (·.1 = stream)).map (·.2)

variable {stream : Stream}

@[simp] lemma on_nil : on [] stream = [] := rfl

@[simp] lemma on_append (tr tr' : Trace) : on (tr ++ tr') stream = on tr stream ++ on tr' stream := by
  simp [on]

@[simp] lemma on_cons (w : Stream × Instruction) (tr : Trace) :
    on (w :: tr) stream = if w.1 = stream then w.2 :: on tr stream else on tr stream := by
  unfold on
  by_cases h : w.1 = stream <;> simp [h]

lemma mem_on {tr : Trace} : i ∈ tr.on stream ↔ (stream, i) ∈ tr := by
  simp [on]

lemma mem_map_snd {tr : Trace} :
    i ∈ tr.map (·.2) ↔ i ∈ tr.on .names ∨ i ∈ tr.on .decorations ∨ i ∈ tr.on .globals ∨ i ∈ tr.on .functions := by
  simp only [List.mem_map, Prod.exists, mem_on]
  constructor
  · rintro ⟨stream, _, h, rfl⟩
    cases stream <;> simp [h]
  · rintro (h | h | h | h) <;> exact ⟨_, i, h, rfl⟩

end Trace

namespace Builder

/-- What one of the lists holds, the newest first; functions include the one that is being
written. -/
def stream (b : Builder) : Stream → List Instruction
  | .names => b.names
  | .decorations => b.decorations
  | .globals => b.globals
  | .functions => b.text

/-- A step of the builder, and what it writes. -/
inductive Step : Builder → Trace → Builder → Prop
  /-- Notes about the program change. -/
  | keep {b b' : Builder} (h : b'.content = b.content) : Step b [] b'
  /-- An id is taken. -/
  | fresh (b : Builder) : Step b [] { b with next := b.next + 1 }
  /-- Something that is written once is not there yet. -/
  | write {b : Builder} {part : Section} {t : Template} (s : Setting) (ht : t.belongs part = true)
    (hnew : b.ids[t]? = none) :
    Step b [(part.stream, t.instruction (Build.write part t s b).1)] (Build.write part t s b).2
  /-- A global variable. -/
  | declare (b : Builder) (s : Setting) (type : Nat) (operands : List Operand) :
    Step b [(.globals, { op := .variable_, type, result := b.next, operands })]
      (Build.declare type operands s b).2
  /-- The code of a function, its variables, and its start. -/
  | push (b : Builder) (s : Setting) {i : Instruction} (hi : i.op.isShared = false) :
    Step b [(.functions, i)] (Build.push i s b).2
  | pushLocal (b : Builder) (s : Setting) {i : Instruction} (hi : i.op.isShared = false) :
    Step b [(.functions, i)] (Build.pushLocal i s b).2
  | appendHeader (b : Builder) (s : Setting) {i : Instruction} (hi : i.op.isShared = false) :
    Step b [(.functions, i)] (Build.appendHeader i s b).2
  /-- The end of a function. -/
  | endFunction (b : Builder) (s : Setting) : Step b [(.functions, { op := .functionEnd })] (Build.endFunction s b).2

/-- Steps one after another. -/
inductive Run : Builder → Trace → Builder → Prop
  | nil (b : Builder) : Run b [] b
  | cons {b b' b'' : Builder} {w tr : Trace} (hstep : Step b w b') (hrun : Run b' tr b'') : Run b (w ++ tr) b''

variable {b b' b'' : Builder} {tr tr' : Trace}

lemma Run.single (h : Step b tr b') : Run b tr b' := by
  have := Run.cons h (.nil b')
  rwa [List.append_nil] at this

lemma Run.trans (h : Run b tr b') (h' : Run b' tr' b'') : Run b (tr ++ tr') b'' := by
  induction h with
  | nil => exact h'
  | cons hstep _ ih =>
    rw [List.append_assoc]
    exact .cons hstep (ih h')

/-! ### What has been written -/

lemma stream_of_content (h : b'.content = b.content) (stream : Stream) : b'.stream stream = b.stream stream := by
  have hcontent (f : Builder → List Instruction) : f b'.content = f b.content := congrArg f h
  cases stream with
  | names => exact hcontent names
  | decorations => exact hcontent decorations
  | globals => exact hcontent globals
  | functions => exact hcontent text

lemma stream_write {part : Section} {t : Template} (s : Setting) (ht : t.belongs part = true) (stream : Stream) :
    (Build.write part t s b).2.stream stream =
      Trace.on [(part.stream, t.instruction (Build.write part t s b).1)] stream ++ b.stream stream := by
  by_cases hresult : t.sharing = .noResult
  · rw [Build.write_note hresult]
    cases part <;> cases stream <;> rfl
  · obtain rfl := Template.eq_globals_of_belongs ht hresult
    rw [Build.write_eq hresult]
    cases stream <;> rfl

variable {stream : Stream}

lemma Step.stream_eq (h : Step b tr b') (hstream : stream ≠ .functions) :
    b'.stream stream = (tr.on stream).reverse ++ b.stream stream := by
  cases h with
  | keep h => exact stream_of_content h stream
  | write s ht hnew =>
    rw [stream_write s ht, Trace.on_cons]
    split <;> rfl
  | declare => cases stream <;> rfl
  | _ => cases stream <;> first | rfl | contradiction

lemma Step.stream_perm (h : Step b tr b') (stream : Stream) :
    (b'.stream stream).Perm (tr.on stream ++ b.stream stream) := by
  by_cases hstream : stream = .functions
  · subst hstream
    cases h with
    | keep h => rw [stream_of_content h]; exact .refl _
    | write s ht hnew => rw [stream_write s ht]
    | pushLocal s _ => exact List.perm_middle
    | appendHeader s _ => exact (List.perm_middle.append_left _).trans List.perm_middle
    | _ => exact .refl _
  · rw [h.stream_eq hstream]
    exact (List.reverse_perm _).append_right _

lemma Run.stream_eq (h : Run b tr b') (hstream : stream ≠ .functions) :
    b'.stream stream = (tr.on stream).reverse ++ b.stream stream := by
  induction h with
  | nil => rfl
  | cons hstep _ ih => rw [ih, hstep.stream_eq hstream, Trace.on_append, List.reverse_append, List.append_assoc]

lemma Run.stream_perm (h : Run b tr b') (stream : Stream) :
    (b'.stream stream).Perm (tr.on stream ++ b.stream stream) := by
  induction h with
  | nil => exact .refl _
  | @cons b b' b'' w tr hstep _ ih =>
    rw [Trace.on_append, List.append_assoc]
    refine ih.trans (((hstep.stream_perm stream).append_left _).trans ?_)
    rw [← List.append_assoc, ← List.append_assoc]
    exact List.perm_append_comm.append_right _

lemma stream_functions (hbody : b.body = {}) : b.stream .functions = b.functions := by
  change b.text = _
  rw [text, hbody]
  rfl

variable {journal : Journal}

lemma Run.instructions_module (h : Run { journal } tr b) (hbody : b.body = {}) (s : Setting) :
    ∃ functions : List Instruction,
    functions.Perm (tr.on .functions) ∧
      (b.module s).instructions = b.preamble s.program ++ tr.on .names ++ tr.on .decorations ++
      tr.on .globals ++ functions := by
  have hsection (stream : Stream) (hstream : stream ≠ .functions)
    (hnone : ({ journal } : Builder).stream stream = []) :
      (b.stream stream).reverse = tr.on stream := by
    rw [h.stream_eq hstream, hnone, List.append_nil, List.reverse_reverse]
  have hfunctions : b.functions.Perm (tr.on .functions) := by
    have hperm : (b.stream .functions).Perm (tr.on .functions ++ []) := h.stream_perm .functions
    rwa [stream_functions hbody, List.append_nil] at hperm
  refine ⟨b.functions.reverse, (List.reverse_perm _).trans hfunctions, ?_⟩
  rw [← hsection .names nofun rfl, ← hsection .decorations nofun rfl, ← hsection .globals nofun rfl]
  rfl

lemma Step.functionWords_eq (h : Step b tr b') (hb : b.functionWords = .ofNewest b.functions) :
    b'.functionWords = .ofNewest b'.functions := by
  cases h with
  | keep h =>
    have hwords : b'.content.functionWords = b.content.functionWords := congrArg functionWords h
    have hfunctions : b'.content.functions = b.content.functions := congrArg functions h
    exact hwords.trans (hb.trans (congrArg WordBuffer.ofNewest hfunctions.symm))
  | write s ht hnew =>
    rename_i part t
    by_cases hresult : t.sharing = .noResult
    · rw [Build.write_note hresult]
      cases part <;> exact hb
    · obtain rfl := Template.eq_globals_of_belongs ht hresult
      rw [Build.write_eq hresult]
      exact hb
  | endFunction s =>
    change (((b.functionWords.append (.ofNewest b.body.header)).append (.ofNewest b.body.locals)).append
      (.ofNewest b.body.code)).write { op := .functionEnd } =
      (WordBuffer.ofNewest (b.body.code ++ (b.body.locals ++ (b.body.header ++ b.functions)))).write
        { op := .functionEnd }
    simp only [WordBuffer.append_ofNewest]
    simp only [hb, WordBuffer.ofNewest_eq, List.reverse_append, WordBuffer.writeAll_append]
  | _ => exact hb

lemma Run.functionWords_eq (h : Run b tr b') (hb : b.functionWords = .ofNewest b.functions) :
    b'.functionWords = .ofNewest b'.functions := by
  induction h with
  | nil => exact hb
  | cons hstep _ ih => exact ih (hstep.functionWords_eq hb)

/-- The words of a module are those of its instructions, and what is too long in any of its parts is
too long in the module. -/
lemma Run.code_module (h : Run { journal } tr b) (s : Setting) :
    (b.module s).code = WordBuffer.writeAll {} (b.module s).instructions := by
  have hwords := h.functionWords_eq rfl
  change b.assemble s.program = WordBuffer.writeAll {}
    (b.preamble s.program ++ b.names.reverse ++ b.decorations.reverse
    ++ b.globals.reverse ++ b.functions.reverse)
  simp only [assemble, hwords, WordBuffer.append_ofNewest, WordBuffer.writeAll_append]

lemma Run.mem_of_stream (h : Run { journal } tr b) (hi : i ∈ b.stream stream) :
    (stream, i) ∈ tr := by
  refine (List.mem_append.mp ((h.stream_perm stream).mem_iff.mp hi)).elim Trace.mem_on.mp fun hnone => ?_
  cases stream <;> cases hnone

lemma Run.forall_mem {P : Stream × Instruction → Prop}
    (hP : ∀ {b b' : Builder} {tr : Trace}, Step b tr b' → ∀ w ∈ tr, P w)
    (h : Run b tr b') : ∀ w ∈ tr, P w := by
  induction h with
  | nil => nofun
  | cons hstep _ ih => exact List.forall_mem_append.mpr ⟨hP hstep, ih⟩

/-- What is written once is in the list of its section; anything else is a global variable or in a
function. -/
def IsPlaced (w : Stream × Instruction) : Prop :=
  (∃ part : Section, w.1 = part.stream ∧ w.2.op.section? = some part) ∨ w.2.op.isShared = false ∧
    (w.1 = .globals ∨ w.1 = .functions)

lemma Step.isPlaced (h : Step b tr b') : ∀ w ∈ tr, IsPlaced w := by
  cases h with
  | keep => nofun
  | fresh => nofun
  | @write part t s ht hnew =>
    exact List.forall_mem_singleton.mpr (.inl ⟨part, rfl, Template.section?_of_belongs ht⟩)
  | declare s type operands => exact List.forall_mem_singleton.mpr (.inr ⟨rfl, .inl rfl⟩)
  | push s hi => exact List.forall_mem_singleton.mpr (.inr ⟨hi, .inr rfl⟩)
  | pushLocal s hi => exact List.forall_mem_singleton.mpr (.inr ⟨hi, .inr rfl⟩)
  | appendHeader s hi => exact List.forall_mem_singleton.mpr (.inr ⟨hi, .inr rfl⟩)
  | endFunction s => exact List.forall_mem_singleton.mpr (.inr ⟨rfl, .inr rfl⟩)

lemma Run.isPlaced (h : Run { journal } tr b) (hi : i ∈ b.stream stream) :
    IsPlaced (stream, i) :=
  h.forall_mem Step.isPlaced _ (h.mem_of_stream hi)

/-- The first instructions of a module are not among those that are written once. -/
lemma isShared_preamble (b : Builder) (p : Program) : ∀ i ∈ b.preamble p, i.op.isShared = false := by
  have hcapabilities : ∀ i ∈ b.capabilities p.kind, i.op.isShared = false := by
    unfold capabilities
    cases b.readsInputAttachments <;> cases p.kind <;> decide
  have hextensions : ∀ i ∈ b.extensions, i.op.isShared = false := by
    unfold extensions
    split
    · exact List.forall_mem_singleton.mpr rfl
    · simp
  have hentry : ∀ i ∈ b.entryPoint p, i.op.isShared = false := by
    unfold entryPoint
    split
    · refine List.forall_mem_cons.mpr ⟨rfl, fun i hi => ?_⟩
      obtain ⟨m, -, rfl⟩ := List.mem_map.mp hi
      rfl
    · simp
  unfold preamble
  simp only [List.forall_mem_append, List.forall_mem_cons]
  exact ⟨⟨⟨hcapabilities, hextensions⟩, rfl, rfl, by simp⟩, hentry⟩

end Builder

namespace Build

open Builder (Run Step)

variable {α : Type}

/-! ### Runs of the generator -/

lemma exists_run_once {part : Section} {t : Template} (ht : t.belongs part = true) (s : Setting) (b : Builder) :
    ∃ tr, Run b tr (once part t s b).2 := by
  rw [once_eq]
  cases hfound : b.ids[t]? with
  | some id => exact ⟨[], .single (.keep rfl)⟩
  | none => exact ⟨_, .single (.write s ht hfound)⟩

lemma exists_run_named {p : Setting → Bool} {t : Template} (ht : t.belongs .names = true)
    (s : Setting) (b : Builder) :
    ∃ tr, Run b tr ((do if p (← read) then let _ ← once .names t : Build Unit) s b).2 := by
  change ∃ tr, Run b tr ((if p s then once .names t >>= fun _ => pure () else pure () : Build Unit) s b).2
  split
  · exact exists_run_once ht s b
  · exact ⟨[], .nil b⟩

lemma Quiet.exists_run {P : Span → Prop} {m : Build α} (h : Quiet P α m) (s : Setting)
    (b : Builder) : ∃ tr, Run b tr (m s b).2 := by
  cases h with
  | note | setSpan => exact ⟨[], .single (.keep rfl)⟩
  | fresh => exact ⟨[], .single (.fresh b)⟩
  | once hpart ht => exact exists_run_once ht s b
  | name target text =>
    exact exists_run_named (p := fun s => s.program.options.emitNames && !text.isEmpty) rfl s b
  | nameMember target member text => exact exists_run_named (p := fun s => s.program.options.emitNames) rfl s b

lemma Outside.exists_run {P : Span → Prop} {m : Build α} (h : Outside P α m) (s : Setting)
    (b : Builder) : ∃ tr, Run b tr (m s b).2 := by
  cases h with
  | quiet h => exact h.exists_run s b
  | declare type operands => exact ⟨_, .single (.declare b s type operands)⟩
  | modify h hbody hframe => exact ⟨[], .single (.keep (h.content b))⟩

lemma Active.exists_run {P : Span → Prop} {m : Build α} (h : Active P α m) (s : Setting)
    (b : Builder) : ∃ tr, Run b tr (m s b).2 := by
  cases h with
  | outside h => exact h.exists_run s b
  | push h => exact ⟨_, .single (.push b s h)⟩
  | pushLocal h => exact ⟨_, .single (.pushLocal b s h)⟩
  | appendHeader h => exact ⟨_, .single (.appendHeader b s h)⟩
  | modify h => exact ⟨[], .single (.keep (h.content b))⟩

/-- What is put together from elementary steps runs by steps of the builder. -/
lemma Composed.exists_run {m : Build α} (h : Composed Active Span.Anywhere m) (s : Setting)
    (b : Builder) : ∃ tr, Run b tr (m s b).2 := by
  induction h generalizing b with
  | elementary h => exact h.exists_run s b
  | pure a => exact ⟨[], .nil b⟩
  | @bind_of _ _ m f _ _ hQ _ ihm ihf =>
    obtain ⟨tr, hm⟩ := ihm b
    obtain ⟨tr', hf⟩ := ihf (m s b).1 (hQ s b inferInstance) (m s b).2
    exact ⟨tr ++ tr', hm.trans hf⟩
  | ask _ _ ih => exact ih s inferInstance b
  | look _ _ ih => exact ih b b.spanned_anywhere b

/-- The types of a function. -/
def functionTypes (f : Function) (id : Nat) : Build (Nat × Nat) := do
  note (.functionStarted f.name id)
  let returns ← typeOf f.returns
  let type ← functionType f
  return (returns, type)

instance (f : Function) (id : Nat) : Composed Outside Span.Anywhere (functionTypes f id) := by
    unfold functionTypes; infer_instance

/-- A function between the start of its types and its end. -/
def functionParts (f : Function) (id : Nat) (parameters : List Nat) (body : Stmt) : Build Unit := do
  let (returns, type) ← functionTypes f id
  functionText f id returns type parameters body

instance (f : Function) (id : Nat) (parameters : List Nat) (body : Stmt) :
    Composed Active Span.Anywhere (functionParts f id parameters body) := by
  unfold functionParts; infer_instance

variable {b : Builder}

/-- Nothing has to be cleared away before a function that is written into an empty body. -/
lemma functionDefinition_of_body (f : Function) (id : Nat) (parameters : List Nat) (body : Stmt)
    (s : Setting) (hb : b.body = {}) :
    (functionDefinition f id parameters body s b).2 =
    (endFunction s (functionParts f id parameters body s b).2).2 := by
  have hbody : (functionTypes f id s b).2.body = {} := (Composed.body_eq (functionTypes f id) s b).trans hb
  have hclear : (clear s (functionTypes f id s b).2).2 = (functionTypes f id s b).2 := by
    change { (functionTypes f id s b).2 with body := {} } = (functionTypes f id s b).2
    rw [← hbody]
  let types := (functionTypes f id s b).1
  rw [functionDefinition_eq]
  change (endFunction s (functionText f id types.1 types.2 parameters body s
    (clear s (functionTypes f id s b).2).2).2).2 = _
  rw [hclear]
  rfl

/-- A library exports the functions that ask for it. -/
def exported (p : Program) (f id : Nat) : Build Unit := do
  if p.kind = .base && (p.functionAt f).modifiers.has .exported then
    decorate id .linkageAttributes (textWords (p.functionAt f).name ++ [0])

instance (p : Program) (f id : Nat) : Composed Outside Span.Anywhere (exported p f id) := by
    unfold exported; infer_instance

lemma definition_eq (f : Nat) (parameters : List Nat) (body : Stmt) (span : Span) (s : Setting) (b : Builder) :
    (definition (.definition f parameters body span) s b).2 = match b.functionIds[f]? with
      | none => { b with span }
      | some id =>
        (exported s.program f id s (functionDefinition (s.program.functionAt f) id parameters body s
          { b with span }).2).2 := by
  change ((match b.functionIds[f]? with
    | none => pure ()
    | some id => _ : Build Unit) s { b with span }).2 = _
  cases b.functionIds[f]? <;> rfl

lemma exists_run_functionDefinition (f : Function) (id : Nat) (parameters : List Nat) (body : Stmt) (s : Setting)
    (hb : b.body = {}) : ∃ tr, Run b tr (functionDefinition f id parameters body s b).2 ∧
      (functionDefinition f id parameters body s b).2.body = {} := by
  rw [functionDefinition_of_body f id parameters body s hb]
  obtain ⟨tr, hrun⟩ := Composed.exists_run (m := functionParts f id parameters body) inferInstance s b
  exact ⟨_, hrun.trans (.single (.endFunction _ s)), rfl⟩

lemma exists_run_definition (e : Element) (s : Setting) (hb : b.body = {}) :
    ∃ tr, Run b tr (definition e s b).2 ∧ (definition e s b).2.body = {} := by
  cases e with
  | definition f parameters body span =>
    rw [definition_eq]
    cases b.functionIds[f]? with
    | none => exact ⟨[], .single (.keep rfl), hb⟩
    | some id =>
      obtain ⟨tr, hrun, hbody⟩ := exists_run_functionDefinition (s.program.functionAt f) id
        parameters body s (b := { b with span }) hb
      obtain ⟨tr', hexports⟩ := Composed.exists_run (m := exported s.program f id) inferInstance s
        (functionDefinition (s.program.functionAt f) id parameters body s { b with span }).2
      have hspan : Step b [] { b with span } := .keep rfl
      exact ⟨_, .cons hspan (hrun.trans hexports), (Composed.body_eq (exported s.program f id) s _).trans hbody⟩
  | _ => exact ⟨[], .nil b, hb⟩

lemma exists_run_definitions (es : List Element) (s : Setting) (hb : b.body = {}) :
    ∃ tr, Run b tr (es.forM definition s b).2 ∧ (es.forM definition s b).2.body = {} := by
  induction es generalizing b with
  | nil => exact ⟨[], .nil b, hb⟩
  | cons e es ih =>
    obtain ⟨tr, hrun, hbody⟩ := exists_run_definition e s hb
    obtain ⟨tr', hrest, hlast⟩ := ih hbody
    exact ⟨tr ++ tr', hrun.trans hrest, hlast⟩

lemma body_declarations {p : Program} (hp : p.Sound) (version : SpirvVersion) (journal : Journal) :
    (declarations ⟨p, version⟩ { journal }).2.body = {} := by
  let s : Setting := ⟨p, version⟩
  let b1 : Builder := { next := 2, mathSet := 1, modes := (stageModes p.kind).reverse, journal }
  have hempty : Builder.Distinct [] ({ journal } : Builder) :=
    ⟨Nat.le_refl 1, List.nodup_nil, fun x hx => absurd hx List.not_mem_nil⟩
  have h1 : Builder.Distinct [1] b1 := ⟨hempty.fresh.pos, hempty.fresh.nodup, hempty.fresh.range⟩
  have hreserved : Builder.Reserves p.definitions [1] b1 (p.elements.forM reserve s b1).2 :=
    Builder.reserve p.elements h1 hp.definitions
  let b2 := (p.elements.forM reserve s b1).2
  have htabled : b2.Tabled := by
    have hrest : b2 = { b1 with next := b2.next, functionIds := b2.functionIds } := hreserved.rest
    rw [hrest]
    refine ⟨fun {t id} ht => ?_, fun {id t} ht => ?_, nofun⟩
    · simp [b1] at ht
    · simp [b1] at ht
  have hbody : b2.body = {} := congrArg Builder.body hreserved.rest
  exact (makes_declarations (s := s) htabled hp.elements).1.body.trans hbody

/-- Nothing that is written while a program is turned into a module gets lost. -/
lemma exists_run_parts {p : Program} (hp : p.Sound) (version : SpirvVersion) (journal : Journal) :
    ∃ tr, Run { journal } tr (parts ⟨p, version⟩ { journal }).2 ∧
    (parts ⟨p, version⟩ { journal }).2.body = {} := by
  obtain ⟨tr, hdeclares⟩ := Composed.exists_run (m := declarations) inferInstance ⟨p, version⟩ { journal }
  obtain ⟨tr', hdefines, hlast⟩ := exists_run_definitions p.elements ⟨p, version⟩
    (body_declarations hp version journal)
  exact ⟨tr ++ tr', hdeclares.trans hdefines, hlast⟩

end Build

end Spirv

namespace Program

open Spirv (Builder Build Module Trace)

variable {p : Program} {version : SpirvVersion}

/-- The state before anything has been written. -/
def start (p : Program) (version : SpirvVersion) : Builder :=
    { journal := [.spirvStarted version p.kind p.elements.length] }

/-- The state after everything has been written. -/
def written (p : Program) (version : SpirvVersion) : Builder := (Build.parts ⟨p, version⟩ (p.start version)).2

lemma result_toSpirv : (p.toSpirv version).result =
    if (p.written version).journal.hasProblems then .error (.failed (p.written version).journal.diagnostics)
    else match ((p.written version).module ⟨p, version⟩).code.oversized with
      | some count => .error (.tooManyWords count)
      | none => .ok ((p.written version).module ⟨p, version⟩) := by
  change (if (p.written version).journal.hasProblems = true then (_ : Compilation Module)
    else match ((p.written version).module ⟨p, version⟩).code.oversized with | some _ => _ | none => _).result = _
  split
  · rfl
  · cases ((p.written version).module ⟨p, version⟩).code.oversized <;> rfl

lemma toSpirv_eq_ok_iff {m : Module} : (p.toSpirv version).result = .ok m ↔
    (p.written version).journal.hasProblems = false ∧
    ((p.written version).module ⟨p, version⟩).code.oversized = none ∧
      (p.written version).module ⟨p, version⟩ = m := by
  rw [result_toSpirv]
  cases (p.written version).journal.hasProblems with
  | true => simp
  | false => cases ((p.written version).module ⟨p, version⟩).code.oversized <;> simp

lemma toSpirv_eq_tooManyWords_iff {count : Nat} : (p.toSpirv version).result = .error (.tooManyWords count) ↔
    (p.written version).journal.hasProblems = false ∧
    ((p.written version).module ⟨p, version⟩).code.oversized = some count := by
  rw [result_toSpirv]
  cases (p.written version).journal.hasProblems with
  | true => simp
  | false => cases ((p.written version).module ⟨p, version⟩).code.oversized <;> simp

lemma exists_run (hp : p.Sound) (version : SpirvVersion) :
    ∃ tr : Trace, (p.start version).Run tr (p.written version) ∧ (p.written version).body = {} :=
  Build.exists_run_parts hp version _

end Program
end Shading
