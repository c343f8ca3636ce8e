import Shading.Proofs.Spirv.Trace

/-! Names for debugging change nothing else. A module that is written without them is the one with
them, less the names: the same ids are taken for the same things, and the same problems are
found. -/
namespace Shading

namespace Spirv

namespace Builder

/-- The second state is the first one without names. What is written once is there in both, unless
it is a name. -/
inductive Unnamed (b : Builder) : Builder → Prop
  | mk {ids : Std.TreeMap Template Nat (compareOn Template.key)} {journal : Journal}
    (hids : ∀ t : Template, t.op.isName = false → ids[t]? = b.ids[t]?)
    (hproblems : journal.hasProblems = b.journal.hasProblems) :
    Unnamed b (b.rename [] ids journal)

namespace Unnamed

variable {b b' : Builder}

/-- A change that does not look at names leaves them, the table and the journal alone. -/
lemma map (h : Unnamed b b') {f : Builder → Builder}
    (hf : ∀ b names ids journal, f (b.rename names ids journal) = (f b).rename names ids journal) :
    Unnamed (f b) (f b') := by
  obtain ⟨hids, hproblems⟩ := h
  have hsame : f b = (f b).rename b.names b.ids b.journal := hf b b.names b.ids b.journal
  have hsameIds : (f b).ids = b.ids := by
    rw [hsame]
    rfl
  have hsameJournal : (f b).journal = b.journal := by
    rw [hsame]
    rfl
  rw [hf]
  refine .mk (fun t ht => ?_) ?_
  · rw [hsameIds]
    exact hids t ht
  · rw [hsameJournal]
    exact hproblems

lemma note (h : Unnamed b b') (e : Event) : Unnamed { b with journal := e :: b.journal }
    { b' with journal := e :: b'.journal } := by
  obtain ⟨hids, hproblems⟩ := h
  exact .mk (b := { b with journal := e :: b.journal }) hids (congrArg (e.report?.isSome || ·) hproblems)

lemma note_left (h : Unnamed b b') {e : Event} (he : e.report? = none) :
    Unnamed { b with journal := e :: b.journal } b' := by
  obtain ⟨hids, hproblems⟩ := h
  refine .mk (b := { b with journal := e :: b.journal }) hids (hproblems.trans ?_)
  simp [Journal.hasProblems, he]

lemma name (h : Unnamed b b') {t : Template} (ht : t.op.isName = true) (i : Instruction) :
    Unnamed { b with names := i :: b.names, ids := b.ids.insert t 0 } b' := by
  obtain ⟨hids, hproblems⟩ := h
  refine .mk (b := { b with names := i :: b.names, ids := b.ids.insert t 0 })
    (fun u hu => (hids u hu).trans ?_) hproblems
  refine (getElem?_insert_template.trans (if_neg ?_)).symm
  rintro rfl
  rw [ht] at hu
  cases hu

lemma insert (h : Unnamed b b') (t : Template) (id : Nat) :
    Unnamed { b with ids := b.ids.insert t id } { b' with ids := b'.ids.insert t id } := by
  obtain ⟨hids, hproblems⟩ := h
  refine .mk (b := { b with ids := b.ids.insert t id }) (fun u hu => ?_) hproblems
  refine getElem?_insert_template.trans (Eq.trans ?_ getElem?_insert_template.symm)
  split
  · rfl
  · exact hids u hu

lemma hasProblems (h : Unnamed b b') : b'.journal.hasProblems = b.journal.hasProblems := by
  obtain ⟨-, hproblems⟩ := h
  exact hproblems

lemma refl (hb : b.names = []) : Unnamed b b := by
  have hsame : b = b.rename [] b.ids b.journal := by
    rw [← hb]
    rfl
  rw [hsame]
  exact .mk (fun _ _ => rfl) rfl

end Unnamed
end Builder

/-- The same setting, but names for debugging are not wanted. -/
def Setting.unnamed (s : Setting) : Setting := s.withOptions { s.program.options with emitNames := false }

namespace Build

open Builder (Unnamed)

variable {α β : Type} {m : Build α}

/-- The step does the same if names are not wanted, apart from the names. -/
def IgnoresNames (m : Build α) : Prop := ∀ (s : Setting) (b b' : Builder), Unnamed b b' →
  (m s.unnamed b').1 = (m s b).1 ∧ Unnamed (m s b).2 (m s.unnamed b').2

namespace IgnoresNames

lemma pure (a : α) : IgnoresNames (pure a) := fun _ _ _ h => ⟨rfl, h⟩

lemma bind_of {f : α → Build β} {Q : α → Prop} (hm : IgnoresNames m) (hQ : Gives Span.Anywhere m Q)
    (hf : ∀ a, Q a → IgnoresNames (f a)) :
    IgnoresNames (m >>= f) := by
  intro s b b' h
  obtain ⟨hanswer, hstate⟩ := hm s b b' h
  change (f (m s.unnamed b').1 s.unnamed (m s.unnamed b').2).1 = (f (m s b).1 s (m s b).2).1 ∧
    Unnamed (f (m s b).1 s (m s b).2).2 (f (m s.unnamed b').1 s.unnamed (m s.unnamed b').2).2
  rw [hanswer]
  exact hf (m s b).1 (hQ s b inferInstance) s _ _ hstate

lemma bind {f : α → Build β} (hm : IgnoresNames m) (hf : ∀ a, IgnoresNames (f a)) : IgnoresNames (m >>= f) :=
  bind_of (Q := fun _ => True) hm (fun _ _ _ => trivial) fun a _ => hf a

lemma of_modify {f : Builder → Builder} (hf : ∀ b names ids journal,
    f (b.rename names ids journal) = (f b).rename names ids journal) :
    IgnoresNames (modify f : Build Unit) :=
  fun _ _ _ h => ⟨rfl, h.map hf⟩

lemma fresh : IgnoresNames fresh := by
  intro s b b' h
  exact ⟨by cases h; rfl, h.map (f := fun b => { b with next := b.next + 1 }) fun _ _ _ _ => rfl⟩

lemma append {part : Section} (hpart : part ≠ .names) (i : Instruction) : IgnoresNames (append part i) := by
  cases part with
  | names => exact absurd rfl hpart
  | _ => exact of_modify fun _ _ _ _ => rfl

lemma remember (t : Template) (id : Nat) : IgnoresNames (remember t id) := by
  intro s b b' h
  refine ⟨rfl, ?_⟩
  have htemplates {b b' : Builder} (h : Unnamed b b') :=
    h.map (f := fun b => { b with templates := b.templates.insert id t }) fun _ _ _ _ => rfl
  rw [remember_eq, remember_eq]
  cases t.sharing with
  | noResult => exact h.insert t id
  | unique => exact htemplates h
  | shared => exact htemplates (h.insert t id)
  | keyed key => exact htemplates (h.insert t id)

lemma write {part : Section} (hpart : part ≠ .names) (t : Template) : IgnoresNames (write part t) := by
  have hrest (id : Nat) : IgnoresNames (do Build.append part (t.instruction id); Build.remember t id; return id) :=
    bind (append hpart (t.instruction id)) fun _ => bind (remember t id) fun _ => pure id
  unfold Build.write
  split
  · exact hrest 0
  · exact bind fresh hrest

lemma once {part : Section} {t : Template} (hpart : part ≠ .names) (ht : t.op.isName = false) :
    IgnoresNames (once part t) := by
  intro s b b' h
  have hids : b'.ids[t]? = b.ids[t]? := by
    obtain ⟨hids, -⟩ := h
    exact hids t ht
  rw [once_eq, once_eq, hids]
  cases b.ids[t]? with
  | some id => exact ⟨rfl, h.note _⟩
  | none => exact write hpart t s b b' h

lemma named {p : Setting → Bool} {t : Template} (hp : ∀ s : Setting, p s.unnamed = false) (ht : t.op.isName = true)
    (hsharing : t.sharing = .noResult) : IgnoresNames
    (do if p (← read) then let _ ← Build.once .names t : Build Unit) := by
  intro s b b' h
  let naming (s : Setting) : Build Unit := if p s then Build.once .names t >>= fun _ =>
    Pure.pure () else Pure.pure ()
  have hunnamed : naming s.unnamed = Pure.pure () := by simp [naming, hp]
  change _ ∧ Unnamed (naming s s b).2 (naming s.unnamed s.unnamed b').2
  rw [hunnamed]
  refine ⟨rfl, ?_⟩
  change Unnamed (naming s s b).2 b'
  unfold naming
  split
  · change Unnamed (Build.once .names t s b).2 b'
    rw [once_eq]
    cases b.ids[t]? with
    | some id => exact h.note_left rfl
    | none =>
      rw [write_note hsharing]
      exact h.name ht _
  · exact h

lemma of_quiet {P : Span → Prop} (h : Quiet P α m) : IgnoresNames m := by
  cases h with
  | @note e _ => exact fun _ _ _ h => ⟨rfl, h.note e⟩
  | fresh => exact fresh
  | @once part t hpart ht =>
    exact once hpart (Bool.eq_false_iff.mpr fun hname => hpart ((Template.isName_of_belongs ht).mp hname))
  | name target text =>
    exact named (p := fun s => s.program.options.emitNames && !text.isEmpty) (fun _ => rfl) rfl rfl
  | nameMember target member text => exact named (p := fun s => s.program.options.emitNames) (fun _ => rfl) rfl rfl
  | setSpan h => exact of_modify fun _ _ _ _ => rfl

lemma of_outside {P : Span → Prop} (h : Outside P α m) : IgnoresNames m := by
  cases h with
  | quiet h => exact of_quiet h
  | declare type operands =>
    exact bind fresh fun id => bind (append (by simp : Section.globals ≠ .names) _) fun _ => pure id
  | modify h hbody hframe => exact of_modify h.rename

lemma of_whole {P : Span → Prop} (h : Whole P α m) : IgnoresNames m := by
  cases h with
  | active h =>
    cases h with
    | outside h => exact of_outside h
    | modify h => exact of_modify h.rename
    | push h | pushLocal h | appendHeader h => exact of_modify fun _ _ _ _ => rfl
  | clear | endFunction => exact of_modify fun _ _ _ _ => rfl

lemma of_composed (h : Composed Whole Span.Anywhere m) : IgnoresNames m := by
  induction h with
  | elementary h => exact of_whole h
  | pure a => exact pure a
  | bind_of _ hQ _ ihm ihf => exact bind_of ihm hQ ihf
  | @ask _ f hf _ ih =>
    intro s b b' h
    change (f s.unnamed s.unnamed b').1 = (f s s b).1 ∧ Unnamed (f s s b).2 (f s.unnamed s.unnamed b').2
    rw [show f s.unnamed = f s from hf s _]
    exact ih s inferInstance s b b' h
  | @look _ f hf _ ih =>
    intro s b b' h
    change (f b' s.unnamed b').1 = (f b s b).1 ∧ Unnamed (f b s b).2 (f b' s.unnamed b').2
    have hsame : f b' = f b := by
      cases h
      exact hf b _ _ _
    rw [hsame]
    exact ih b b.spanned_anywhere s b b' h

end IgnoresNames
end Build

/-- The same module without names for debugging. -/
def Module.unnamed (m : Module) : Module :=
  { m with
    instructions := m.instructions.filter fun i => !i.op.isName
    code := .writeAll {} (m.instructions.filter fun i => !i.op.isName) }

namespace Builder

variable {b b' : Builder} {tr : Trace} {journal : Journal}

/-- Without its names, the module of a run is the module of the state without names. -/
lemma Run.instructions_unnamed (h : Run { journal } tr b) (hbody : b.body = {}) (hb : Unnamed b b') (s : Setting) :
    (b'.module s.unnamed).instructions = (b.module s).unnamed.instructions := by
  have hname (stream : Stream) {i : Instruction} (hi : i ∈ b.stream stream) : i.op.isName = true ↔
    stream = .names := by
    obtain ⟨part, rfl, hpart⟩ | ⟨hshared, rfl | rfl⟩ := h.isPlaced hi
    · rw [Op.isName_iff, show i.op.section? = some part from hpart]
      cases part <;> simp [Section.stream]
    all_goals simp [Op.isName_of_isShared hshared]
  have hnames : b.names.reverse.filter (fun i => !i.op.isName) = [] := by
    refine List.filter_eq_nil_iff.mpr fun i hi => ?_
    simp [(hname .names (List.mem_reverse.mp hi)).mpr rfl]
  have hkept (stream : Stream) (hstream : stream ≠ .names) :
      (b.stream stream).reverse.filter (fun i => !i.op.isName) = (b.stream stream).reverse := by
    refine List.filter_eq_self.mpr fun i hi => ?_
    have hnot : ¬ i.op.isName = true := fun hi' => hstream ((hname stream (List.mem_reverse.mp hi)).mp hi')
    simp [hnot]
  have hpreamble : (b.preamble s.program).filter (fun i => !i.op.isName) = b.preamble s.program := by
    refine List.filter_eq_self.mpr fun i hi => ?_
    simp [Op.isName_of_isShared (b.isShared_preamble s.program i hi)]
  have hdecorations := hkept .decorations nofun
  have hglobals := hkept .globals nofun
  have htext := hkept .functions nofun
  rw [stream_functions hbody] at htext
  change _ = List.filter _ (_ ++ _ ++ _ ++ _ ++ _)
  simp only [List.filter_append]
  rw [hpreamble, hnames, htext, show b.decorations.reverse.filter _ = _ from hdecorations,
    show b.globals.reverse.filter _ = _ from hglobals]
  obtain ⟨hids, -⟩ := hb
  rfl

lemma Run.module_unnamed {tr' : Trace} (h : Run { journal } tr b) (h' : Run { journal } tr' b')
    (hbody : b.body = {})
    (hb : Unnamed b b') (s : Setting) : b'.module s.unnamed = (b.module s).unnamed := by
  have hinstructions := h.instructions_unnamed hbody hb s
  have hcode : (b'.module s.unnamed).code = (b.module s).unnamed.code := by
    rw [h'.code_module, hinstructions]
    rfl
  have hnext : b'.next = b.next := by
    obtain ⟨hids, -⟩ := hb
    rfl
  change (⟨s.version, b'.next, (b'.module s.unnamed).instructions, (b'.module s.unnamed).code⟩ : Module) = _
  rw [hinstructions, hcode, hnext]
  rfl

end Builder
end Spirv

namespace Program

open Spirv (Builder Build Module Trace WordBuffer)

variable {p : Program} {version : SpirvVersion} {m : Module}

lemma read_withOptions (source : String) (kind : ShaderKind) (options options' : CompileOptions) :
    Program.read source kind options' =
    ((Program.read source kind options).1.map fun p =>
    { p with options := options' }, (Program.read source kind options).2) := by
  change (if (Grammar.finish source kind options).context.journal.hasProblems then _ else _ :
    Option Program × Journal) = _
  unfold Program.read
  dsimp only
  split <;> rfl

lemma parse_withOptions {source : String} {kind : ShaderKind} {options : CompileOptions}
    (hp : (Program.parse source kind options).result = .ok p)
    (options' : CompileOptions) : (Program.parse source kind options').result =
    .ok { p with options := options' } := by
  unfold Program.parse at hp ⊢
  dsimp only at hp ⊢
  rw [read_withOptions source kind options options']
  split at hp
  · cases hp
  · rename_i hlength
    rw [if_neg hlength]
    split at hp
    · rename_i hread
      cases hp
      rw [hread]
      rfl
    · cases hp

lemma options_of_parse {source : String} {kind : ShaderKind} {options : CompileOptions}
    (hp : (Program.parse source kind options).result = .ok p) :
    p.options = options :=
  congrArg Program.options (Except.ok.inj (hp.symm.trans (parse_withOptions hp options)))

end Program
end Shading
