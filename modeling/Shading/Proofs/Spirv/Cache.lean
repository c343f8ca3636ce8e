import Shading.Proofs.Spirv.Trace

/-! What is written once. The two tables of a builder are each other's inverse, as far as
instructions are shared: an instruction that has been written is found again under its id, under an
id only that one instruction is found, and the list of its section holds it once. Only the types of
structs are written as often as they are asked for. -/
namespace Shading

namespace Spirv

lemma Section.stream_injective : Function.Injective Section.stream := by
  intro part part' h
  cases part <;> cases part' <;> first | rfl | cases h

namespace Builder

variable {b b' : Builder} {t u : Template} {id x : Nat} {part : Section} {tr : Trace}

/-- The instruction has been written under the id, which is zero if there is no result. -/
def Wrote (b : Builder) (t : Template) (id : Nat) : Prop :=
  if t.sharing = .noResult then id = 0 ∧ b.ids[t]? = some 0 else b.templates[id]? = some t

/-- The tables know what has been written, and the lists of the sections hold it once. -/
structure Cached (b : Builder) : Prop where
  ids : ∀ {t : Template} {id : Nat}, b.ids[t]? = some id ↔ t.sharing ≠ .unique ∧ b.Wrote t id
  lt : ∀ {t : Template} {id : Nat}, t.sharing ≠ .noResult → b.Wrote t id → id < b.next
  count : ∀ {t : Template} {id : Nat} {part : Section}, t.belongs part = true → b.Wrote t id →
    (b.stream part.stream).count (t.instruction id) = 1
  origin : ∀ {part : Section} {i : Instruction}, i ∈ b.stream part.stream → i.op.isShared = true →
    ∃ t id, t.belongs part = true ∧ b.Wrote t id ∧ i = t.instruction id

/-! ### A new instruction -/

/-- How an instruction that is written gets into the tables. -/
structure Enters (t : Template) (id : Nat) (b b' : Builder) : Prop where
  answer : id = if t.sharing = .noResult then 0 else b.next
  next : b'.next = if t.sharing = .noResult then b.next else b.next + 1
  ids : b'.ids = if t.sharing = .unique then b.ids else b.ids.insert t id
  templates : b'.templates = if t.sharing = .noResult then b.templates else b.templates.insert id t

lemma enters_write (ht : t.belongs part = true) (s : Setting) :
    Enters t (Build.write part t s b).1 b (Build.write part t s b).2 := by
  by_cases hresult : t.sharing = .noResult
  · have hunique : t.sharing ≠ .unique := by simp [hresult]
    rw [Build.write_note hresult]
    constructor
    · rw [if_pos hresult]
    · rw [if_pos hresult]
      cases part <;> rfl
    · rw [if_neg hunique]
      cases part <;> rfl
    · rw [if_pos hresult]
      cases part <;> rfl
  · obtain rfl := Template.eq_globals_of_belongs ht hresult
    rw [Build.write_eq hresult]
    constructor
    · rw [if_neg hresult]
    · rw [if_neg hresult]
    · rfl
    · rw [if_neg hresult]

namespace Enters

variable (h : Enters t id b b')
include h

lemma getElem?_ids : b'.ids[u]? = if t.sharing ≠ .unique ∧ t = u then some id else b.ids[u]? := by
  rw [h.ids]
  by_cases hunique : t.sharing = .unique
  · simp [hunique]
  · simp [hunique, getElem?_insert_template]

lemma getElem?_templates : b'.templates[x]? =
    if t.sharing ≠ .noResult ∧ id = x then some t else b.templates[x]? := by
  rw [h.templates]
  by_cases hresult : t.sharing = .noResult
  · simp [hresult]
  · simp [hresult, Std.TreeMap.getElem?_insert]

/-- What has been written afterwards has been written before, or is the new instruction. -/
lemma wrote_iff (hb : Cached b) (hnew : b.ids[t]? = none) : b'.Wrote u x ↔ b.Wrote u x ∨ u = t ∧ x = id := by
  by_cases hu : u.sharing = .noResult
  · rw [Wrote, Wrote, if_pos hu, if_pos hu, h.getElem?_ids]
    by_cases htu : t = u
    · subst htu
      have hid : id = 0 := by rw [h.answer, if_pos hu]
      simp [hu, hnew, hid]
    · simp [htu, Ne.symm htu]
  · rw [Wrote, Wrote, if_neg hu, if_neg hu, h.getElem?_templates]
    by_cases hx : t.sharing ≠ .noResult ∧ id = x
    · have hid : id = b.next := by rw [h.answer, if_neg hx.1]
      have hnone : b.templates[x]? ≠ some u := fun hwrote => by
        have hlt : x < b.next := hb.lt hu (by rwa [Wrote, if_neg hu])
        omega
      rw [if_pos hx]
      simp [hnone, hx.2, eq_comm]
    · have hother : ¬ (u = t ∧ x = id) := by
        rintro ⟨rfl, rfl⟩
        exact hx ⟨hu, rfl⟩
      rw [if_neg hx]
      simp [hother]

lemma not_mem_stream (hb : Cached b) (ht : t.belongs part = true) (hnew : b.ids[t]? = none) :
    t.instruction id ∉ b.stream part.stream := by
  intro hmem
  have hshared : (t.instruction id).op.isShared = true := by
    change t.op.section?.isSome = true
    rw [Template.section?_of_belongs ht]
    rfl
  obtain ⟨u, x, hu, hwrote, heq⟩ := hb.origin hmem hshared
  have hsame : t.sharing = .noResult ↔ u.sharing = .noResult :=
    (Template.noResult_of_belongs ht).trans (Template.noResult_of_belongs hu).symm
  by_cases hresult : t.sharing = .noResult
  · have htu : u = t := by
      simp only [Template.instruction, Instruction.mk.injEq] at heq
      cases t; cases u
      simp_all
    rw [Wrote, if_pos (hsame.mp hresult), htu, hnew] at hwrote
    cases hwrote.2
  · have hid : id = b.next := by rw [h.answer, if_neg hresult]
    have hx : x = id := by
      have hresults := congrArg Instruction.result heq
      simp only [Template.instruction, if_neg hresult, if_neg (mt hsame.mpr hresult),
        Option.some.injEq] at hresults
      exact hresults.symm
    have hlt := hb.lt (mt hsame.mpr hresult) hwrote
    omega

lemma cached (hb : Cached b) (ht : t.belongs part = true) (hnew : b.ids[t]? = none)
    (hstream : ∀ stream, b'.stream stream = Trace.on [(part.stream, t.instruction id)] stream ++
    b.stream stream) : Cached b' := by
  have hwrote {u : Template} {x : Nat} := h.wrote_iff (u := u) (x := x) hb hnew
  refine ⟨fun {u x} => ?_, fun {u x} hu hux => ?_, fun {u x part'} hu hux => ?_, fun {part' i} hi hshared => ?_⟩
  · rw [h.getElem?_ids, hwrote]
    by_cases htu : t.sharing ≠ .unique ∧ t = u
    · obtain ⟨hunique, rfl⟩ := htu
      have hnone : ¬ b.Wrote t x := fun hux => by
        have := hb.ids.mpr ⟨hunique, hux⟩
        rw [hnew] at this
        cases this
      simp [hunique, hnone, eq_comm]
    · rw [if_neg htu, hb.ids]
      have : ¬ (u.sharing ≠ .unique ∧ u = t) := by
        rintro ⟨hunique, rfl⟩
        exact htu ⟨hunique, rfl⟩
      tauto
  · obtain hux | ⟨rfl, rfl⟩ := hwrote.mp hux
    · have := hb.lt hu hux
      have := h.next
      split at this <;> omega
    · rw [h.answer, h.next, if_neg hu, if_neg hu]
      omega
  · rw [hstream, List.count_append, Trace.on_cons, Trace.on_nil]
    obtain hux | ⟨rfl, rfl⟩ := hwrote.mp hux
    · have hold := hb.count hu hux
      rw [hold]
      split
      · -- were the new instruction this one, its list would hold it already
        rename_i hpart
        have hne : t.instruction id ≠ u.instruction x := fun heq => by
          refine h.not_mem_stream hb ht hnew ?_
          rw [heq, Section.stream_injective hpart]
          exact List.count_pos_iff.mp (by omega)
        simp [hne]
      · rfl
    · obtain rfl : part = part' := Option.some.inj
        ((Template.section?_of_belongs ht).symm.trans (Template.section?_of_belongs hu))
      simp [List.count_eq_zero.mpr (h.not_mem_stream hb ht hnew)]
  · rw [hstream, List.mem_append, Trace.mem_on, List.mem_singleton, Prod.mk.injEq] at hi
    obtain ⟨hpart, rfl⟩ | hi := hi
    · obtain rfl := Section.stream_injective hpart
      exact ⟨t, id, ht, hwrote.mpr (.inr ⟨rfl, rfl⟩), rfl⟩
    · obtain ⟨u, x, hu, hux, rfl⟩ := hb.origin hi hshared
      exact ⟨u, x, hu, hwrote.mpr (.inl hux), rfl⟩

end Enters

namespace Cached

lemma start (journal : Journal) : Cached { journal } where
  ids {t id} := by simp [Wrote]
  lt ht h := by simp [Wrote, ht] at h
  count _ h := by simp [Wrote] at h
  origin {part i} hi := by cases part <;> cases hi

lemma grow (hb : Cached b) (hids : b'.ids = b.ids) (htemplates : b'.templates = b.templates)
    (hnext : b.next ≤ b'.next)
    (hstream : ∀ part : Section, ∃ is : List Instruction,
    b'.stream part.stream = is ++ b.stream part.stream ∧ ∀ i ∈ is, i.op.isShared = false) :
    Cached b' := by
  have hwrote {t : Template} {id : Nat} : b'.Wrote t id ↔ b.Wrote t id := by rw [Wrote, Wrote, hids, htemplates]
  refine ⟨fun {t id} => ?_, fun ht h => Nat.lt_of_lt_of_le (hb.lt ht (hwrote.mp h)) hnext,
    fun {t id part} ht h => ?_, fun {part i} hi hshared => ?_⟩
  · rw [hids, hwrote]
    exact hb.ids
  · obtain ⟨is, his, hothers⟩ := hstream part
    have hnone : is.count (t.instruction id) = 0 := by
      refine List.count_eq_zero.mpr fun hmem => ?_
      have hshared : t.op.section?.isSome = false := hothers _ hmem
      simp [Template.section?_of_belongs ht] at hshared
    rw [his, List.count_append, hnone, Nat.zero_add]
    exact hb.count ht (hwrote.mp h)
  · obtain ⟨is, his, hothers⟩ := hstream part
    rw [his, List.mem_append] at hi
    obtain hi | hi := hi
    · simp [hothers i hi] at hshared
    · obtain ⟨t, id, ht, h, rfl⟩ := hb.origin hi hshared
      exact ⟨t, id, ht, hwrote.mpr h, rfl⟩

lemma step (hb : Cached b) (h : Step b tr b') : Cached b' := by
  have hsame {b' : Builder} (hids : b'.ids = b.ids) (htemplates : b'.templates = b.templates)
    (hnext : b.next ≤ b'.next)
      (hstream : ∀ part : Section, b'.stream part.stream = b.stream part.stream) : Cached b' :=
    hb.grow hids htemplates hnext fun part => ⟨[], hstream part, by simp⟩
  cases h with
  | keep h =>
    have hcontent {α : Type} (f : Builder → α) : f b'.content = f b.content := congrArg f h
    exact hsame (hcontent (·.ids)) (hcontent (·.templates)) (Nat.le_of_eq (hcontent (·.next)).symm)
      fun part => stream_of_content h part.stream
  | fresh => exact hsame rfl rfl (Nat.le_succ _) fun part => by cases part <;> rfl
  | write s ht hnew => exact (enters_write ht s).cached hb ht hnew (stream_write s ht)
  | declare s type operands =>
    refine hb.grow rfl rfl (Nat.le_succ _) fun part => ?_
    cases part with
    | globals => exact ⟨[_], rfl, List.forall_mem_singleton.mpr rfl⟩
    | _ => exact ⟨[], rfl, by simp⟩
  | push s hi => exact hsame rfl rfl (Nat.le_refl _) fun part => by cases part <;> rfl
  | pushLocal s hi => exact hsame rfl rfl (Nat.le_refl _) fun part => by cases part <;> rfl
  | appendHeader s hi => exact hsame rfl rfl (Nat.le_refl _) fun part => by cases part <;> rfl
  | endFunction s => exact hsame rfl rfl (Nat.le_refl _) fun part => by cases part <;> rfl

lemma run (hb : Cached b) (h : Run b tr b') : Cached b' := by
  induction h with
  | nil => exact hb
  | cons hstep _ ih => exact ih (hb.step hstep)

end Cached

lemma Step.wrote (h : Step b tr b') (hb : Cached b) (ht : b.Wrote t id) : b'.Wrote t id := by
  have hsame {b' : Builder} (hids : b'.ids = b.ids) (htemplates : b'.templates = b.templates) : b'.Wrote t id := by
    rwa [Wrote, hids, htemplates]
  cases h with
  | keep h =>
    have hcontent {α : Type} (f : Builder → α) : f b'.content = f b.content := congrArg f h
    exact hsame (hcontent (·.ids)) (hcontent (·.templates))
  | write s hu hnew => exact ((enters_write hu s).wrote_iff hb hnew).mpr (.inl ht)
  | _ => exact hsame rfl rfl

lemma Run.wrote (h : Run b tr b') (hb : Cached b) (ht : b.Wrote t id) : b'.Wrote t id := by
  induction h with
  | nil => exact ht
  | cons hstep _ ih => exact ih (hb.step hstep) (hstep.wrote hb ht)

lemma Wrote.eq (ht : t.sharing ≠ .noResult) (hu : u.sharing ≠ .noResult) (h : b.Wrote t id)
    (h' : b.Wrote u id) : t = u := by
  rw [Wrote, if_neg ht] at h
  rw [Wrote, if_neg hu] at h'
  exact Option.some.inj (h.symm.trans h')

lemma Cached.id_unique (hb : Cached b) (ht : t.sharing ≠ .unique) (h : b.Wrote t id) (h' : b.Wrote t x) : id = x :=
  Option.some.inj ((hb.ids.mpr ⟨ht, h⟩).symm.trans (hb.ids.mpr ⟨ht, h'⟩))

lemma wrote_once (hb : Cached b) (ht : t.belongs part = true) (s : Setting) :
    (Build.once part t s b).2.Wrote t (Build.once part t s b).1 := by
  rw [Build.once_eq]
  cases hfound : b.ids[t]? with
  | some id => exact (hb.ids.mp hfound).2
  | none => exact ((enters_write ht s).wrote_iff hb hfound).mpr (.inr ⟨rfl, rfl⟩)

lemma Cached.once_again (hb : Cached b) (ht : t.sharing ≠ .unique) (hid : b.Wrote t id)
    (part : Section) (s : Setting) :
    (Build.once part t s b).1 = id := by
  rw [Build.once_eq, hb.ids.mpr ⟨ht, hid⟩]

/-- Asking for another instruction gives another id, and so does asking for any that cannot be
shared. -/
lemma Cached.once_other (hb : Cached b) (hu : u.belongs part = true) (ht : t.sharing ≠ .noResult)
    (hresult : u.sharing ≠ .noResult)
    (hother : u ≠ t ∨ t.sharing = .unique) (hid : b.Wrote t id) (s : Setting) :
    (Build.once part u s b).1 ≠ id := by
  rintro rfl
  obtain ⟨tr, hrun⟩ := Build.exists_run_once hu s b
  obtain rfl := (wrote_once hb hu s).eq hresult ht (hrun.wrote hb hid)
  have hunique := hother.resolve_left fun h => h rfl
  have hnew : b.ids[u]? = none := by
    refine Option.eq_none_iff_forall_ne_some.mpr fun x hx => ?_
    exact (hb.ids.mp hx).1 hunique
  have hnext : (Build.once part u s b).1 = b.next := by
    rw [Build.once_eq, hnew]
    exact (enters_write hu s).answer.trans (if_neg hresult)
  have hlt := hb.lt hresult hid
  omega

/-! ### Types -/

/-- Of what is shared without a key, the list of its section holds one instruction, whatever its
id. -/
lemma Cached.eq_of_mem (hb : Cached b) (ht : t.belongs part = true)
    (hsharing : t.sharing = .shared ∨ t.sharing = .noResult) (hid : b.Wrote t id)
    {i : Instruction} (hi : i ∈ b.stream part.stream) (hop : i.op = t.op) (htype : i.type = t.type)
    (hoperands : i.operands = t.operands) :
    i = t.instruction id := by
  have hshared : i.op.isShared = true := by
    rw [hop, Op.isShared, Template.section?_of_belongs ht]
    rfl
  obtain ⟨u, x, hu, hux, rfl⟩ := hb.origin hi hshared
  have hsame : u.sharing = t.sharing := by
    have htsharing := (Template.belongs_iff.mp ht).2.1
    rw [(Template.belongs_iff.mp hu).2.1, show u.op = t.op from hop, htsharing]
    exact Op.sharing_eq_of_shared (htsharing ▸ hsharing)
  obtain rfl : u = t := by
    cases t; cases u
    simp_all [Template.instruction]
  have hunique : u.sharing ≠ .unique := by
    rintro h
    simp [h] at hsharing
  rw [hb.id_unique hunique hux hid]

lemma Cached.nodup_types (hb : Cached b) : ((b.globals.filter (·.op.isPlainType)).map fun i =>
    (i.op, i.operands)).Nodup := by
  have hwritten {i : Instruction} (hi : i ∈ b.globals.filter (·.op.isPlainType)) : i ∈ b.globals ∧
      ∃ t id, t.belongs .globals = true ∧ t.sharing = .shared ∧ t.type = none ∧ b.Wrote t id ∧
        i = t.instruction id := by
    obtain ⟨hi, hplain⟩ := List.mem_filter.mp hi
    have hshared : i.op.isShared = true := by
      rw [Op.isShared, Op.section?_of_isPlainType hplain]
      rfl
    obtain ⟨t, id, ht, hid, rfl⟩ := hb.origin (show i ∈ b.stream Section.globals.stream from hi) hshared
    refine ⟨hi, t, id, ht, ?_, (Template.belongs_iff.mp ht).2.2 hplain, hid, rfl⟩
    rw [(Template.belongs_iff.mp ht).2.1]
    exact Op.sharing_of_isPlainType hplain _
  refine List.Nodup.map_on (fun i hi j hj heq => ?_) (List.nodup_iff_count_le_one.mpr fun i => ?_)
  · obtain ⟨-, t, id, ht, hshared, htype, hid, rfl⟩ := hwritten hi
    obtain ⟨hj, u, x, -, -, hutype, -, rfl⟩ := hwritten hj
    obtain ⟨hop, hoperands⟩ := Prod.mk.inj heq
    exact (hb.eq_of_mem ht (.inl hshared) hid hj hop.symm (hutype.trans htype.symm) hoperands.symm).symm
  · by_cases hi : i ∈ b.globals.filter (·.op.isPlainType)
    · obtain ⟨-, t, id, ht, -, -, hid, rfl⟩ := hwritten hi
      have hcount : b.globals.count (t.instruction id) = 1 := hb.count ht hid
      exact (List.Sublist.count_le _ List.filter_sublist).trans (Nat.le_of_eq hcount)
    · rw [List.count_eq_zero.mpr hi]
      omega

/-- Types are written nowhere but among the types, constants and global variables. -/
lemma Run.filter_isPlainType {journal : Journal} (h : Run { journal } tr b) (hbody : b.body = {}) (s : Setting) :
    (b.module s).instructions.filter (·.op.isPlainType) = (b.globals.filter (·.op.isPlainType)).reverse := by
  have hnone (stream : Stream) (hstream : stream ≠ .globals) :
    (b.stream stream).reverse.filter (·.op.isPlainType) = [] := by
    refine List.filter_eq_nil_iff.mpr fun i hi hplain => ?_
    have hi := h.isPlaced (List.mem_reverse.mp hi)
    simp only [IsPlaced, Op.isShared, Op.section?_of_isPlainType hplain, Option.some.injEq,
      Option.isSome_some] at hi
    obtain ⟨part, hpart, rfl⟩ | ⟨hshared, -⟩ := hi
    · exact hstream hpart
    · cases hshared
  have hpreamble : (b.preamble s.program).filter (·.op.isPlainType) = [] := by
    refine List.filter_eq_nil_iff.mpr fun i hi hplain => ?_
    have hshared := b.isShared_preamble s.program i hi
    rw [Op.isShared, Op.section?_of_isPlainType hplain] at hshared
    cases hshared
  have hnames := hnone .names (by simp)
  have hdecorations := hnone .decorations (by simp)
  have htext := hnone .functions (by simp)
  rw [stream_functions hbody] at htext
  change List.filter _ (_ ++ _ ++ _ ++ _ ++ _) = _
  simp only [List.filter_append, List.filter_reverse] at *
  rw [hpreamble, show (b.names.filter _).reverse = _ from hnames,
    show (b.decorations.filter _).reverse = _ from hdecorations, htext]
  simp

end Builder
end Spirv

open Spirv (Builder Build Template Trace Section Setting Operand)

/-- Whatever a builder has written so far, and whatever it writes between two questions: asked twice
for the same instruction it gives the same id, unless the instruction is the type of a struct, and
asked for different ones with a result it gives different ids. Under the id it finds the instruction
again, with the parts of a constant composite, and the list of the section holds the instruction
once, with the id as its result. So no two types of a module are the same but those of structs and
arrays. -/
theorem instructions_shared :
    (∀ (journal : Journal) (tr tr' : Trace) (b b₁ b₂ b₃ : Builder) (s s' : Setting)
      (part part' : Section) (t t' : Template) (id id' : Nat),
      Builder.Run { journal } tr b → t.belongs part = true → Build.once part t s b = (id, b₁) →
      b₁.Run tr' b₂ → t'.belongs part' = true → Build.once part' t' s' b₂ = (id', b₃) →
      (t' = t → t.op ≠ .typeStruct → id' = id) ∧
      (t.sharing ≠ .noResult → t'.sharing ≠ .noResult → t' ≠ t ∨ t.op = .typeStruct → id' ≠ id) ∧
      (t.sharing ≠ .noResult → b₂.templates[id]? = some t ∧ (t.instruction id).result = some id) ∧
      (∀ parts, t.op = .constantComposite → t.operands = Operand.ids parts →
      b₂.templates[id]?.map Template.constituents = some parts) ∧
      (b₂.stream part.stream).count (t.instruction id) = 1 ∧
      (t.op ≠ .typeStruct → t.op ≠ .typeArray → t.op ≠ .typeRuntimeArray →
        (b₂.stream part.stream).countP (fun i => i.op = t.op ∧ i.type = t.type ∧ i.operands = t.operands) = 1)) ∧
    ∀ (source : String) (kind : ShaderKind) (options : CompileOptions) (version : SpirvVersion)
    (p : Program) (m : Spirv.Module),
      (Program.parse source kind options).result = .ok p → (p.toSpirv version).result = .ok m →
      (∃ tr, (p.start version).Run tr (p.written version)) ∧
      ((m.instructions.filter fun i => i.op.isPlainType).map fun i => (i.op, i.operands)).Nodup := by
  refine ⟨?_, fun source kind options version p m hp hm => ?_⟩
  · intro journal tr tr' b b₁ b₂ b₃ s s' part part' t t' id id' hrun ht hasked hrun' ht' hasked'
    obtain ⟨rfl, rfl⟩ : (Build.once part t s b).1 = id ∧ (Build.once part t s b).2 = b₁ := by simp [hasked]
    obtain rfl : (Build.once part' t' s' b₂).1 = id' := by simp [hasked']
    have hb := (Builder.Cached.start journal).run hrun
    obtain ⟨_, honce⟩ := Build.exists_run_once ht s b
    have hb₂ := (hb.run honce).run hrun'
    have hwrote := hrun'.wrote (hb.run honce) (Builder.wrote_once hb ht s)
    have htemplate (hresult : t.sharing ≠ .noResult) : b₂.templates[(Build.once part t s b).1]? = some t := by
      rwa [Builder.Wrote, if_neg hresult] at hwrote
    have hunique := Template.unique_of_belongs ht
    refine ⟨?_, fun hresult hresult' hother => ?_, fun hresult =>
      ⟨htemplate hresult, if_neg hresult⟩, fun parts hop hparts => ?_, hb₂.count ht hwrote, ?_⟩
    · rintro rfl hstruct
      exact hb₂.once_again (mt hunique.mp hstruct) hwrote part' s'
    · exact hb₂.once_other ht' hresult hresult' (hother.imp_right hunique.mpr) hwrote s'
    · have hresult : t.sharing ≠ .noResult := by
        simp [(Template.belongs_iff.mp ht).2.1, hop, Spirv.Op.sharing]
      rw [htemplate hresult, Option.map_some, Template.constituents, if_pos hop, hparts]
      simp [Operand.ids, List.filterMap_map, Function.comp_def, Operand.id?]
    · intro hstruct harray hruntime
      have hsharing : t.sharing = .shared ∨ t.sharing = .noResult := by
        rw [(Template.belongs_iff.mp ht).2.1]
        exact Spirv.Op.sharing_of_ne hstruct harray hruntime
      rw [← hb₂.count ht hwrote, List.count, List.countP_congr]
      intro i hi
      simp only [decide_eq_true_eq, beq_iff_eq]
      constructor
      · rintro ⟨hop, htype, hoperands⟩
        exact hb₂.eq_of_mem ht hsharing hwrote hi hop htype hoperands
      · rintro rfl
        exact ⟨rfl, rfl, rfl⟩
  · obtain ⟨tr, hrun, hbody⟩ := Program.exists_run (Program.sound_of_parse hp) version
    obtain ⟨-, -, rfl⟩ := Program.toSpirv_eq_ok_iff.mp hm
    refine ⟨⟨tr, hrun⟩, ?_⟩
    rw [hrun.filter_isPlainType hbody ⟨p, version⟩, List.map_reverse, List.nodup_reverse]
    exact ((Builder.Cached.start _).run hrun).nodup_types

/-- Two constants that differ in the order of their parts, of which the first one is asked for
again. -/
theorem instructions_shared_constants : ∃ p m b₁ b₂ b₃,
    (Program.parse "ivec2 a = ivec2(1, 2); ivec2 b = ivec2(2, 1); ivec2 c = ivec2(1, 2); void main() {}"
      .fragment {}).result = .ok p ∧ (p.toSpirv .v10).result = .ok m ∧
      (m.instructions.filter (·.op = .constantComposite)).length = 2 ∧
    ((m.instructions.filter fun i => i.op.isPlainType).map fun i => (i.op, i.operands)).Nodup ∧
    Build.once .globals ⟨.constantComposite, some 7, Operand.ids [5, 6], .shared⟩ ⟨p, .v10⟩ {} = (1, b₁) ∧
    Build.once .globals ⟨.constantComposite, some 7, Operand.ids [6, 5], .shared⟩ ⟨p, .v10⟩ b₁ = (2, b₂) ∧
    Build.once .globals ⟨.constantComposite, some 7, Operand.ids [5, 6], .shared⟩ ⟨p, .v10⟩ b₂ = (1, b₃) ∧
    b₂.templates[1]?.map Template.constituents = some [5, 6] ∧
    b₂.globals.count { op := .constantComposite, type := some 7, result := some 1, operands := Operand.ids [5, 6] }
    = 1 := by
  have hwritten : ∃ p m,
    (Program.parse "ivec2 a = ivec2(1, 2); ivec2 b = ivec2(2, 1); ivec2 c = ivec2(1, 2); void main() {}"
      .fragment {}).result = .ok p ∧ (p.toSpirv .v10).result = .ok m ∧
        (m.instructions.filter (·.op = .constantComposite)).length = 2 :=
    Program.exists_written (by decide +kernel)
  obtain ⟨p, m, hp, hm, hlength⟩ := hwritten
  let t : Template := ⟨.constantComposite, some 7, Operand.ids [5, 6], .shared⟩
  let u : Template := ⟨.constantComposite, some 7, Operand.ids [6, 5], .shared⟩
  obtain ⟨tr, hrun⟩ := Build.exists_run_once (show u.belongs .globals = true from rfl) ⟨p, .v10⟩
    (Build.once .globals t ⟨p, .v10⟩ {}).2
  obtain ⟨hsame, -, -, hparts, hcount, -⟩ := instructions_shared.1 [] [] tr {} _ _ _ ⟨p, .v10⟩
    ⟨p, .v10⟩ .globals .globals t t 1 _ (.nil _) rfl rfl hrun rfl rfl
  have hagain : Build.once .globals t ⟨p, .v10⟩
    (Build.once .globals u ⟨p, .v10⟩ (Build.once .globals t ⟨p, .v10⟩ {}).2).2 = (1, _) :=
    Prod.ext (hsame rfl nofun) rfl
  exact ⟨p, m, _, _, _, hp, hm, hlength, (instructions_shared.2 _ _ _ _ p m hp hm).2, rfl, rfl,
    hagain, hparts _ rfl rfl, hcount⟩

/-- The types of two structs with the same members are equal, but they are written twice, under two
ids. -/
theorem structs_not_shared : ∃ p m, (Program.parse
      "struct A { int x; }; struct B { int x; }; void main() {}" .fragment {}).result = .ok p ∧
    (p.toSpirv .v10).result = .ok m ∧ (m.instructions.filter (·.op = .typeStruct)).map
    (fun i => (i.result, i.operands)) =
      [(some 4, [.id 3]), (some 5, [.id 3])] ∧
    ∃ b₁ b₂ : Builder, Build.once .globals ⟨.typeStruct, none, [.id 3], .unique⟩ ⟨p, .v10⟩
    { next := 4 } = (4, b₁) ∧
      Build.once .globals ⟨.typeStruct, none, [.id 3], .unique⟩ ⟨p, .v10⟩ b₁ = (5, b₂) := by
  have hwritten : ∃ p m, (Program.parse "struct A { int x; }; struct B { int x; }; void main() {}"
    .fragment {}).result = .ok p ∧
      (p.toSpirv .v10).result = .ok m ∧ (m.instructions.filter (·.op = .typeStruct)).map
        (fun i => (i.result, i.operands)) =
        [(some 4, [.id 3]), (some 5, [.id 3])] :=
    Program.exists_written (by decide +kernel)
  obtain ⟨p, m, hp, hm, hstructs⟩ := hwritten
  exact ⟨p, m, hp, hm, hstructs, _, _, rfl, rfl⟩

end Shading
