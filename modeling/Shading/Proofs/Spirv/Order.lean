import Shading.Proofs.Spirv.Growth
import Shading.Proofs.Spirv.StructTypes

/-! Values are defined before they are used. While a module is written without problems, every
instruction needs only what stands before it: types and constants need older ones, and the code of a
function needs these and what the function has computed. -/
namespace Shading.Spirv

namespace Instruction

/-- Every second entry of a list, from the first one on. -/
def evens : List Nat → List Nat
  | a :: _ :: rest => a :: evens rest
  | rest => rest

/-- The types, constants, variables and values that an instruction needs: all ids but labels and
functions. -/
def needs (i : Instruction) : List Nat :=
  i.type.toList ++ match i.op with
    | .branch | .selectionMerge | .loopMerge => []
    | .branchConditional | .switch => i.ids.take 1
    | .phi => evens i.ids
    | .functionCall => i.ids.tail
    | _ => i.ids

/-- The function that an instruction calls. -/
def callee? (i : Instruction) : Option Nat := if i.op = .functionCall then i.ids.head? else none

lemma evens_subset (xs : List Nat) : evens xs ⊆ xs := by
  fun_induction evens xs with
  | case1 a b rest ih => exact List.cons_subset_cons a (List.Subset.trans ih (List.subset_cons_self ..))
  | case2 => exact List.Subset.refl _

lemma evens_flatMap (ways : List (Nat × Nat)) :
    evens (ways.flatMap fun (value, block) => [value, block]) = ways.map (·.1) := by
  induction ways with
  | nil => rfl
  | cons way ways ih => exact congrArg (way.1 :: ·) ih

lemma needs_subset (i : Instruction) : i.needs ⊆ i.type.toList ++ i.ids := by
  intro x hx
  unfold needs at hx
  rw [List.mem_append] at hx ⊢
  refine hx.imp_right fun hx => ?_
  split at hx
  any_goals cases hx
  any_goals exact List.mem_of_mem_take hx
  · exact evens_subset _ hx
  · exact List.mem_of_mem_tail hx
  · exact hx

@[simp] lemma callee?_eq_none {i : Instruction} (h : i.op ≠ .functionCall) : i.callee? = none := if_neg h

end Instruction

lemma results_reverse (is : List Instruction) : results is.reverse = (results is).reverse :=
    List.filterMap_reverse

/-- Each instruction of the list, newest first, needs only what is known or defined before it. -/
def Follows (known : Nat → Prop) : List Instruction → Prop
  | [] => True
  | i :: older => (∀ x ∈ i.needs, known x ∨ x ∈ results older) ∧ Follows known older

namespace Follows

variable {known known' : Nat → Prop} {is js : List Instruction}

lemma mono (h : Follows known is) (hknown : ∀ x, known x → known' x) : Follows known' is := by
  induction is with
  | nil => trivial
  | cons i is ih => exact ⟨fun x hx => (h.1 x hx).imp_left (hknown x), ih h.2⟩

lemma append_iff : Follows known (is ++ js) ↔ Follows (fun x => known x ∨ x ∈ results js) is ∧
    Follows known js := by
  induction is with
  | nil => exact ⟨fun h => ⟨trivial, h⟩, fun h => h.2⟩
  | cons i is ih =>
    have hneeds : (∀ x ∈ i.needs, known x ∨ x ∈ results (is ++ js)) ↔
      ∀ x ∈ i.needs, (known x ∨ x ∈ results js) ∨ x ∈ results is :=
      forall₂_congr fun x _ => by rw [results_append, List.mem_append]; tauto
    rw [List.cons_append, Follows, Follows, ih, hneeds, and_assoc]

lemma insert {ks : List Instruction} (h : Follows known (is ++ js))
    (hks : Follows (fun x => known x ∨ x ∈ results js) ks) :
    Follows known (is ++ (ks ++ js)) := by
  rw [append_iff] at h
  refine append_iff.mpr ⟨h.1.mono fun x hx => hx.imp_right fun hx => ?_, append_iff.mpr ⟨hks, h.2⟩⟩
  rw [results_append]
  exact List.mem_append_right _ hx

/-- What a list needs has been defined wherever an instruction stands in it. -/
lemma needs {i : Instruction} {newer older : List Instruction} (h : Follows known (newer ++ i :: older)) :
    ∀ x ∈ i.needs, known x ∨ x ∈ results older :=
  (append_iff.mp h).2.1

lemma needs_of_reverse {i : Instruction} {newer older : List Instruction} (h : Follows known is)
    (hsplit : is.reverse = older ++ i :: newer) :
    ∀ x ∈ i.needs, known x ∨ x ∈ results older := by
  have his : is = newer.reverse ++ i :: older.reverse := by
    rw [← List.reverse_reverse is, hsplit, List.reverse_append, List.reverse_cons,
      List.append_assoc, List.singleton_append]
  intro x hx
  refine ((his ▸ h).needs x hx).imp_right fun hx => ?_
  rwa [results_reverse, List.mem_reverse] at hx

end Follows

namespace Builder

/-- The functions of a module up to now, newest first. -/
def text (b : Builder) : List Instruction := b.body.code ++ (b.body.locals ++ (b.body.header ++ b.functions))

/-- A type, a constant or a global variable. -/
def IsGlobal (b : Builder) (x : Nat) : Prop := x ∈ Spirv.results b.globals

/-- What stands before all functions. -/
def IsOuter (b : Builder) (x : Nat) : Prop := b.IsGlobal x ∨ x = b.mathSet

/-- What an instruction that is written now may use. -/
def Has (b : Builder) (x : Nat) : Prop := b.IsOuter x ∨ x ∈ Spirv.results b.text

/-- An id that has been set aside for a function. -/
def IsFunction (b : Builder) (x : Nat) : Prop := ∃ f : Nat, b.functionIds[f]? = some x

/-- An id that has been taken. -/
def IsTaken (b : Builder) (x : Nat) : Prop := 0 < x ∧ x < b.next

/-- Everything that has been written needs only what stands before it, and the tables hold what may
be used. -/
structure Ordered (d : Declared) (b : Builder) : Prop where
  next : 0 < b.next
  tabled : b.Tabled
  positive : ∀ x, b.IsGlobal x → 0 < x
  globals : Follows (fun _ => False) b.globals
  text : Follows b.IsOuter b.text
  calls : ∀ i ∈ b.text, ∀ f ∈ i.callee?, b.IsFunction f
  structs : ∀ {n x : Nat} {layout : Option MemoryLayout},
    (b.structs.getD n {}).get? layout = some x → b.IsComposite x
  places : ∀ {n : Nat} {place : Place}, b.places[n]? = some place → b.Has place.pointer
  functionIds : ∀ x, b.IsFunction x → b.IsTaken x
  notes : ∀ i ∈ b.names ++ b.decorations, ∀ x ∈ i.type.toList ++ i.ids, b.IsTaken x
  interface : ∀ x ∈ b.interface, b.IsGlobal x
  deferred : ∀ p ∈ b.deferred, p.2.WellTyped d

variable {d : Declared} {b b' : Builder} {x : Nat} {i : Instruction}

lemma Ordered.typed (h : b.Ordered d) : b.Typed := ⟨h.tabled, h.structs⟩

lemma IsComposite.isGlobal (h : b.IsComposite x) (hb : b.Tabled) : b.IsGlobal x := by
  obtain ⟨t, ht, -⟩ := h
  obtain ⟨hresult, hmem⟩ := hb.written ht
  exact mem_results.mpr ⟨_, hmem, if_neg hresult⟩

lemma Ordered.isTaken (h : b.Ordered d) (hx : b.IsGlobal x) : b.IsTaken x :=
    ⟨h.positive x hx, h.tabled.range x hx⟩

lemma IsGlobal.has (h : b.IsGlobal x) : b.Has x := .inl (.inl h)

namespace Extends

lemma isTaken (h : Extends b b') (hx : b.IsTaken x) : b'.IsTaken x := ⟨hx.1, Nat.lt_of_lt_of_le hx.2 h.next⟩

lemma isGlobal (h : Extends b b') (hx : b.IsGlobal x) : b'.IsGlobal x := by
  obtain ⟨g, hg, -⟩ := h.globals
  rw [IsGlobal, hg, results_append]
  exact List.mem_append_right _ hx

lemma isOuter (h : Extends b b') (hx : b.IsOuter x) : b'.IsOuter x := by
  refine hx.imp h.isGlobal fun hx => ?_
  rw [hx]
  exact (congrArg Outer.mathSet h.outer).symm

lemma isFunction (h : Extends b b') (hx : b.IsFunction x) : b'.IsFunction x := by
  rw [IsFunction, show b'.functionIds = b.functionIds from congrArg Outer.functionIds h.outer]
  exact hx

lemma has (h : Extends b b') (hx : b.Has x) : b'.Has x := by
  refine hx.imp h.isOuter fun hx => ?_
  obtain ⟨c, hcode⟩ := h.code
  obtain ⟨l, hlocals⟩ := h.locals
  have hheader : b'.body.header = b.body.header := congrArg Outer.header h.outer
  have hfunctions : b'.functions = b.functions := congrArg Outer.functions h.outer
  rw [text, ← hcode, ← hlocals, hheader, hfunctions]
  simp only [text, results_append, List.mem_append] at hx ⊢
  tauto

end Extends

lemma Ordered.congr (h : b.Ordered d) (hnext : b.next ≤ b'.next) (hids : b'.ids = b.ids)
    (htemplates : b'.templates = b.templates)
    (hglobals : b'.globals = b.globals) (htext : b'.text = b.text)
    (houter : b'.mathSet = b.mathSet ∧ b'.functionIds = b.functionIds)
    (htables : b'.structs = b.structs ∧ b'.places = b.places)
    (hnotes : b'.names ++ b'.decorations = b.names ++ b.decorations)
    (hentry : b'.interface = b.interface ∧ b'.deferred = b.deferred) : b'.Ordered d := by
  have hglobal {x : Nat} : b'.IsGlobal x ↔ b.IsGlobal x := by rw [IsGlobal, hglobals, IsGlobal]
  have houter' {x : Nat} : b'.IsOuter x ↔ b.IsOuter x := by rw [IsOuter, hglobal, houter.1, IsOuter]
  have hfunction {x : Nat} : b'.IsFunction x ↔ b.IsFunction x := by rw [IsFunction, houter.2, IsFunction]
  have htaken {x : Nat} (hx : b.IsTaken x) : b'.IsTaken x := ⟨hx.1, Nat.lt_of_lt_of_le hx.2 hnext⟩
  refine ⟨Nat.lt_of_lt_of_le h.next hnext, (Keeps.of_eq hids htemplates hglobals hnext).tabled
    h.tabled, fun x hx => h.positive x (hglobal.mp hx),
    by rw [hglobals]; exact h.globals, ?_, ?_,
    (h.typed.of_structs (.of_eq hids htemplates hglobals hnext) htables.1).structs, fun hn =>
      ?_, fun x hx => htaken (h.functionIds x (hfunction.mp hx)),
    fun i hi x hx => ?_, fun x hx => hglobal.mpr ?_, ?_⟩
  · rw [htext]
    exact h.text.mono fun x => houter'.mpr
  · rw [htext]
    exact fun i hi f hf => hfunction.mpr (h.calls i hi f hf)
  · rw [htables.2] at hn
    exact (h.places hn).imp houter'.mpr fun hx => by rw [htext]; exact hx
  · rw [hnotes] at hi
    exact htaken (h.notes i hi x hx)
  · rw [hentry.1] at hx
    exact h.interface x hx
  · rw [hentry.2]
    exact h.deferred

lemma Ordered.code (h : b.Ordered d) (hneeds : ∀ x ∈ i.needs, b.Has x)
    (hcallee : ∀ f ∈ i.callee?, b.IsFunction f) :
    ({ b with body := { b.body with code := i :: b.body.code } } : Builder).Ordered d where
  next := h.next
  tabled := ⟨h.tabled.shared, h.tabled.written, h.tabled.range⟩
  positive := h.positive
  globals := h.globals
  text := ⟨hneeds, h.text⟩
  calls := List.forall_mem_cons.mpr ⟨hcallee, h.calls⟩
  structs := h.structs
  places hn := (h.places hn).imp_right fun hx => by
    change _ ∈ Spirv.results (i :: b.text)
    rw [results_cons]
    exact List.mem_append_right _ hx
  functionIds := h.functionIds
  notes := h.notes
  interface := h.interface
  deferred := h.deferred

/-- An instruction among older ones, which needs nothing that a function has. -/
lemma Ordered.insertText {newer older : List Instruction} {body : Body} (h : b.Ordered d)
    (htext : b.text = newer ++ older)
    (htext' : ({ b with body } : Builder).text = newer ++ ([i] ++ older))
    (hneeds : ∀ x ∈ i.needs, b.IsGlobal x) (hcallee : i.callee? = none) :
    ({ b with body } : Builder).Ordered d := by
  have hresults {x : Nat} (hx : x ∈ Spirv.results b.text) :
    x ∈ Spirv.results ({ b with body } : Builder).text := by
    rw [htext, results_append, List.mem_append] at hx
    rw [htext', results_append, results_append, List.mem_append, List.mem_append]
    exact hx.imp_right .inr
  refine ⟨h.next, ⟨h.tabled.shared, h.tabled.written, h.tabled.range⟩, h.positive, h.globals, ?_,
    fun j hj => ?_, h.structs,
    fun hn => (h.places hn).imp_right hresults, h.functionIds, h.notes, h.interface, h.deferred⟩
  · rw [htext']
    exact (htext ▸ h.text).insert ⟨fun x hx => .inl (.inl (.inl (hneeds x hx))), trivial⟩
  · rw [htext', List.mem_append, List.mem_append, List.mem_singleton] at hj
    obtain hj | rfl | hj := hj
    · exact h.calls j (htext ▸ List.mem_append_left _ hj)
    · simp [hcallee]
    · exact h.calls j (htext ▸ List.mem_append_right _ hj)

lemma Ordered.local_ (h : b.Ordered d) (hneeds : ∀ x ∈ i.needs, b.IsGlobal x) (hcallee : i.callee? = none) :
    ({ b with body := { b.body with locals := i :: b.body.locals } } : Builder).Ordered d :=
  h.insertText rfl rfl hneeds hcallee

lemma Ordered.header (h : b.Ordered d) (hneeds : ∀ x ∈ i.needs, b.IsGlobal x) (hcallee : i.callee? = none) :
    ({ b with body := { b.body with header := i :: b.body.header } } : Builder).Ordered d := by
  have htext (header : List Instruction) : ({ b with body := { b.body with header } } : Builder).text =
      (b.body.code ++ b.body.locals) ++ (header ++ b.functions) := (List.append_assoc ..).symm
  exact h.insertText (htext b.body.header) (htext (i :: b.body.header)) hneeds hcallee

lemma Ordered.global {ids : Std.TreeMap Template Nat (compareOn Template.key)}
    {templates : Std.TreeMap Nat Template} (h : b.Ordered d)
    (hi : i.result = some b.next) (hneeds : ∀ x ∈ i.needs, b.IsGlobal x)
    (hkeeps : Keeps b { b with next := b.next + 1, globals := i :: b.globals, ids, templates }) :
    ({ b with next := b.next + 1, globals := i :: b.globals, ids, templates } : Builder).Ordered d := by
  have hglobal {x : Nat} (hx : b.IsGlobal x) : x ∈ Spirv.results (i :: b.globals) := by
    rw [results_cons]
    exact List.mem_append_right _ hx
  refine ⟨Nat.succ_pos _, hkeeps.tabled h.tabled, fun x hx => ?_, ⟨fun x hx => .inr (hneeds x hx), h.globals⟩,
    h.text.mono fun x hx => hx.imp_left hglobal, h.calls, fun hx => (h.structs hx).mono h.tabled hkeeps,
    fun hn => (h.places hn).imp_left fun hx => hx.imp_left hglobal, fun x hx => ?_, fun j hj x hx => ?_,
    fun x hx => hglobal (h.interface x hx), h.deferred⟩
  · change x ∈ Spirv.results (i :: b.globals) at hx
    rw [results_cons, hi] at hx
    obtain rfl | hx := List.mem_cons.mp hx
    · exact h.next
    · exact h.positive x hx
  · exact (h.functionIds x hx).imp_right Nat.lt_succ_of_lt
  · exact (h.notes j hj x hx).imp_right Nat.lt_succ_of_lt

lemma Ordered.note {ids : Std.TreeMap Template Nat (compareOn Template.key)} (h : b.Ordered d)
    (names decorations : List Instruction)
    (hmem : ∀ j ∈ names ++ decorations, j ∈ b.names ++ b.decorations ∨ j = i)
    (hi : ∀ x ∈ i.type.toList ++ i.ids, b.IsTaken x)
    (hkeeps : Keeps b { b with names, decorations, ids }) :
    ({ b with names, decorations, ids } : Builder).Ordered d := by
  refine ⟨h.next, hkeeps.tabled h.tabled, h.positive, h.globals, h.text, h.calls, h.structs,
    h.places, h.functionIds, fun j hj => ?_,
    h.interface, h.deferred⟩
  obtain hj | rfl := hmem j hj
  · exact h.notes j hj
  · exact hi

lemma Ordered.insertPlace {n : Nat} {place : Place} (h : b.Ordered d) (hplace : b.Has place.pointer) :
    ({ b with places := b.places.insert n place } : Builder).Ordered d := by
  refine ⟨h.next, ⟨h.tabled.shared, h.tabled.written, h.tabled.range⟩, h.positive, h.globals,
    h.text, h.calls, h.structs,
    fun {k found} hk => ?_, h.functionIds, h.notes, h.interface, h.deferred⟩
  change (b.places.insert n place)[k]? = some found at hk
  rw [Std.TreeMap.getElem?_insert] at hk
  split at hk
  · obtain rfl := Option.some.inj hk
    exact hplace
  · exact h.places hk

lemma Ordered.insertStruct {n : Nat} {ids : StructIds} (h : b.Ordered d)
    (hids : ∀ layout id, ids.get? layout = some id → b.IsComposite id) :
    ({ b with structs := b.structs.insert n ids } : Builder).Ordered d := by
  obtain ⟨htabled, hstructs⟩ : Typed { b with structs := b.structs.insert n ids } := h.typed.insert hids
  exact ⟨h.next, htabled, h.positive, h.globals, h.text, h.calls, hstructs, h.places, h.functionIds,
    h.notes, h.interface, h.deferred⟩

end Builder
end Shading.Spirv
