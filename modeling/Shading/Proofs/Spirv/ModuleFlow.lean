import Shading.Proofs.Grammar.Source
import Shading.Proofs.Spirv.FunctionFlow

/-! Whole modules: first the ids of the functions, then what is declared, then the functions one
after another. -/
namespace Shading

/-- The functions that a program defines, by number. -/
def Program.definitions (p : Program) : List Nat := p.elements.filterMap Element.defined?

namespace Spirv

namespace Builder

open Build (Holds)

variable {s : Setting} {b b' : Builder} {R : List Nat}

/-! ### The ids of functions -/

/-- The ids that have been set aside for functions. -/
def idsOf (b : Builder) (fs : List Nat) : List Nat := fs.filterMap (b.functionIds[·]?)

/-- Setting ids aside changes nothing else. -/
structure Reserves (fs R : List Nat) (b b' : Builder) : Prop where
  distinct : Distinct (b'.idsOf fs ++ R) b'
  mem : ∀ f ∈ fs, ∃ id, b'.functionIds[f]? = some id
  others : ∀ f ∉ fs, b'.functionIds[f]? = b.functionIds[f]?
  rest : b' = { b with next := b'.next, functionIds := b'.functionIds }

lemma Distinct.fresh (h : Distinct R b) : Distinct (b.next :: R) { b with next := b.next + 1 } := by
  obtain ⟨hpos, hlt, hnot⟩ := h.isFree
  refine ⟨Nat.le_succ_of_le h.pos, List.nodup_cons.mpr ⟨hnot, h.nodup⟩,
    List.forall_mem_cons.mpr ⟨⟨hpos, hlt⟩, fun x hx => ?_⟩⟩
  exact (h.range x hx).imp_right Nat.lt_succ_of_lt

lemma reserve (es : List Element) (h : Distinct R b) (hnodup : (es.filterMap Element.defined?).Nodup) :
    Holds (es.forM Build.reserve) s b fun _ b' => Reserves (es.filterMap Element.defined?) R b b' := by
  induction es generalizing R b with
  | nil => exact ⟨h, by simp, fun _ _ => rfl, rfl⟩
  | cons e es ih =>
    cases e with
    | definition f ps body span =>
      have hcons : (Element.definition f ps body span :: es).filterMap Element.defined? = f ::
        es.filterMap Element.defined? := rfl
      rw [hcons, List.nodup_cons] at hnodup
      rw [hcons]
      have hfresh : Distinct (b.next :: R)
        { b with next := b.next + 1, functionIds := b.functionIds.insert f b.next } :=
        ⟨h.fresh.pos, h.fresh.nodup, h.fresh.range⟩
      refine .bind (P := fun _ b1 =>
        b1 = { b with next := b.next + 1, functionIds := b.functionIds.insert f b.next }) rfl ?_
      rintro _ _ rfl
      refine .weaken (ih hfresh hnodup.2) fun _ b' h' => ?_
      have hf : b'.functionIds[f]? = some b.next := by
        rw [h'.others f hnodup.1]
        exact Std.TreeMap.getElem?_insert_self
      refine ⟨?_, List.forall_mem_cons.mpr ⟨⟨_, hf⟩, h'.mem⟩, fun g hg => ?_, ?_⟩
      · have hids : b'.idsOf (f :: es.filterMap Element.defined?) = b.next ::
          b'.idsOf (es.filterMap Element.defined?) :=
          List.filterMap_cons_some hf
        rw [hids]
        refine h'.distinct.of_count (Nat.le_refl _) fun x => ?_
        simp only [List.count_append, List.count_cons]
        omega
      · rw [List.mem_cons, not_or] at hg
        rw [h'.others g hg.2]
        exact Std.TreeMap.getElem?_insert.trans (if_neg (by simpa using Ne.symm hg.1))
      · rw [h'.rest]
    | _ => exact ih h hnodup

/-! ### Functions one after another -/

lemma definition {f : Nat} {ps : List Nat} {body : Stmt} {span : Span} {id : Nat} {g : Function} {d : Declared}
    (hid : b.functionIds[f]? = some id) (hg : s.program.functions.get? f = some g)
    (hbody : body.WellTyped d g.returns)
    (hexits : g.returns.isVoid = true ∨ body.alwaysExits = true) (h : Distinct (id :: R) b) :
    Holds (Build.definition (.definition f ps body span)) s b fun _ b' => Defines R id b b' := by
  have hspan : Straight b { b with span } := (inferInstance : Build.IsStraight (Build.setSpan span)).straight s b
  have hfunction : s.program.functionAt f = g := by rw [Program.functionAt, hg, Option.getD_some]
  unfold Build.definition
  refine .bind (P := fun _ b1 => b1 = { b with span }) rfl ?_
  rintro - _ rfl
  refine .bind (P := fun p b1 => p = s ∧ b1 = { b with span }) ⟨rfl, rfl⟩ ?_
  rintro s _ ⟨rfl, rfl⟩
  refine .bind (P := fun b1 b2 => b1 = { b with span } ∧ b2 = { b with span }) ⟨rfl, rfl⟩ ?_
  rintro _ _ ⟨rfl, rfl⟩
  dsimp only
  rw [hid, hfunction]
  refine .bind (functionDefinition (h.straight hspan) hbody hexits) fun _ b1 h1 => ?_
  exact h1.straight hspan ((inferInstance : Build.IsStraight _).straight s b1)

/-- What the definitions of functions add: one function for each id. -/
structure Written.Functions (ids R : List Nat) (b b' : Builder) : Prop where
  distinct : Distinct R b'
  advances : Advances b b'
  texts : ∃ ts : List FunctionText, b'.functions = ts.flatMap FunctionText.instructions ++ b.functions ∧
    List.Forall₂ (fun id t => ∃ entry, t.WellFormed id entry) ids.reverse ts

lemma definitions (es : List Element) (hes : ∀ e ∈ es, e.WellTyped s.program.declared)
    (hids : ∀ f ∈ es.filterMap Element.defined?, ∃ id, b.functionIds[f]? = some id)
    (h : Distinct (b.idsOf (es.filterMap Element.defined?) ++ R) b) :
    Holds (es.forM Build.definition) s b fun _ b' =>
    Written.Functions (b.idsOf (es.filterMap Element.defined?)) R b b' := by
  induction es generalizing b with
  | nil => exact ⟨h, .refl b, [], rfl, .nil⟩
  | cons e es ih =>
    rw [List.forall_mem_cons] at hes
    cases e with
    | definition f ps body span =>
      have hcons : (Element.definition f ps body span :: es).filterMap Element.defined? = f ::
        es.filterMap Element.defined? := rfl
      rw [hcons] at hids h ⊢
      rw [List.forall_mem_cons] at hids
      obtain ⟨⟨id, hid⟩, hids⟩ := hids
      obtain ⟨g, hg, -, -, hbody, hexits⟩ := hes.1
      have hfirst : b.idsOf (f :: es.filterMap Element.defined?) = id ::
        b.idsOf (es.filterMap Element.defined?) :=
        List.filterMap_cons_some hid
      rw [hfirst] at h ⊢
      refine .bind (definition hid hg hbody hexits h) fun _ b1 h1 => ?_
      have hsame : b1.functionIds = b.functionIds := h1.advances.functionIds
      have hrest := ih (b := b1) hes.2 (by rw [hsame]; exact hids) (by rw [idsOf, hsame]; exact h1.distinct)
      refine .weaken hrest fun _ b2 h2 => ?_
      obtain ⟨t, entry, ht, htext⟩ := h1.text
      obtain ⟨ts, htexts, hts⟩ := h2.texts
      refine ⟨h2.distinct, h1.advances.trans h2.advances, ts ++ [t], ?_, ?_⟩
      · rw [htexts, htext, List.flatMap_append, List.append_assoc, List.flatMap_singleton]
      · rw [List.reverse_cons]
        rw [idsOf, hsame] at hts
        exact List.rel_append hts (.cons ⟨entry, ht⟩ .nil)
    | _ => exact ih hes.2 hids h

/-! ### All parts -/

/-- A builder at the end of a program. -/
structure Complete (p : Program) (b : Builder) : Prop where
  distinct : Distinct [b.mathSet] b
  globals : ∀ i ∈ b.globals, i.isDeclaration = true
  notes : ∀ i ∈ b.names ++ b.decorations, i.isNote = true
  defined : ∀ f ∈ p.definitions, ∃ id, b.functionIds[f]? = some id
  texts : ∃ ts : List FunctionText, b.functions = ts.flatMap FunctionText.instructions ∧
    List.Forall₂ (fun id t => ∃ entry, t.WellFormed id entry) (b.idsOf p.definitions).reverse ts

lemma complete {p : Program} {version : SpirvVersion} {journal : Journal} (hp : p.Sound) :
    Holds Build.parts ⟨p, version⟩ { journal } fun _ b => Complete p b := by
  have hempty : Distinct [] ({ journal } : Builder) :=
    ⟨Nat.le_refl 1, List.nodup_nil, fun x hx => absurd hx List.not_mem_nil⟩
  have hfresh := hempty.fresh
  have hdeclarations : Build.IsStraight (p.elements.forM Build.declaration) := inferInstance
  unfold Build.parts
  refine .bind (P := fun s b => s = ⟨p, version⟩ ∧ b = { journal }) ⟨rfl, rfl⟩ ?_
  rintro _ _ ⟨rfl, rfl⟩
  refine .bind (P := fun mathSet b => mathSet = 1 ∧ b = { next := 2, journal }) ⟨rfl, rfl⟩ ?_
  rintro _ _ ⟨rfl, rfl⟩
  refine .bind (P := fun _ b => Distinct [b.mathSet] b ∧ b.functions = [] ∧ b.globals = [] ∧
    b.names ++ b.decorations = [])
    ⟨⟨hfresh.pos, hfresh.nodup, hfresh.range⟩, rfl, rfl, rfl⟩ fun _ b1 ⟨h1, hfunctions, hglobals, hnotes⟩ => ?_
  refine .bind (reserve p.elements h1 hp.definitions) fun _ b2 h2 => ?_
  refine .bind (P := fun _ b3 => Straight b2 b3) (hdeclarations.straight _ b2) fun _ b3 h3 => ?_
  have hadvances := h3.extends.advances
  have hids : b3.idsOf p.definitions = b2.idsOf p.definitions := by rw [idsOf, hadvances.functionIds, idsOf]
  have hdefined : ∀ f ∈ p.definitions, ∃ id, b3.functionIds[f]? = some id := by
    rw [hadvances.functionIds]; exact h2.mem
  have hdistinct : Distinct (b3.idsOf p.definitions ++ [b1.mathSet]) b3 := hids ▸ h2.distinct.straight h3
  refine .weaken (definitions (s := ⟨p, version⟩) p.elements hp.elements hdefined hdistinct) fun _ b4 h4 => ?_
  have hsame : b4.functionIds = b3.functionIds := h4.advances.functionIds
  have hmath : b4.mathSet = b1.mathSet := by rw [h4.advances.mathSet, hadvances.mathSet, h2.rest]
  have hnone : b3.functions = [] := by
    rw [show b3.functions = b2.functions from congrArg (·.outer.functions) h3.frame, h2.rest]
    exact hfunctions
  obtain ⟨ts, htexts, hts⟩ := h4.texts
  refine ⟨?_, ?_, fun i hi => ?_, ?_, ts, ?_, ?_⟩
  · rw [hmath]
    exact h4.distinct
  · have hstart : b2.globals = [] := by
      rw [h2.rest]
      exact hglobals
    obtain ⟨g, hg, hdeclares⟩ := (hadvances.trans h4.advances).globals
    rw [hg, hstart, List.append_nil]
    exact hdeclares
  · have hstart : b2.names ++ b2.decorations = [] := by
      rw [h2.rest]
      exact hnotes
    obtain hi | hi := (hadvances.trans h4.advances).notes i hi
    · rw [hstart] at hi
      cases hi
    · exact hi
  · rw [hsame]
    exact hdefined
  · rw [htexts, hnone, List.append_nil]
  · rw [idsOf, hsame]
    exact hts

end Builder
end Spirv
end Shading
