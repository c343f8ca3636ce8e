import Shading.Proofs.Spirv.Exits
import Shading.Proofs.Spirv.Growth

/-! Whole functions: how one starts, how it goes on, and what it is at the end. -/
namespace Shading.Spirv

/-- The parts of a function; lists are newest first. -/
structure FunctionText where
  header : List Instruction
  locals : List Instruction
  code : List Instruction

/-- What is still to come at the end of a function: nothing. -/
def Promises.none (reserved : List Nat) (entry : Nat) : Promises where
  reserved := reserved
  entry := entry
  visited := []
  labels := []
  untouched := []
  loops := []
  breaks := []
  continues := []

/-- The code of a function that is complete, after a first block with the given label. -/
structure Finished (entry : Nat) (code : List Instruction) : Prop where
  status : status? code = some .closed
  named : ∀ l, l ∈ edges code ∨ l ∈ announced code → l ∈ opened code
  repeated : ∀ p ∈ loops code, ∃ h n, p = (some h, some n) ∧ Repeated code h n
  unreached : ∀ x ∈ deadEnds code, ∃ l ∈ opened code, x = some l ∧ l ∉ edges code
  parents : ∀ l ∈ parents code, IsBlock entry code l

lemma Shape.finished {reserved : List Nat} {entry : Nat} {body : Body}
    (h : Shape .closed (.none reserved entry) body) :
    Finished entry body.code where
  status := h.status
  named l hl := (h.named l hl).resolve_right List.not_mem_nil
  repeated p hp := by
    obtain ⟨x, n, hp, hx⟩ := h.repeated p hp
    exact ⟨x, n, hp, hx.resolve_left List.not_mem_nil⟩
  unreached := h.unreached
  parents := h.parents

/-- The start of a function: the function itself, its parameters, and the label of the first block;
newest first. -/
def IsHeader (id entry : Nat) (header : List Instruction) : Prop :=
  ∃ parameters start, header = labelled entry :: (parameters ++ [start]) ∧ start.op = .function ∧
    start.result = some id ∧
    ∀ i ∈ parameters, i.op = .functionParameter

lemma Shape.of_isPlain {reserved : List Nat} {entry : Nat} {body : Body}
    (hblock : body.block = some entry) (hbreaks : body.breaks = [])
    (hcontinues : body.continues = []) (hplain : ∀ i ∈ body.code, i.isPlain = true) :
    Shape .opened (.none reserved entry) body := by
  obtain ⟨header, locals, code, block, breaks, continues⟩ := body
  obtain rfl : block = some entry := hblock
  obtain rfl : breaks = [] := hbreaks
  obtain rfl : continues = [] := hcontinues
  induction code with
  | nil => constructor <;> simp [Promises.none, loops, deadEnds, status?, IsBlock]
  | cons i code ih =>
    rw [List.forall_mem_cons] at hplain
    exact (ih hplain.2).plain hplain.1

namespace FunctionText

def instructions (f : FunctionText) : List Instruction :=
    { op := .functionEnd } :: (f.code ++ (f.locals ++ f.header))

/-- A function with the given id that is complete; its first block has the given label. -/
structure WellFormed (id entry : Nat) (f : FunctionText) : Prop where
  header : IsHeader id entry f.header
  isVariable : ∀ i ∈ f.locals, i.op = .variable_
  code : Finished entry f.code

end FunctionText

namespace Builder

open Build (Holds)

variable {b b' : Builder} {R R' : List Nat} {i : Instruction} {x : Nat}

lemma Distinct.of_count (h : Distinct R b) (hnext : b.next ≤ b'.next)
    (hcount : ∀ x, (R' ++ b'.results).count x ≤ (R ++ b.results).count x) : Distinct R' b' := by
  refine ⟨Nat.le_trans h.pos hnext, List.nodup_iff_count_le_one.mpr fun x => ?_, fun x hx => ?_⟩
  · exact Nat.le_trans (hcount x) (List.nodup_iff_count_le_one.mp h.nodup x)
  · have hpos : 0 < (R ++ b.results).count x := Nat.lt_of_lt_of_le (List.count_pos_iff.mpr hx) (hcount x)
    exact (h.range x (List.count_pos_iff.mp hpos)).imp_right (Nat.lt_of_lt_of_le · hnext)

lemma Distinct.startFunction (h : Distinct (x :: R) b) (hi : i.result = some x) :
    Distinct R { b with body := { header := [i] } } := by
  refine h.of_count (Nat.le_refl _) fun y => ?_
  simp only [results, results_append, results_cons, results_nil, hi, Option.toList_some,
    List.count_append, List.count_cons, List.count_nil]
  omega

lemma Distinct.appendHeader (h : Distinct R b) (hi : i.result = some x) (hx : IsFree R b x) :
    Distinct R { b with body := { b.body with header := i :: b.body.header } } := by
  have hperm : (R ++ ({ b with body := { b.body with header := i :: b.body.header } } :
    Builder).results).Perm (x :: (R ++ b.results)) := by
    simp only [results, results_append, results_cons, hi, Option.toList_some]
    exact List.perm_iff_count.mpr fun y => by simp only [List.count_append, List.count_cons, List.count_nil]; omega
  refine ⟨h.pos, hperm.nodup_iff.mpr (List.nodup_cons.mpr ⟨hx.2.2, h.nodup⟩), fun y hy => ?_⟩
  obtain rfl | hy := List.mem_cons.mp (hperm.mem_iff.mp hy)
  · exact ⟨hx.1, hx.2.1⟩
  · exact h.range y hy

lemma Distinct.endFunction (h : Distinct R b) : Distinct R (Build.endFunction s b).2 := by
  refine h.of_count (Nat.le_refl _) fun y => ?_
  change List.count y (R ++ Spirv.results (b.globals ++
    ({ op := .functionEnd } :: (b.body.code ++ (b.body.locals ++
    (b.body.header ++ b.functions))) ++ []))) ≤ _
  simp only [results, results_append, results_cons, results_nil, Option.toList_none,
    List.count_append, List.count_nil]
  omega

/-! ### The start of a function -/

/-- Before the first block of a function is opened; `b0` is the state before the function. -/
structure Starting (R : List Nat) (id : Nat) (b0 b : Builder) : Prop where
  distinct : Distinct R b
  advances : Advances b0 b
  functions : b.functions = b0.functions
  header : ∃ parameters start, b.body.header = parameters ++ [start] ∧ start.op = .function ∧
    start.result = some id ∧
    ∀ i ∈ parameters, i.op = .functionParameter
  isVariable : ∀ i ∈ b.body.locals, i.op = .variable_
  isPlain : ∀ i ∈ b.body.code, i.isPlain = true
  breaks : b.body.breaks = []
  continues : b.body.continues = []

/-- Inside of the blocks of a function; `b0` is the state before the function. -/
structure Writing (id entry : Nat) (b0 b : Builder) : Prop where
  advances : Advances b0 b
  functions : b.functions = b0.functions
  header : IsHeader id entry b.body.header

variable {id entry : Nat} {b0 : Builder} {s : Setting}

lemma Writing.extend (h : Writing id entry b0 b) (hb : Extends b b') : Writing id entry b0 b' := by
  refine ⟨h.advances.trans hb.advances, (congrArg Outer.functions hb.outer).trans h.functions, ?_⟩
  rw [show b'.body.header = b.body.header from congrArg Outer.header hb.outer]
  exact h.header

namespace Starting

lemma straight (h : Starting R id b0 b) (hs : Straight b b') : Starting R id b0 b' := by
  obtain ⟨g, l, c, hadds, hplain⟩ := hs.added
  refine ⟨h.distinct.straight hs, h.advances.trans hs.extends.advances, ?_, ?_, fun i hi =>
    ?_, fun i hi => ?_, ?_, ?_⟩
  · exact (congrArg (·.outer.functions) hs.frame).trans h.functions
  · rw [show b'.body.header = b.body.header from congrArg (·.outer.header) hs.frame]
    exact h.header
  · rw [hadds.locals, List.mem_append] at hi
    exact hi.elim (hadds.isVariable i) (h.isVariable i)
  · rw [hadds.code, List.mem_append] at hi
    exact hi.elim (hplain i) (h.isPlain i)
  · exact (congrArg Frame.breaks hs.frame).trans h.breaks
  · exact (congrArg Frame.continues hs.frame).trans h.continues

lemma run {α : Type} (m : Build α) [hm : Build.IsStraight m] (h : Starting R id b0 b) :
    Holds m s b fun _ b' => Starting R id b0 b' :=
  h.straight (hm.straight s b)

lemma parameter (n : Nat) (h : Starting R id b0 b) : Holds (Build.parameter n) s b fun _ b' =>
    Starting R id b0 b' := by
  unfold Build.parameter
  refine .bind (P := fun _ b1 => Starting R id b0 b1) h fun _ b1 h1 => ?_
  refine .bind (h1.run _) fun type b2 h2 => .bind (h2.run _) fun pointer b3 h3 => ?_
  refine .bind (P := fun x b4 => Starting R id b0 b4 ∧ IsFree R b4 x) ⟨h3.run _, h3.distinct.isFree⟩
    fun x b4 ⟨h4, hx4⟩ => ?_
  have hkeeps {α : Type} (m : Build α) [hm : Build.IsStraight m] {b : Builder}
    (h : Starting R id b0 b ∧ IsFree R b x) :
      Holds m s b fun _ b' => Starting R id b0 b' ∧ IsFree R b' x :=
    ⟨h.1.run m, h.2.straight (hm.straight s b)⟩
  refine .bind (hkeeps _ ⟨h4, hx4⟩) fun _ b5 h5 => .bind (hkeeps _ h5) fun _ b6 h6 =>
    .bind (hkeeps _ h6) fun _ b7 ⟨h7, hx7⟩ => ?_
  obtain ⟨parameters, start, hheader, hstart⟩ := h7.header
  refine ⟨h7.distinct.appendHeader rfl hx7, h7.advances.trans (.body _ _), h7.functions,
    ⟨{ op := .functionParameter, type := pointer, result := x } :: parameters, start, ?_, hstart.1,
      hstart.2.1, ?_⟩,
    h7.isVariable, h7.isPlain, h7.breaks, h7.continues⟩
  · exact congrArg (_ :: ·) hheader
  · exact List.forall_mem_cons.mpr ⟨rfl, hstart.2.2⟩

lemma openFirst (h : Starting R id b0 b) : Holds Build.openFirst s b fun _ b' =>
    ∃ entry, Written .opened (.none R entry) b' ∧ Writing id entry b0 b' := by
  have hnext : Starting R id b0 { b with next := b.next + 1 } := h.run (s := s) Build.fresh
  have hdistinct := hnext.distinct.appendHeader (i := labelled b.next) rfl h.distinct.isFree
  obtain ⟨parameters, start, hheader, hstart⟩ := h.header
  refine ⟨b.next, ⟨⟨hdistinct.pos, hdistinct.nodup, hdistinct.range⟩, fun l hl =>
    ?_, h.isVariable, ?_⟩, hnext.advances.trans (.body _ _),
    h.functions, ⟨parameters, start, congrArg (labelled b.next :: ·) hheader, hstart⟩⟩
  · cases hl
  · exact .of_isPlain rfl h.breaks h.continues h.isPlain

lemma parameters (ns : List Nat) (h : Starting R id b0 b) :
    Holds (ns.forM Build.parameter) s b fun _ b' => Starting R id b0 b' := by
  induction ns generalizing b with
  | nil => exact h
  | cons n ns ih => exact .bind (h.parameter n) fun _ b1 h1 => ih h1

end Starting

/-! ### Whole functions -/

lemma startFunction {f : Function} {returns type : Nat} (h : Distinct (id :: R) b) :
    Holds (Build.startFunction f id returns type) s b fun _ b' => Starting R id b b' := by
  unfold Build.startFunction
  refine .bind (P := fun _ b1 => b1 = { b with body := {} }) rfl ?_
  rintro _ _ rfl
  refine .bind (P := fun _ b2 => Starting R id b b2) ?_ fun _ b2 h2 => h2.run _
  refine ⟨h.startFunction rfl, .body _ _, rfl, ⟨[], _, rfl, rfl, rfl, by simp⟩, ?_, ?_, rfl, rfl⟩
  · exact fun i hi => absurd hi List.not_mem_nil
  · exact fun i hi => absurd hi List.not_mem_nil

/-- The last block of a function is closed by a return, if it is still open. -/
lemma Settled.finishBlock {G : Promises} {returns : Ty} (h : Settled G b)
    (hopen : b.body.block = none ∨ returns.isVoid = true) :
    Holds (Build.finishBlock returns) s b fun _ b' => Written .closed G b' ∧ Extends b b' := by
  unfold Build.finishBlock
  refine .bind (P := fun block b1 => block = b.body.block ∧ b1 = b) ⟨rfl, rfl⟩ ?_
  rintro _ b ⟨rfl, rfl⟩
  obtain h | h := h
  · have hblock : b.body.block.isSome = true := h.shape.block
    have hvoid := hopen.resolve_left (by rintro hnone; simp [hnone] at hblock)
    rw [if_pos hblock, if_pos hvoid]
    exact ⟨h.leave (.inl rfl), Build.IsGrowing.grows s b⟩
  · have hblock : b.body.block.isSome = false := h.shape.block
    rw [if_neg (by simp [hblock])]
    exact ⟨h, .refl b⟩

/-- What a whole function does to the state: it is written after all others. -/
structure Defines (R : List Nat) (id : Nat) (b b' : Builder) : Prop where
  distinct : Distinct R b'
  advances : Advances b b'
  text : ∃ (t : FunctionText) (entry : Nat), t.WellFormed id entry ∧ b'.functions = t.instructions ++ b.functions

lemma Written.endFunction (h : Written .closed (.none R entry) b) (hb : Writing id entry b0 b) :
    Holds Build.endFunction s b fun _ b' => Defines R id b0 b' := by
  have htext : { op := .functionEnd } :: (b.body.code ++ (b.body.locals ++ (b.body.header ++ b.functions))) =
      (FunctionText.mk b.body.header b.body.locals b.body.code).instructions ++ b0.functions := by
    simp [FunctionText.instructions, hb.functions]
  have hadvances := hb.advances
  refine ⟨h.distinct.endFunction, ?_, ⟨_, entry, ⟨hb.header, h.isVariable, h.shape.finished⟩, htext⟩⟩
  exact ⟨hadvances.next, hadvances.journal, hadvances.functionIds, hadvances.mathSet,
    hadvances.globals, ⟨_, htext.symm⟩, hadvances.notes,
    hadvances.keeps.trans (.of_eq rfl rfl rfl (Nat.le_refl _))⟩

lemma Defines.straight {b1 b2 : Builder} (h : Defines R id b1 b2) (hbefore : Straight b b1)
    (hafter : Straight b2 b') : Defines R id b b' := by
  obtain ⟨t, entry, ht, htext⟩ := h.text
  refine ⟨h.distinct.straight hafter, (hbefore.extends.advances.trans h.advances).trans
    hafter.extends.advances, t, entry, ht, ?_⟩
  rw [show b'.functions = b2.functions from congrArg (·.outer.functions) hafter.frame, htext,
    show b1.functions = b.functions from congrArg (·.outer.functions) hbefore.frame]

/-- The statements of a function that cannot be left at its end if it returns something. -/
lemma Written.finishFunction {returns : Ty} {body : Stmt} {d : Declared}
    (h : Written .opened (.none R entry) b) (hb : Writing id entry b0 b)
    (hbody : body.WellTyped d returns) (hexits : returns.isVoid = true ∨ body.alwaysExits = true) :
    Holds (do Build.statement body; Build.finishBlock returns; Build.endFunction) s b fun _ b' =>
    Defines R id b0 b' := by
  have hflow := Build.KeepsFlow.reached body hbody
  have hopen : (Build.statement body s b).2.body.block = none ∨ returns.isVoid = true :=
    hexits.symm.imp_left fun hexits => Build.Leaves.statement hexits s b
  refine .bind (P := fun _ b1 => Settled (.none R entry) b1 ∧ Writing id entry b0 b1 ∧
    (b1.body.block = none ∨ returns.isVoid = true))
    ⟨Build.KeepsFlow.settled_ifReached (.inl h), hb.extend (Build.IsGrowing.grows s b), hopen⟩
      fun _ b1 ⟨h1, hb1, hopen⟩ => ?_
  refine .bind (h1.finishBlock hopen) fun _ b2 ⟨h2, hextends⟩ => ?_
  exact h2.endFunction (hb1.extend hextends)

lemma functionDefinition {f : Function} {ps : List Nat} {body : Stmt} {d : Declared} (h : Distinct (id :: R) b)
    (hbody : body.WellTyped d f.returns) (hexits : f.returns.isVoid = true ∨ body.alwaysExits = true) :
    Holds (Build.functionDefinition f id ps body) s b fun _ b' => Defines R id b b' := by
  have hkeeps {α : Type} (m : Build α) [hm : Build.IsStraight m] {b1 : Builder} (h1 : Straight b b1) :
      Holds m s b1 fun _ b' => Straight b b' :=
    h1.trans (hm.straight s b1)
  unfold Build.functionDefinition
  refine .bind (hkeeps _ (.refl b)) fun _ b1 h1 => .bind (hkeeps _ h1) fun returns b2 h2 =>
    .bind (hkeeps _ h2) fun type b3 h3 => ?_
  suffices hholds : Holds _ s b3 fun _ b' => Defines R id b3 b' from .weaken hholds fun _ b' h' =>
    h'.straight h3 (.refl b')
  refine .bind (startFunction (h.straight h3)) fun _ b4 h4 => .bind (h4.parameters ps) fun _ b5 h5 => ?_
  refine .bind h5.openFirst fun _ b6 ⟨entry, h6, hb6⟩ => ?_
  refine .bind (P := fun _ b7 => Written .opened (.none R entry) b7 ∧ Writing id entry b3 b7)
    ⟨h6, hb6⟩ fun _ b7 ⟨h7, hb7⟩ => ?_
  have hdeferred := Build.KeepsOpen.steps.runDeferred
  split
  · refine .bind (P := fun _ b8 => Written .opened (.none R entry) b8 ∧ Writing id entry b3 b8)
      ⟨hdeferred.keeps s _ b7 h7, hb7.extend (Build.IsGrowing.grows s b7)⟩ fun _ b8 ⟨h8, hb8⟩ => ?_
    exact h8.finishFunction hb8 hbody hexits
  · exact h7.finishFunction hb7 hbody hexits

end Builder
end Shading.Spirv
