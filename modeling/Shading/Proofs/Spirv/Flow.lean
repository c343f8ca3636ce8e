import Shading.Proofs.Spirv.Straight

/-! Control flow inside a function. Code is a list of instructions, newest first, that starts in the
open first block. -/
namespace Shading.Spirv

namespace Instruction

/-- What ends a block. -/
def isTerminator (i : Instruction) : Bool :=
  i.op matches .branch | .branchConditional | .switch | .kill | .return_ | .returnValue | .unreachable

/-- What announces where control flow meets again. -/
def isMerge (i : Instruction) : Bool := i.op matches .selectionMerge | .loopMerge

/-- The ids among the operands. -/
def ids (i : Instruction) : List Nat := i.operands.filterMap Operand.id?

/-- The labels where control may go next. -/
def targets (i : Instruction) : List Nat :=
  match i.op with
  | .branch => i.ids
  | .branchConditional | .switch => i.ids.tail
  | _ => []

/-- The labels that a merge instruction names: where control meets again, and for a loop where it
goes on. -/
def announced (i : Instruction) : List Nat := if i.isMerge then i.ids else []

/-- Every second entry of a list, from the second one on. -/
def odds : List Nat → List Nat
  | _ :: b :: rest => b :: odds rest
  | _ => []

/-- The labels of the blocks from which a value may come. -/
def parents (i : Instruction) : List Nat := if i.op = .phi then odds i.ids else []

/-- The label of the block that starts here. -/
def opened? (i : Instruction) : Option Nat := if i.op = .label then i.result else none

end Instruction

/-- The labels that branches name, once for each way there. -/
def edges (is : List Instruction) : List Nat := is.flatMap Instruction.targets

def announced (is : List Instruction) : List Nat := is.flatMap Instruction.announced

def parents (is : List Instruction) : List Nat := is.flatMap Instruction.parents

/-- The labels of the blocks. -/
def opened (is : List Instruction) : List Nat := is.filterMap Instruction.opened?

/-- Where the writing of blocks stands. -/
inductive Status where
  | closed
  | opened
  /-- A merge instruction has been written, and the end of the block has to follow. -/
  | announced
deriving DecidableEq

/-- How an instruction changes the status, if it may stand there. -/
def Status.next (i : Instruction) : Status → Option Status
  | closed => if i.op = .label then some .opened else none
  | opened =>
    if i.isTerminator then some .closed
    else if i.isMerge then some .announced
    else if i.isPlain || i.op = .phi then some .opened
    else none
  | announced => if i.isTerminator then some .closed else none

/-- The status after code, if the code is a sequence of blocks. -/
def status? : List Instruction → Option Status
  | [] => some .opened
  | i :: older => (status? older).bind (Status.next i)

/-- The label of the newest block. -/
def current? (code : List Instruction) : Option Nat := (opened code).head?

/-- For every loop the label of its first block and its continue target. -/
def loops : List Instruction → List (Option Nat × Option Nat)
  | [] => []
  | i :: older => if i.op = .loopMerge then (current? older, i.ids[1]?) :: loops older else loops older

/-- The labels of blocks that control does not leave. -/
def deadEnds : List Instruction → List (Option Nat)
  | [] => []
  | i :: older => if i.op = .unreachable then current? older :: deadEnds older else deadEnds older

/-- What was written before a label. -/
def before (l : Nat) : List Instruction → List Instruction
  | [] => []
  | i :: older => if i.opened? = some l then older else before l older

@[simp] lemma edges_nil : edges [] = [] := rfl

@[simp] lemma edges_cons (i : Instruction) (is : List Instruction) :
    edges (i :: is) = i.targets ++ edges is := List.flatMap_cons

@[simp] lemma edges_append (is js : List Instruction) : edges (is ++ js) = edges is ++ edges js :=
    List.flatMap_append

@[simp] lemma announced_nil : announced [] = [] := rfl

@[simp] lemma announced_cons (i : Instruction) (is : List Instruction) :
    announced (i :: is) = i.announced ++ announced is :=
  List.flatMap_cons

@[simp] lemma parents_nil : parents [] = [] := rfl

@[simp] lemma parents_cons (i : Instruction) (is : List Instruction) :
    parents (i :: is) = i.parents ++ parents is :=
  List.flatMap_cons

@[simp] lemma opened_nil : opened [] = [] := rfl

@[simp] lemma opened_append (is js : List Instruction) :
    opened (is ++ js) = opened is ++ opened js := List.filterMap_append

@[simp] lemma opened_cons (i : Instruction) (is : List Instruction) :
    opened (i :: is) = i.opened?.toList ++ opened is := by
  unfold opened
  cases h : i.opened? with
  | none => rw [List.filterMap_cons_none h]; rfl
  | some l => rw [List.filterMap_cons_some h]; rfl

lemma opened_subset_results (is : List Instruction) : opened is ⊆ results is := by
  intro l hl
  obtain ⟨i, hi, hopened⟩ := List.mem_filterMap.mp hl
  unfold Instruction.opened? at hopened
  split at hopened
  · exact mem_results.mpr ⟨i, hi, hopened⟩
  · cases hopened

section Plain

variable {i : Instruction} (h : i.isPlain = true)
include h

lemma Instruction.isMerge_of_isPlain : i.isMerge = false := by
  unfold isMerge
  cases hop : i.op <;> simp_all [isPlain]

lemma Instruction.isTerminator_of_isPlain : i.isTerminator = false := by
  unfold isTerminator
  cases hop : i.op <;> simp_all [isPlain]

lemma Instruction.targets_of_isPlain : i.targets = [] := by
  unfold targets
  split <;> simp_all [isPlain]

lemma Instruction.announced_of_isPlain : i.announced = [] := by
  simp [announced, isMerge_of_isPlain h]

lemma Instruction.parents_of_isPlain : i.parents = [] := by
  unfold parents
  split
  · simp_all [isPlain]
  · rfl

lemma Instruction.opened?_of_isPlain : i.opened? = none := by
  unfold opened?
  split
  · simp_all [isPlain]
  · rfl

lemma Instruction.next_of_isPlain : Status.next i .opened = some .opened := by
  simp [Status.next, isTerminator_of_isPlain h, isMerge_of_isPlain h, h]

lemma loops_cons_of_isPlain (code : List Instruction) : loops (i :: code) = loops code := by
  rw [loops, if_neg]
  intro hop
  simp [Instruction.isPlain, hop] at h

lemma deadEnds_cons_of_isPlain (code : List Instruction) : deadEnds (i :: code) = deadEnds code := by
  rw [deadEnds, if_neg]
  intro hop
  simp [Instruction.isPlain, hop] at h

end Plain

section Terminator

variable {i : Instruction} (h : i.isTerminator = true)
include h

lemma Instruction.isMerge_of_isTerminator : i.isMerge = false := by
  unfold isMerge
  cases hop : i.op <;> simp_all [isTerminator]

lemma Instruction.announced_of_isTerminator : i.announced = [] := by
  simp [announced, isMerge_of_isTerminator h]

lemma Instruction.parents_of_isTerminator : i.parents = [] := by
  unfold parents
  split
  · simp_all [isTerminator]
  · rfl

lemma Instruction.opened?_of_isTerminator : i.opened? = none := by
  unfold opened?
  split
  · simp_all [isTerminator]
  · rfl

lemma loops_cons_of_isTerminator (code : List Instruction) : loops (i :: code) = loops code := by
  rw [loops, if_neg]
  intro hop
  simp [Instruction.isTerminator, hop] at h

end Terminator

/-- The announcement of a selection. -/
def selection (merge : Nat) : Instruction := { op := .selectionMerge, operands := [.id merge, .number 0] }

/-- The announcement of a loop. -/
def loop (merge next : Nat) : Instruction := { op := .loopMerge, operands := [.id merge, .id next, .number 0] }

/-! ### What is promised -/

/-- What is still to come while a part of a function is written. -/
structure Promises where
  /-- Ids that have been set aside and do not belong to this function. -/
  reserved : List Nat
  /-- The label of the first block. -/
  entry : Nat
  /-- Labels of blocks from which a value will come. -/
  visited : List Nat
  /-- Labels that will be opened. -/
  labels : List Nat
  /-- Labels to which no way leads, except for jumps that have been noted down. -/
  untouched : List Nat
  /-- The labels of the loops that are being written, and of the blocks where these go on. -/
  loops : List (Nat × Nat)
  /-- Where `break` leads, innermost first. -/
  breaks : List Nat
  /-- Where `continue` leads, innermost first. -/
  continues : List Nat

/-- A loop that has been entered and not yet repeated: one way leads to its start, and it was
written before. -/
structure Entered (code : List Instruction) (header next : Nat) : Prop where
  starts : header ∈ opened code
  named : next ∈ announced code
  entry : (edges (before header code)).count header = 1
  next : next ∈ opened code → (edges (before next code)).count header = 1
  total : (edges code).count header = 1

/-- A whole loop: there are two ways to its start, one written before it and one after the start of
its continue target. -/
structure Repeated (code : List Instruction) (header next : Nat) : Prop where
  starts : header ∈ opened code
  goesOn : next ∈ opened code
  entry : (edges (before header code)).count header = 1
  next : (edges (before next code)).count header = 1
  total : (edges code).count header = 2

/-- The label of a block that has been opened. The first one stands before the code. -/
def IsBlock (entry : Nat) (code : List Instruction) (l : Nat) : Prop := l = entry ∨ l ∈ opened code

lemma IsBlock.cons {entry l : Nat} {code : List Instruction} (h : IsBlock entry code l)
    (i : Instruction) : IsBlock entry (i :: code) l :=
  h.imp_right fun hl => by simp [hl]

/-- The body of a function up to a point, given what is still to come. -/
structure Shape (st : Status) (G : Promises) (body : Body) : Prop where
  status : status? body.code = some st
  block : body.block.isSome = (st != .closed)
  nodup : G.labels.Nodup
  unopened : ∀ l ∈ G.labels, l ∉ opened body.code
  named : ∀ l, l ∈ edges body.code ∨ l ∈ announced body.code → l ∈ opened body.code ∨ l ∈ G.labels
  breaks : body.breaks.map (·.label) = G.breaks
  continues : body.continues.map (·.label) = G.continues
  jumps : ∀ l ∈ G.breaks ++ G.continues, l ∈ G.labels
  promised : ∀ l ∈ G.untouched, l ∈ G.labels
  untouched : ∀ l ∈ G.untouched, l ∈ edges body.code →
    ∃ t ∈ body.breaks ++ body.continues, t.label = l ∧ t.used = true
  repeated : ∀ p ∈ loops body.code, ∃ h n, p = (some h, some n) ∧ ((h, n) ∈ G.loops ∨ Repeated body.code h n)
  entered : ∀ p ∈ G.loops, Entered body.code p.1 p.2
  unreached : ∀ x ∈ deadEnds body.code, ∃ l ∈ opened body.code, x = some l ∧ l ∉ edges body.code
  current : ∀ l ∈ body.block, IsBlock G.entry body.code l
  visited : ∀ l ∈ G.visited, IsBlock G.entry body.code l
  parents : ∀ l ∈ parents body.code, IsBlock G.entry body.code l

end Shading.Spirv
