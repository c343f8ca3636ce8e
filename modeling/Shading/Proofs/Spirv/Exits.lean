import Shading.Proofs.Spirv.StatementFlow

/-! A statement that control never passes leaves no block open. -/
namespace Shading.Spirv.Build

variable {s : Setting} {b : Builder}

/-- Whatever the state is, no block is open after the step. -/
def Leaves (m : Build Unit) : Prop := ∀ s b, (m s b).2.body.block = none

namespace Leaves

lemma terminate (op : Op) (operands : List Operand) : Leaves (terminate op operands) := fun _ _ => rfl

lemma bind {α : Type} (m : Build α) {f : α → Build Unit} (hf : ∀ a, Leaves (f a)) : Leaves (m >>= f) :=
  fun s b => hf (m s b).1 s (m s b).2

lemma ifReached {stmt : Stmt} {append : Build Unit} (happend : Leaves append) :
    Leaves (ifReached stmt append) := by
  intro s b
  rw [ifReached_eq]
  cases hblock : b.body.block with
  | none => exact hblock
  | some l => exact happend s _

lemma holds_branch {target : Nat} (h : b.body.block = none) :
    Holds (Build.branch target) s b fun jumped _ => jumped = false := by
  rw [Holds, branch_eq, h]

lemma ifElse (condition : Nat) {body other : Build Unit} (hbody : Leaves body) (hother : Leaves other) :
    Leaves (ifElse condition body other) := by
  unfold Build.ifElse
  refine bind _ fun whenTrue => bind _ fun merge => bind _ fun whenFalse => bind _ fun _ =>
    bind _ fun _ => bind _ fun _ => ?_
  intro s b
  suffices hholds : Holds _ s b fun _ b' => b'.body.block = none from hholds
  refine .bind (P := fun _ b1 => b1.body.block = none) (hbody s b) fun _ b1 h1 => ?_
  refine .bind (holds_branch h1) fun first b2 hfirst => ?_
  refine .bind (P := fun _ _ => True) trivial fun _ b3 _ => ?_
  refine .bind (P := fun _ b4 => b4.body.block = none) (hother s b3) fun _ b4 h4 => ?_
  refine .bind (holds_branch h4) fun second b5 hsecond => ?_
  rw [hfirst, hsecond]
  exact terminate .unreachable [] s _

mutual
/-- The check for statements that control never passes agrees with what is written for them. -/
lemma reached (stmt : Stmt) (h : stmt.alwaysExits = true) : Leaves (reached stmt) := by
  unfold Build.reached
  cases stmt with
  | return_ e span =>
    cases e with
    | none => exact terminate .return_ []
    | some e => exact bind _ fun v => terminate .returnValue [.id v]
  | discard span => exact terminate .kill []
  | block braced body span => exact statements body h
  | if_ c t f span =>
    cases f with
    | none => cases h
    | some f =>
      obtain ⟨ht, hf⟩ := Bool.and_eq_true_iff.mp h
      exact bind _ fun condition => ifElse condition (ifReached (reached t ht)) (ifReached (reached f hf))
  | _ => cases h
lemma statements (stmts : List Stmt) (h : Stmt.lastExits stmts = true) : Leaves (statements stmts) := by
  unfold Build.statements
  cases stmts with
  | nil => cases h
  | cons stmt stmts =>
    cases stmts with
    | nil =>
      exact fun s b => (ifReached (reached stmt h) : Leaves (Build.ifReached stmt _)) s b
    | cons next rest => exact bind _ fun _ => statements (next :: rest) h
end

lemma statement {stmt : Stmt} (h : stmt.alwaysExits = true) : Leaves (statement stmt) := ifReached (reached stmt h)

end Leaves
end Shading.Spirv.Build
