import Shading.Proofs.Spirv.Blocks
import Shading.Proofs.Spirv.ExpressionSteps

/-! Expressions leave a block open: where one is closed for a jump, another is opened after it. -/
namespace Shading.Spirv

open Builder (Written Inside)

namespace Build

variable {α β : Type}

/-- The step starts and ends in an open block, whatever is still to come. -/
class KeepsOpen (m : Build α) : Prop where
  keeps : ∀ s G b, Written .opened G b → Written .opened G (m s b).2

end Build

open Build (KeepsOpen Holds)

lemma Builder.Inside.run {α : Type} {G : Promises} {ls us : List Nat} {s : Setting} {b : Builder}
    (m : Build α) [hm : KeepsOpen m]
    (h : Inside .opened G ls us b) : Holds m s b fun _ b' => Inside .opened G ls us b' :=
  ⟨hm.keeps s _ b h.written, h.proper⟩

/-! ### Values from more than one block -/

lemma Instruction.ids_eq (op : Op) (type result : Option Nat) (ids : List Nat) :
    Instruction.ids { op, type, result, operands := Operand.ids ids } = ids := by
  simp [Instruction.ids, Operand.ids, List.filterMap_map, Function.comp_def, Operand.id?]

lemma Instruction.odds_flatMap (ways : List (Nat × Nat)) :
    odds (ways.flatMap fun (value, block) => [value, block]) = ways.map (·.2) := by
  induction ways with
  | nil => rfl
  | cons way ways ih => exact congrArg (way.2 :: ·) ih

/-- The promise that a value will come from a block. -/
def Promises.visiting (G : Promises) (l : Nat) : Promises := { G with visited := l :: G.visited }

namespace Builder

variable {G : Promises} {ls us : List Nat} {s : Setting} {b : Builder}

lemma Inside.openBlock (other : Nat) (h : Inside .opened G ls us b) :
    Holds Build.openBlock? s b fun block b' => Inside .opened (G.visiting (block.getD other)) ls us b' := by
  obtain ⟨l, hl⟩ := Option.isSome_iff_exists.mp h.isSome_block
  refine ⟨h.written.visit fun k hk => ?_, ⟨h.proper.jumps, h.proper.untouched⟩⟩
  obtain rfl | hk := List.mem_cons.mp hk
  · refine .inl ?_
    change b.body.block.getD other ∈ b.body.block
    rw [hl]
    rfl
  · exact .inr hk

lemma Written.leaveBehind {l : Nat} (h : Written .opened (G.visiting l) b) : Written .opened G b :=
  h.visit fun _ hk => .inr (List.mem_cons_of_mem _ hk)

lemma Written.meet {ty : Ty} {ways : List (Nat × Nat)} (h : Written .opened G b)
    (hways : ∀ w ∈ ways, w.2 ∈ G.visited) :
    Holds (Build.phi ty ways) s b fun _ b' => Written .opened G b' := by
  refine .bind (m := Build.typeOf ty) (P := fun _ b1 => Written .opened G b1)
    (h.straight (Build.IsStraight.straight s b)) fun type b1 h1 => ?_
  have hrelax : Straight { b1 with next := b1.next + 1 }
    (Build.relax b1.next ty s { b1 with next := b1.next + 1 }).2 :=
    Build.IsStraight.straight s _
  refine h1.phi hrelax (i := { op := .phi, type, result := b1.next, operands := _ }) rfl rfl ?_
  rw [Instruction.parents, if_pos rfl, Instruction.ids_eq, Instruction.odds_flatMap]
  exact List.forall_mem_map.mpr hways

end Builder

namespace Build.KeepsOpen

variable {α β : Type}

lemma of_straight {m : Build α} (h : IsStraight m) : KeepsOpen m := ⟨fun s _ b hb => hb.straight (h.straight s b)⟩

lemma bind {m : Build α} {f : α → Build β} (hm : KeepsOpen m) (hf : ∀ a, KeepsOpen (f a)) : KeepsOpen (m >>= f) :=
  ⟨fun s G b h => (hf (m s b).1).keeps s G (m s b).2 (hm.keeps s G b h)⟩

lemma shortCircuit {op : Operator} {first : Nat} {right : Build Nat} (hright : KeepsOpen right) :
    KeepsOpen (shortCircuit op first right) := by
  refine ⟨fun s G b h => ?_⟩
  suffices hholds : Holds (Build.shortCircuit op first right) s b fun _ b' => Written .opened G b' from hholds
  unfold Build.shortCircuit
  refine .bind (h.start.openBlock 0) fun start b1 h1 => ?_
  refine .bind h1.fresh fun other b2 h2 => ?_
  refine .bind h2.fresh fun merge b3 h3 => ?_
  refine .bind (h3.selectionMerge (by simp)) fun _ b4 h4 => ?_
  -- what follows the jump is the same, whichever way it goes
  extract_lets rest
  have hrest (b5 : Builder) (h5 : Inside .closed (G.visiting (start.getD 0)) [merge, other] [] b5) :
    Holds (rest ()) s b5 fun _ b' => Written .opened G b' := by
    refine .bind (h5.opens [merge] [] [] (by simp)) fun _ b6 h6 => ?_
    refine .bind (h6.run right) fun second b7 h7 => ?_
    refine .bind (h7.openBlock other) fun stop b8 h8 => ?_
    refine .bind (h8.branch [] (by decide) (by simp) (by simp)) fun _ b9 h9 => ?_
    refine .bind (h9.opens [] [] [] (by simp)) fun _ b10 h10 => ?_
    refine .weaken (h10.finish.meet ?_) fun _ b' h' => h'.leaveBehind.leaveBehind
    simp [Promises.visiting]
  split
  · exact .bind (h4.branchOn [] (by decide) (by simp) (by simp) (by simp)) fun _ b5 h5 => hrest b5 h5
  · exact .bind (h4.branchOn [] (by decide) (by simp) (by simp) (by simp)) fun _ b5 h5 => hrest b5 h5

lemma choose {condition : Nat} {left right : Build Nat} {ty : Ty} (hleft : KeepsOpen left)
    (hright : KeepsOpen right) :
    KeepsOpen (choose condition left right ty) := by
  refine ⟨fun s G b h => ?_⟩
  suffices hholds : Holds (Build.choose condition left right ty) s b fun _ b' => Written .opened G b' from hholds
  unfold Build.choose
  refine .bind h.start.fresh fun whenTrue b1 h1 => ?_
  refine .bind h1.fresh fun whenFalse b2 h2 => ?_
  refine .bind h2.fresh fun merge b3 h3 => ?_
  refine .bind (h3.selectionMerge (by simp)) fun _ b4 h4 => ?_
  refine .bind (h4.branchOn [] (by decide) (by simp) (by simp) (by simp)) fun _ b5 h5 => ?_
  refine .bind (h5.opens [merge, whenFalse] [] [] (by simp)) fun _ b6 h6 => ?_
  refine .bind (h6.run left) fun _ b7 h7 => ?_
  refine .bind (h7.openBlock whenTrue) fun _ b8 h8 => ?_
  refine .bind (h8.branch [] (by decide) (by simp) (by simp)) fun _ b9 h9 => ?_
  refine .bind (h9.opens [merge] [] [] (by simp)) fun _ b10 h10 => ?_
  refine .bind (h10.run right) fun _ b11 h11 => ?_
  refine .bind (h11.openBlock whenFalse) fun _ b12 h12 => ?_
  refine .bind (h12.branch [] (by decide) (by simp) (by simp)) fun _ b13 h13 => ?_
  refine .bind (h13.opens [] [] [] (by simp)) fun _ b14 h14 => ?_
  refine .weaken (h14.finish.meet ?_) fun _ b' h' => h'.leaveBehind.leaveBehind
  simp [Promises.visiting]

lemma steps : ExpressionSteps Span.Anywhere @KeepsOpen where
  plain _ := of_straight inferInstance
  bind_of hm hQ hf := ⟨fun s G b h => (hf _ (hQ s b inferInstance)).keeps s G _ (hm.keeps s G b h)⟩
  ask _ hf := ⟨fun s => (hf s inferInstance).keeps s⟩
  look _ hf := ⟨fun s G b h => (hf b b.spanned_anywhere).keeps s G b h⟩
  shortCircuit := shortCircuit
  choose _ := choose

lemma value (e : Expr) : KeepsOpen (value e) := steps.value e inferInstance

end Build.KeepsOpen
end Shading.Spirv
