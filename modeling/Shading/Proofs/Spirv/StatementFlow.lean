import Shading.Proofs.Spirv.ExpressionFlow
import Shading.Proofs.Typing.Judgement

/-! Statements keep the structure of control flow: what is promised before one is what is promised
after it. -/
namespace Shading.Spirv

open Builder (Written Inside Settled Resting)

namespace Build

/-- The step starts in an open block and ends between two statements, whatever is still to come. -/
class KeepsFlow {α : Type} (m : Build α) : Prop where
  keeps : ∀ s G b, Written .opened G b → Settled G (m s b).2

end Build

/-- The promise that a loop will be repeated. -/
def Promises.entering (G : Promises) (header next : Nat) : Promises :=
    { G with loops := (header, next) :: G.loops }

/-- The promises where a `break` leads to a label. -/
def Promises.breaking (G : Promises) (merge : Nat) (us : List Nat) : Promises where
  reserved := G.reserved
  entry := G.entry
  visited := G.visited
  labels := merge :: G.labels
  untouched := us ++ G.untouched
  loops := G.loops
  breaks := merge :: G.breaks
  continues := G.continues

/-- The promises where a `continue` leads to a label. -/
def Promises.continuing (G : Promises) (next : Nat) : Promises :=
  { G with labels := next :: G.labels, continues := next :: G.continues }

lemma Promises.Proper.continuing {G : Promises} {next : Nat} (h : G.Proper) : (G.continuing next).Proper := by
  refine ⟨fun l hl => ?_, fun l hl => List.mem_cons_of_mem _ (h.untouched l hl)⟩
  have := h.jumps l
  simp only [Promises.continuing, List.mem_append, List.mem_cons] at *
  tauto

open Build (KeepsOpen KeepsFlow Holds)

namespace Builder

variable {st : Status} {G : Promises} {b : Builder} {s : Setting} {header next merge start l : Nat}
    {ls us : List Nat}

lemma Inside.settle {α : Type} (m : Build α) [hm : KeepsFlow m] (h : Inside .opened G ls us b) :
    Holds m s b fun _ b' => Resting G ls us b' :=
  (hm.keeps s _ b h.written).imp (fun h' => ⟨h', h.proper⟩) fun h' => ⟨h', h.proper⟩

lemma Resting.finish (h : Resting G [] [] b) : Settled G b := h.imp (·.finish) (·.finish)

/-! ### Loops -/

/-- A label that is still to be opened starts none of the loops that are being written. -/
lemma Inside.loops_ne (h : Inside st G ls us b) (hl : l ∈ ls) : ∀ p ∈ G.loops, p.1 ≠ l := by
  rintro p hp rfl
  exact h.written.shape.unopened p.1 (List.mem_append_left _ hl) (h.written.shape.entered p hp).starts

/-- A loop starts: the way into its first block is the only one there so far. -/
lemma Inside.loopHeader (pre post us' : List Nat)
    (h : Inside .opened G (pre ++ header :: post) us b) (hheader : header ∈ us)
    (hmerge : merge ∈ pre ++ post) (hnext : next ∈ pre ++ post) (huntouched : ∀ k ∈ us', k ∈ us ∧ k ≠ header) :
    Holds (Build.loopHeader header next merge) s b fun _ b' =>
    Inside .announced (G.entering header next) (pre ++ post) us' b' := by
  have hnot : header ∉ edges b.body.code := h.not_mem_edges (by simp) hheader
  have hjump : Build.branch header s b = (true, (Build.terminate .branch [.id header] s b).2) := by
    obtain ⟨l, hl⟩ := Option.isSome_iff_exists.mp h.isSome_block
    rw [Build.branch_eq, hl]
  have hclosed : Holds (Build.branch header) s b fun _ b' => Inside .closed G (pre ++ header :: post) us' b' :=
    h.branch us' (by decide) (by simp) huntouched
  unfold Build.loopHeader
  refine .bind (P := fun _ b1 => Inside .closed G (pre ++ header :: post) us' b1 ∧
    (edges b1.body.code).count header = 1)
    ⟨hclosed, ?_⟩ fun _ b1 ⟨h1, hcount⟩ => ?_
  · rw [hjump]
    change (header :: edges b.body.code).count header = 1
    rw [List.count_cons_self, List.count_eq_zero.mpr hnot]
  refine .bind (P := fun _ b2 => Inside .opened G (pre ++ post) us' b2 ∧
    b2.body.code = labelled header :: b1.body.code)
    ⟨h1.opens pre post us' (by simpa using fun k hk => ⟨hk, (huntouched k hk).2⟩), rfl⟩ fun _ b2 ⟨h2, hcode⟩ => ?_
  refine ⟨h2.written.reshape (h2.written.shape.loop (List.mem_append_left _ hmerge) (List.mem_append_left _ hnext)
    ?_ ?_ ?_) rfl rfl rfl rfl fun _ hl => hl, ⟨h.proper.jumps, h.proper.untouched⟩⟩
  · rw [hcode]
    rfl
  · rw [hcode, before_labelled_self, hcount]
  · rw [hcode]
    exact hcount

lemma Inside.back {op : Op} {operands : List Operand} (us' : List Nat)
    (h : Inside .opened (G.entering header next) ls us b)
    (hop : Instruction.isTerminator { op } = true) (hlive : op ≠ .unreachable) (hnext : next ∉ ls ++ G.labels)
    (hloops : ∀ p ∈ G.loops, p.1 ≠ header) (hback : (Instruction.targets { op, operands }).count header = 1)
    (htargets : ∀ k ∈ Instruction.targets { op, operands }, k = header ∨ k ∈ ls)
    (huntouched : ∀ k ∈ us', k ∈ us ∧ k ∉ Instruction.targets { op, operands }) :
    Holds (Build.terminate op operands) s b fun _ b' => Inside .closed G ls us' b' := by
  have hheader : header ∉ G.labels := fun hmem => h.written.shape.unopened header (List.mem_append_right _ hmem)
    (h.written.shape.entered _ List.mem_cons_self).starts
  refine ⟨h.written.reshape (h.written.shape.back (i := { op, operands }) hop hlive List.mem_cons_self hnext hback
    (fun k hk => (htargets k hk).imp_right (List.mem_append_left _)) (fun p hp => List.mem_cons.mp hp)
    (fun p hp => ⟨List.mem_cons_of_mem _ hp, hloops p hp⟩) fun k hk =>
      ?_) rfl rfl rfl rfl fun _ hl => hl, ⟨h.proper.jumps, h.proper.untouched⟩⟩
  obtain hk | hk := List.mem_append.mp hk
  · exact (huntouched k hk).imp_left (List.mem_append_left _)
  · refine ⟨List.mem_append_right _ hk, fun hmem => ?_⟩
    obtain rfl | hmem := htargets k hmem
    · exact hheader (h.proper.untouched _ hk)
    · exact h.ne_of_mem hmem hk rfl

lemma Inside.branchBack (us' : List Nat) (h : Inside .opened (G.entering header next) ls us b)
    (hnext : next ∉ ls ++ G.labels)
    (hloops : ∀ p ∈ G.loops, p.1 ≠ header) (huntouched : ∀ k ∈ us', k ∈ us ∧ k ≠ header) :
    Holds (Build.branch header) s b fun _ b' => Inside .closed G ls us' b' := by
  have hback : Holds (Build.terminate .branch [.id header]) s b fun _ b' => Inside .closed G ls us' b' := by
    refine h.back us' rfl (by decide) hnext hloops ?_ ?_ ?_
    · simp [targets_branch]
    · simp [targets_branch]
    · simpa [targets_branch] using huntouched
  obtain ⟨l, hl⟩ := Option.isSome_iff_exists.mp h.isSome_block
  rw [Holds, Build.branch_eq, hl]
  exact hback

/-- A target that has been used and is not the innermost one is further out. -/
lemma exists_used_of_tail {ts : List JumpTarget} {l n : Nat} {rest : List Nat}
    (hts : ts.map (·.label) = n :: rest)
    (hused : ∃ t ∈ ts, t.label = l ∧ t.used = true) (hn : l = n → ts.head?.any (·.used) = false) :
    ∃ t ∈ ts.tail, t.label = l ∧ t.used = true := by
  obtain ⟨t, ht, hlabel, hused⟩ := hused
  cases ts with
  | nil => cases ht
  | cons first ts =>
    obtain rfl | ht := List.mem_cons.mp ht
    · have hfirst := hn (hlabel.symm.trans (List.cons.inj hts).1)
      simp [hused] at hfirst
    · exact ⟨t, ht, hlabel, hused⟩

lemma Inside.next_not_mem (h : Inside st G [merge, next] us b) : next ∉ [merge] ++ G.labels := by
  have hnodup := h.nodup
  simp only [List.cons_append, List.nil_append, List.nodup_cons, List.mem_cons, not_or] at hnodup ⊢
  exact ⟨Ne.symm hnodup.1.1, hnodup.2.1⟩

lemma Inside.pushBreak (h : Inside .closed G (ls ++ [merge]) us b) (hus : us ⊆ [merge]) :
    Inside .closed (G.breaking merge us) ls []
      { b with body := { b.body with breaks := { label := merge } :: b.body.breaks } } := by
  have hjumps : ∀ l ∈ (merge :: G.breaks) ++ G.continues, l ∈ merge :: G.labels := by
    intro l hl
    obtain rfl | hl := List.mem_cons.mp hl
    · exact List.mem_cons_self
    · exact List.mem_cons_of_mem _ (h.proper.jumps l hl)
  have hlabels : ls ++ [merge] ++ G.labels = ls ++ merge :: G.labels := by simp
  have hshape := h.written.shape.reorder (.of_eq hlabels)
  refine ⟨h.written.reshape (hshape.retarget (congrArg (merge :: ·) hshape.breaks) hshape.continues
    (fun l hl => List.mem_append_right ls (hjumps l hl)) fun l hl =>
      ⟨hl, ?_⟩) rfl rfl rfl rfl fun l hl => ?_, hjumps, fun l hl => ?_⟩
  · rintro ⟨t, ht, hused⟩
    exact ⟨t, List.mem_cons_of_mem _ ht, hused⟩
  · exact (List.Perm.of_eq hlabels).mem_iff.mpr hl
  · obtain hl | hl := List.mem_append.mp hl
    · exact List.mem_cons.mpr (.inl (List.mem_singleton.mp (hus hl)))
    · exact List.mem_cons_of_mem _ (h.proper.untouched l hl)

lemma Inside.pushContinue (h : Inside .closed G (ls ++ [next]) us b) :
    Inside .closed (G.continuing next) ls us
      { b with body := { b.body with continues := { label := next } :: b.body.continues } } := by
  have hproper : (G.continuing next).Proper := h.proper.continuing
  have hlabels : ls ++ [next] ++ G.labels = ls ++ next :: G.labels := by simp
  have hshape := h.written.shape.reorder (.of_eq hlabels)
  refine ⟨h.written.reshape (hshape.retarget hshape.breaks (congrArg (next :: ·) hshape.continues)
    (fun l hl => List.mem_append_right ls (hproper.jumps l hl)) fun l hl =>
      ⟨hl, ?_⟩) rfl rfl rfl rfl fun l hl => (List.Perm.of_eq hlabels).mem_iff.mpr hl, hproper⟩
  rintro ⟨t, ht, hused⟩
  refine ⟨t, ?_, hused⟩
  simp only [List.mem_append, List.mem_cons] at ht ⊢
  tauto

/-- The label is no longer where a `break` leads. No way leads there if there was no `break`. -/
lemma Written.popBreak (h : Written .closed (G.breaking merge us) b) (hproper : G.Proper) :
    Inside .closed G [merge] (if b.body.breaks.head?.any (·.used) then [] else us)
      { b with body := { b.body with breaks := b.body.breaks.tail } } := by
  have hmerge := (List.nodup_cons.mp h.shape.nodup).1
  have hbreaks := h.shape.breaks
  -- what is left is the label, unless it has been used, and labels from further out
  have hcases (l : Nat) (hl : l ∈ (if b.body.breaks.head?.any (·.used) then [] else us) ++ G.untouched) :
      l ∈ us ∧ b.body.breaks.head?.any (·.used) = false ∨ l ∈ G.untouched ∧ l ≠ merge := by
    obtain hl | hl := List.mem_append.mp hl
    · split at hl
      · cases hl
      · rename_i hunused
        exact .inl ⟨hl, eq_false_of_ne_true hunused⟩
    · exact .inr ⟨hl, fun heq => hmerge (heq ▸ hproper.untouched l hl)⟩
  refine ⟨h.reshape (h.shape.retarget ?_ h.shape.continues (fun l hl => ?_) fun l hl => ⟨?_, ?_⟩)
    rfl rfl rfl rfl fun _ hl => hl, hproper⟩
  · rw [List.map_tail, hbreaks]
    rfl
  · exact List.mem_cons_of_mem _ (hproper.jumps l hl)
  · exact List.mem_append.mpr ((hcases l hl).imp (·.1) (·.1))
  · rintro ⟨t, ht, hused⟩
    obtain ht | ht := List.mem_append.mp ht
    · obtain ⟨t, ht, hused⟩ := exists_used_of_tail hbreaks ⟨t, ht, hused⟩ fun heq =>
        (hcases l hl).elim (·.2) fun h => absurd heq h.2
      exact ⟨t, List.mem_append_left _ ht, hused⟩
    · exact ⟨t, List.mem_append_right _ ht, hused⟩

lemma Inside.popContinue (h : Inside .closed (G.continuing next) ls us b) (hnext : next ∉ us)
    (hproper : G.Proper) :
    Inside .closed G (ls ++ [next]) us { b with body := { b.body with continues := b.body.continues.tail } } := by
  have hlabels : ls ++ next :: G.labels = ls ++ [next] ++ G.labels := by simp
  have hshape := h.written.shape.reorder (.of_eq hlabels)
  have hmem : next ∉ G.labels := (List.nodup_cons.mp h.nodup.of_append_right).1
  refine ⟨h.written.reshape (hshape.retarget hshape.breaks
    ?_ (fun l hl => List.mem_append_right _ (hproper.jumps l hl))
    fun l hl => ⟨hl, ?_⟩) rfl rfl rfl rfl fun l hl => (List.Perm.of_eq hlabels).mem_iff.mpr hl, hproper⟩
  · rw [List.map_tail, hshape.continues]
    rfl
  · rintro ⟨t, ht, hused⟩
    obtain ht | ht := List.mem_append.mp ht
    · exact ⟨t, List.mem_append_left _ ht, hused⟩
    · obtain ⟨t, ht, hused⟩ := exists_used_of_tail hshape.continues ⟨t, ht, hused⟩ fun heq => by
        obtain hl | hl := List.mem_append.mp hl
        · exact absurd (heq ▸ hl) hnext
        · exact absurd (heq ▸ hproper.untouched l hl) hmem
      exact ⟨t, List.mem_append_right _ ht, hused⟩

lemma Inside.loopBody (body : Build Unit) [KeepsFlow body]
    (h : Inside .closed G [merge, next, start] us b) (hus : us ⊆ [merge]) :
    Holds (Build.loopBody start next merge body) s b fun r b' =>
    Inside .closed G [merge, next] (if r.1 then [] else us) b' := by
  have hnodup : [merge, next, start].Nodup := h.nodup.of_append_left
  have hmerge : merge ≠ next := by simp only [List.nodup_cons, List.mem_cons, not_or] at hnodup; exact hnodup.1.1
  have hus' : next ∉ us := fun hmem => hmerge (List.mem_singleton.mp (hus hmem)).symm
  have hnext : next ∉ us ++ G.untouched := fun hmem =>
    (List.mem_append.mp hmem).elim hus' fun hmem => h.ne_of_mem (by simp) hmem rfl
  have hperm : ([merge, next] ++ [start]).Perm ([start] ++ [merge, next]) := List.perm_append_comm
  have hordered : Inside .closed G ([start] ++ [merge] ++ [next]) us b := h.reorder hperm
  have hpushed := Inside.pushBreak (Inside.pushContinue hordered) hus
  unfold Build.loopBody
  refine .bind (P := fun _ b1 => Inside .closed ((G.continuing next).breaking merge us) [start] []
    b1) hpushed fun _ b1 h1 => ?_
  refine .bind (h1.opens [] [] [] (by simp)) fun _ b2 h2 => ?_
  refine .bind (h2.settle body) fun _ b3 h3 => ?_
  refine .bind (h3.finish.branch (us ++ G.untouched) (by simp [Promises.breaking, Promises.continuing])
    fun k hk => ⟨hk, fun heq => hnext (heq ▸ hk)⟩) fun falls b4 h4 => ?_
  have h4 : Written .closed ((G.continuing next).breaking merge us) b4 := by
    cases falls <;> exact h4
  refine (h4.popBreak h.proper.continuing).popContinue ?_ h.proper
  split
  · exact List.not_mem_nil
  · exact hus'

/-! ### Switches -/

lemma Inside.freshLabels {γ : Type} (cs : List γ) (h : Inside st G ls us b) :
    Holds (cs.mapM fun _ => Build.fresh) s b fun labels b' => labels.length = cs.length ∧
    Inside st G (labels ++ ls) us b' := by
  induction cs generalizing ls b with
  | nil => exact ⟨rfl, h⟩
  | cons c cs ih =>
    rw [List.mapM_cons]
    refine .bind h.fresh fun l b1 h1 => ?_
    refine .bind (ih (h1.forget (List.subset_cons_self l us))) fun labels b2 ⟨hlength, h2⟩ => ?_
    exact ⟨congrArg (· + 1) hlength, h2.reorder List.perm_middle⟩

lemma targets_switch {σ : Type} {selector default : Nat} {cases : List (SwitchCase σ × Nat)} :
    Instruction.targets { op := .switch, operands := Build.switchOperands selector default cases } =
      default :: (cases.flatMap fun (c, label) => match c.value with
        | some v => [Operand.number (Build.wordOf v), .id label]
        | none => []).filterMap Operand.id? := rfl

lemma mem_targets_switch {σ : Type} {selector default k : Nat} {cases : List (SwitchCase σ × Nat)}
    (hk : k ∈ Instruction.targets { op := .switch, operands := Build.switchOperands selector default cases }) :
    k = default ∨ k ∈ cases.map (·.2) := by
  rw [targets_switch, List.mem_cons] at hk
  refine hk.imp_right fun hk => ?_
  obtain ⟨operand, hoperand, hid⟩ := List.mem_filterMap.mp hk
  obtain ⟨⟨c, label⟩, hc, hoperand⟩ := List.mem_flatMap.mp hoperand
  cases hvalue : c.value with
  | none => simp [hvalue] at hoperand
  | some v =>
    simp only [hvalue, List.mem_cons, List.not_mem_nil, or_false] at hoperand
    obtain rfl | rfl := hoperand
    · cases hid
    · cases hid
      exact List.mem_map_of_mem hc

end Builder

namespace Build

namespace KeepsFlow

variable {α β : Type}

lemma of_open {m : Build α} (h : KeepsOpen m) : KeepsFlow m := ⟨fun s G b hb => .inl (h.keeps s G b hb)⟩

lemma bind {m : Build α} {f : α → Build β} (hm : KeepsOpen m) (hf : ∀ a, KeepsFlow (f a)) : KeepsFlow (m >>= f) :=
  ⟨fun s G b h => (hf (m s b).1).keeps s G (m s b).2 (hm.keeps s G b h)⟩

lemma ifThen (condition : Nat) (body : Build Unit) [KeepsFlow body] : KeepsFlow (ifThen condition body) := by
  refine ⟨fun s G b h => ?_⟩
  suffices hholds : Holds (Build.ifThen condition body) s b fun _ b' => Settled G b' from hholds
  unfold Build.ifThen
  refine .bind h.start.fresh fun whenTrue b1 h1 => ?_
  refine .bind h1.fresh fun merge b2 h2 => ?_
  refine .bind (h2.selectionMerge (by simp)) fun _ b3 h3 => ?_
  refine .bind (h3.branchOn [] (by decide) (by simp) (by simp) (by simp)) fun _ b4 h4 => ?_
  refine .bind (h4.opens [merge] [] [] (by simp)) fun _ b5 h5 => ?_
  refine .bind (h5.settle body) fun _ b6 h6 => ?_
  refine .bind (h6.branch [] (by simp) (by simp)) fun falls b7 h7 => ?_
  have h7 : Inside .closed G [merge] [] b7 := by simpa using h7
  exact .inl (h7.opens (s := s) [] [] [] (by simp)).finish

lemma ifElse (condition : Nat) (body other : Build Unit) [KeepsFlow body] [KeepsFlow other] :
    KeepsFlow (ifElse condition body other) := by
  refine ⟨fun s G b h => ?_⟩
  suffices hholds : Holds (Build.ifElse condition body other) s b fun _ b' => Settled G b' from hholds
  unfold Build.ifElse
  refine .bind h.start.fresh fun whenTrue b1 h1 => ?_
  refine .bind h1.fresh fun merge b2 h2 => ?_
  refine .bind h2.fresh fun whenFalse b3 h3 => ?_
  have hnodup : [whenFalse, merge, whenTrue].Nodup := h3.nodup.of_append_left
  obtain ⟨⟨hmergeFalse, hne⟩, hmerge⟩ : (whenFalse ≠ merge ∧ whenFalse ≠ whenTrue) ∧
    merge ≠ whenTrue := by simpa using hnodup
  refine .bind (h3.selectionMerge (by simp)) fun _ b4 h4 => ?_
  refine .bind (h4.branchOn [merge] (by decide) (by simp) (by simp)
    (by simp [hmerge, hmergeFalse.symm])) fun _ b5 h5 => ?_
  refine .bind (h5.opens [whenFalse, merge] [] [merge] (by simp [hmerge])) fun _ b6 h6 => ?_
  refine .bind (h6.settle body) fun _ b7 h7 => ?_
  refine .bind (h7.branch [] (by simp) (by simp)) fun first b8 h8 => ?_
  refine .bind (h8.opens [] [merge] (if first then [] else [merge]) ?_) fun _ b9 h9 => ?_
  · cases first <;> simp [hmergeFalse.symm]
  refine .bind (h9.settle other) fun _ b10 h10 => ?_
  refine .bind (h10.branch [] (by simp) (by simp)) fun second b11 h11 => ?_
  refine (Inside.labelIf (s := s) [] [] [] h11 (by simp) ?_).finish
  cases first <;> cases second <;> simp

/-- A loop that has gone back to its start without a condition ends where a `break` leads. -/
lemma endLoop {s : Setting} {G : Promises} {b : Builder} {header next merge : Nat}
    {reachable : Bool} {us : List Nat}
    (h : Inside .opened (G.entering header next) [merge] us b) (hloops : ∀ p ∈ G.loops, p.1 ≠ header)
    (hnext : next ∉ [merge] ++ G.labels) (hheader : header ∉ us) (hreachable : reachable = false → merge ∈ us) :
    Holds (do let _ ← branch header; labelIf reachable merge) s b fun _ b' => Settled G b' := by
  refine .bind (h.branchBack us hnext hloops fun k hk => ⟨hk, fun heq => hheader (heq ▸ hk)⟩) fun _ b1 h1 => ?_
  exact (Inside.labelIf (s := s) [] [] [] h1 (by simp) hreachable).finish

lemma loopUntil (condition : Option Expr) (body : Build Unit) [KeepsFlow body] :
    KeepsFlow (loopUntil condition body) := by
  refine ⟨fun s G b h => ?_⟩
  suffices hholds : Holds (Build.loopUntil condition body) s b fun _ b' => Settled G b' from hholds
  unfold Build.loopUntil
  refine .bind h.start.fresh fun header b1 h1 => ?_
  refine .bind h1.fresh fun start b2 h2 => ?_
  refine .bind h2.fresh fun next b3 h3 => ?_
  refine .bind h3.fresh fun merge b4 h4 => ?_
  have hnodup : [merge, next, start, header].Nodup := h4.nodup.of_append_left
  have hloops := h4.loops_ne (l := header) (by simp)
  simp only [List.nodup_cons, List.mem_cons, List.not_mem_nil, or_false, not_or] at hnodup
  obtain ⟨⟨hmergeNext, hmergeStart, hmergeHeader⟩, ⟨hnextStart, hnextHeader⟩, hstartHeader, -⟩ := hnodup
  refine .bind (h4.loopHeader [merge, next, start] [] [merge] (by simp) (by simp) (by simp)
    (by simp [hmergeHeader])) fun _ b5 h5 => ?_
  refine .bind (h5.branch [merge] (by decide) (by simp) (by simp [hmergeStart])) fun _ b6 h6 => ?_
  refine .bind (h6.loopBody body (by simp)) ?_
  rintro ⟨breaks, continues⟩ b7 h7
  have hnext := h7.next_not_mem
  refine .bind (h7.opens [merge] [] (if breaks then [] else [merge]) ?_) fun _ b8 h8 => ?_
  · cases breaks <;> simp [hmergeNext]
  have hend : Holds (do let _ ← branch header; labelIf breaks merge) s b8 fun _ b' => Settled G b' := by
    refine endLoop h8 hloops hnext ?_ ?_
    · cases breaks <;> simp [Ne.symm hmergeHeader]
    · cases breaks <;> simp
  cases condition with
  | none => exact hend
  | some c =>
    cases continues with
    | false => exact hend
    | true =>
      have := KeepsOpen.value c
      refine .bind (h8.run (value c)) fun v b9 h9 => ?_
      have htargets : Instruction.targets { op := .branchConditional, operands := Operand.ids [v, header, merge] } =
        [header, merge] := rfl
      refine .bind (h9.back [] rfl (by decide) hnext hloops ?_ ?_ (by simp)) fun _ b10 h10 => ?_
      · rw [htargets, List.count_cons_self, List.count_cons_of_ne hmergeHeader, List.count_nil]
      · simp [htargets]
      · exact .inl (h10.opens (s := s) [] [] [] (by simp)).finish

lemma loopWhile (condition step : Option Expr) (body : Build Unit) [KeepsFlow body] :
    KeepsFlow (loopWhile condition step body) := by
  refine ⟨fun s G b h => ?_⟩
  suffices hholds : Holds (Build.loopWhile condition step body) s b fun _ b' => Settled G b' from hholds
  unfold Build.loopWhile
  refine .bind h.start.fresh fun header b1 h1 => ?_
  refine .bind h1.fresh fun check b2 h2 => ?_
  refine .bind h2.fresh fun start b3 h3 => ?_
  refine .bind h3.fresh fun next b4 h4 => ?_
  refine .bind h4.fresh fun merge b5 h5 => ?_
  have hnodup : [merge, next, start, check, header].Nodup := h5.nodup.of_append_left
  have hloops := h5.loops_ne (l := header) (by simp)
  simp only [List.nodup_cons, List.mem_cons, List.not_mem_nil, or_false, not_or] at hnodup
  obtain ⟨⟨hmergeNext, hmergeStart, hmergeCheck, hmergeHeader⟩,
    ⟨hnextStart, hnextCheck, hnextHeader⟩, -⟩ := hnodup
  refine .bind (h5.loopHeader [merge, next, start, check] [] [merge] (by simp) (by simp) (by simp)
    (by simp [hmergeHeader]))
    fun _ b6 h6 => ?_
  refine .bind (h6.branch [merge] (by decide) (by simp) (by simp [hmergeCheck])) fun _ b7 h7 => ?_
  refine .bind (h7.opens [merge, next, start] [] [merge] (by simp [hmergeCheck])) fun _ b8 h8 => ?_
  extract_lets rest
  have hrest (b9 : Builder) (h9 : Inside .closed (G.entering header next) [merge, next, start]
    (if condition.isSome then [] else [merge]) b9) :
      Holds (rest ()) s b9 fun _ b' => Settled G b' := by
    refine .bind (h9.loopBody body (by cases condition <;> simp)) ?_
    rintro ⟨breaks, continues⟩ b10 h10
    have hnext := h10.next_not_mem
    refine .bind (h10.opens [merge] [] (if breaks then [] else if condition.isSome then []
      else [merge]) ?_) fun _ b11 h11 => ?_
    · cases breaks <;> cases condition <;> simp [hmergeNext]
    have hend (b12 : Builder) (h12 : Inside .opened (G.entering header next) [merge]
        (if breaks then [] else if condition.isSome then [] else [merge]) b12) :
        Holds (do let _ ← branch header; labelIf (condition.isSome || breaks) merge) s b12
          fun _ b' => Settled G b' := by
      refine endLoop h12 hloops hnext ?_ ?_
      · cases breaks <;> cases condition <;> simp [Ne.symm hmergeHeader]
      · cases breaks <;> cases condition <;> simp
    cases continues with
    | false => exact hend b11 h11
    | true =>
      cases step with
      | none => exact hend b11 h11
      | some e =>
        have := KeepsOpen.value e
        exact .bind (h11.run (value e)) fun _ b12 h12 => hend b12 h12
  cases condition with
  | none =>
    exact .bind (h8.branch [merge] (by decide) (by simp) (by simp [hmergeStart])) fun _ b9 h9 => hrest b9 h9
  | some c =>
    have := KeepsOpen.value c
    refine .bind (h8.run (value c)) fun v b9 h9 => ?_
    exact .bind (h9.branchOn [] (by decide) (by simp) (by simp) (by simp)) fun _ b10 h10 => hrest b10 h10

/-- The bodies of cases go from label to label; the last one falls out to the end of the switch or
is left before. -/
def KeepsCases (n : Nat) (body : Nat → List Nat → Build Bool) : Prop :=
  ∀ s G b merge labels us, labels.length = n → merge ∈ G.labels → (∀ k ∈ us, k ∈ G.untouched ∧ k ≠ merge) →
    Inside .closed G labels [] b → Holds (body merge labels) s b fun falls b' =>
      Written .closed { G with untouched := if falls then us else G.untouched } b'

lemma switchOn {σ : Type} (selector : Nat) (cases : List (SwitchCase σ)) {body : Nat → List Nat → Build Bool}
    (hbody : KeepsCases cases.length body) : KeepsFlow (switchOn selector cases body) := by
  refine ⟨fun s G b h => ?_⟩
  suffices hholds : Holds (Build.switchOn selector cases body) s b fun _ b' => Settled G b' from hholds
  unfold Build.switchOn
  refine .bind h.start.fresh fun merge b1 h1 => ?_
  refine .bind (h1.freshLabels cases) fun labels b2 ⟨hlength, h2⟩ => ?_
  extract_lets labelled default
  have hlabelled : ∀ k ∈ labelled.map (·.2), k ∈ labels := by
    intro k hk
    obtain ⟨⟨c, l⟩, hmem, rfl⟩ := List.mem_map.mp hk
    exact (List.of_mem_zip hmem).2
  have hdefault : default = merge ∨ default ∈ labels := by
    change ((labelled.find? (·.1.value.isNone)).map (·.2)).getD merge = merge ∨ _
    cases hfind : labelled.find? (·.1.value.isNone) with
    | none => exact .inl rfl
    | some found =>
      have hdefault : default = found.2 := by simp [default, hfind]
      exact .inr (hdefault ▸ hlabelled _ (List.mem_map_of_mem (List.mem_of_find?_eq_some hfind)))
  have hmerge : merge ∉ labels := by
    have hnodup := h2.nodup.of_append_left
    exact fun hmem => (List.disjoint_of_nodup_append hnodup) hmem List.mem_cons_self
  -- where all other values lead; if that is the end of the switch, there is a way to it
  obtain ⟨us, hus⟩ : ∃ us : List Nat, us = if default == merge then [] else [merge] := ⟨_, rfl⟩
  have husmerge : us ⊆ [merge] := by
    rw [hus]
    split <;> simp
  refine .bind (h2.selectionMerge (by simp)) fun _ b3 h3 => ?_
  refine .bind (h3.terminate us (by decide) rfl (by decide) ?_ ?_) fun _ b4 h4 => ?_
  · intro k hk
    obtain heq | hk := Builder.mem_targets_switch hk
    · simpa [heq, or_comm] using hdefault
    · exact List.mem_append_left _ (hlabelled k hk)
  · intro k hk
    rw [hus] at hk
    split at hk
    · cases hk
    · rename_i hne
      have hkmerge := List.mem_singleton.mp hk
      refine ⟨hk, fun hk => ?_⟩
      obtain heq | hk := Builder.mem_targets_switch hk
      · simp [← heq, hkmerge] at hne
      · exact hmerge (hkmerge ▸ hlabelled _ hk)
  refine .bind (P := fun _ b5 => Inside .closed (G.breaking merge us) labels [] b5)
    (h4.pushBreak husmerge) fun _ b5 h5 => ?_
  refine .bind (hbody s _ b5 merge labels G.untouched hlength List.mem_cons_self ?_ h5) fun falls b6 h6 => ?_
  · exact fun k hk => ⟨List.mem_append_right _ hk, h4.ne_of_mem (by simp) hk⟩
  have h6 : Written .closed (G.breaking merge (if falls then [] else us)) b6 := by
    cases falls <;> exact h6
  have h7 := h6.popBreak h.start.proper
  refine (Inside.labelIf (s := s) [] [] [] h7 (by simp) fun hreachable => ?_).finish
  simp only [Bool.or_eq_false_iff] at hreachable
  obtain ⟨⟨hdefault, rfl⟩, hunused⟩ := hreachable
  have hunused : b6.body.breaks.head?.any (·.used) = false := hunused
  simp [hunused, hus, hdefault]

end KeepsFlow

/-! ### Statements -/

lemma ifReached_eq (stmt : Stmt) (append : Build Unit) (s : Setting) (b : Builder) :
    ifReached stmt append s b = match b.body.block with
      | none => note (.statementSkipped stmt.span) s b
      | some _ => append s (setSpan stmt.span s b).2 := by
  change (match b.body.block with
    | none => note (.statementSkipped stmt.span)
    | some _ => setSpan stmt.span >>= fun _ => append : Build Unit) s b = _
  cases b.body.block <;> rfl

namespace KeepsOpen

lemma ifReached {stmt : Stmt} {append : Build Unit} (happend : KeepsOpen append) :
    KeepsOpen (ifReached stmt append) := by
  refine ⟨fun s G b h => ?_⟩
  obtain ⟨l, hl⟩ := Option.isSome_iff_exists.mp h.shape.block
  rw [ifReached_eq, hl]
  exact happend.keeps s G _ (h.straight (IsStraight.straight s b))

lemma declare (n : Nat) (init : Option Expr) (span : Span) : KeepsOpen (reached (.declare n init span)) := by
  unfold reached
  refine bind (of_straight inferInstance) fun id => ?_
  cases init with
  | none => exact of_straight inferInstance
  | some e => exact bind (value e) fun v => of_straight (.emit rfl)

lemma declarations {stmts : List Stmt} (h : ∀ stmt ∈ stmts, stmt.IsDeclare) : KeepsOpen (statements stmts) := by
  induction stmts with
  | nil => unfold statements; exact of_straight inferInstance
  | cons stmt stmts ih =>
    rw [List.forall_mem_cons] at h
    obtain ⟨n, init, span, rfl⟩ := h.1
    unfold statements
    exact bind (ifReached (declare n init span)) fun _ => ih h.2

lemma header (stmt : Stmt) (h : stmt.isHeader = true) : KeepsOpen (Build.ifReached stmt (reached stmt)) := by
  refine ifReached ?_
  cases stmt with
  | expr e span => unfold reached; exact bind (value e) fun _ => of_straight inferInstance
  | declare n init span => exact declare n init span
  | block braced body span =>
    cases braced with
    | true => cases h
    | false =>
      unfold reached
      exact declarations (Stmt.isHeader_block.mp h)
  | _ => cases h

end KeepsOpen

namespace KeepsFlow

variable {d : Declared} {returns : Ty}

lemma settled_ifReached {stmt : Stmt} {append : Build Unit} [happend : KeepsFlow append]
    {s : Setting} {G : Promises} {b : Builder}
    (h : Settled G b) : Settled G (ifReached stmt append s b).2 := by
  rw [ifReached_eq]
  obtain h | h := h
  · obtain ⟨l, hl⟩ := Option.isSome_iff_exists.mp h.shape.block
    rw [hl]
    exact happend.keeps s G _ (h.straight (IsStraight.straight s b))
  · have hnone : b.body.block = none := by simpa using h.shape.block
    rw [hnone]
    exact .inr ⟨⟨h.distinct.pos, h.distinct.nodup, h.distinct.range⟩, h.pending, h.isVariable, h.shape⟩

instance (stmt : Stmt) (append : Build Unit) [KeepsFlow append] : KeepsFlow (ifReached stmt append) :=
  ⟨fun _ _ _ h => settled_ifReached (.inl h)⟩

mutual
lemma reached (stmt : Stmt) (h : stmt.WellTyped d returns) : KeepsFlow (reached stmt) := by
  obtain ⟨hrule, -, hparts⟩ := Stmt.wellTyped_iff.mp h
  unfold Build.reached
  cases stmt with
  | block braced body span => exact ⟨fun s G b hb => statements body hparts (.inl hb)⟩
  | if_ c t f span =>
    have ht := reached t (hparts t List.mem_cons_self)
    refine bind (.value c) fun condition => ?_
    cases f with
    | none => exact ifThen condition _
    | some f =>
      have hf := reached f (hparts f (List.mem_cons_of_mem _ List.mem_cons_self))
      exact ifElse condition _ _
  | loop kind init condition step body span =>
    have hbody := reached body (hparts body (by simp [Stmt.parts]))
    have hwhile : KeepsFlow (do
        match init with
        | some i => ifReached i (Build.reached i)
        | none => pure ()
        Build.loopWhile condition step (ifReached body (Build.reached body))) := by
      cases init with
      | none => exact loopWhile condition step _
      | some i => exact bind (.header i (hrule.1 i rfl)) fun _ => loopWhile condition step _
    cases kind with
    | doWhile => exact loopUntil condition _
    | for_ => exact hwhile
    | while_ => exact hwhile
  | switch e cases span =>
    refine bind (.value e) fun selector => switchOn selector cases ?_
    exact fun s G b merge labels us hlength hmerge hus hb =>
      switchCases cases hparts hlength hmerge hus (fun hnil => (hnil ▸ hb).finish) fun _ => hb
  | return_ e span =>
    cases e with
    | none => exact ⟨fun s G b h => .inr (h.leave (.inl rfl))⟩
    | some e => exact bind (.value e) fun v => ⟨fun s G b h => .inr (h.leave (.inr (.inl rfl)))⟩
  | break_ span => exact ⟨fun s G b h => h.breakOut⟩
  | continue_ span => exact ⟨fun s G b h => h.continueLoop⟩
  | discard span => exact ⟨fun s G b h => .inr (h.leave (.inr (.inr rfl)))⟩
  | declare n init span => exact of_open (.declare n init span)
  | expr e span => exact of_open (.bind (.value e) fun _ => .of_straight inferInstance)
  | empty span => exact of_open (.of_straight inferInstance)
lemma statements (stmts : List Stmt) (h : ∀ stmt ∈ stmts, stmt.WellTyped d returns) {s : Setting}
    {G : Promises} {b : Builder}
    (hb : Settled G b) : Settled G (statements stmts s b).2 := by
  unfold Build.statements
  cases stmts with
  | nil => exact hb
  | cons stmt stmts =>
    rw [List.forall_mem_cons] at h
    have hstmt := reached stmt h.1
    exact statements stmts h.2 (settled_ifReached hb)
lemma switchCases (cases : List (SwitchCase Stmt))
    (h : ∀ stmt ∈ cases.flatMap (·.body), stmt.WellTyped d returns) {s : Setting}
    {G : Promises} {b : Builder} {merge : Nat} {labels us : List Nat} {falls : Bool}
    (hlength : labels.length = cases.length)
    (hmerge : merge ∈ G.labels) (hus : ∀ k ∈ us, k ∈ G.untouched ∧ k ≠ merge)
    (hlast : labels = [] → Written .closed { G with untouched := if falls then us else G.untouched } b)
    (hb : labels ≠ [] → Inside .closed G labels [] b) :
    Holds (switchCases merge labels falls cases) s b fun falls b' =>
      Written .closed { G with untouched := if falls then us else G.untouched } b' := by
  unfold Build.switchCases
  cases cases with
  | nil =>
    obtain rfl := List.eq_nil_of_length_eq_zero hlength
    exact hlast rfl
  | cons case cases =>
    obtain ⟨v, body, span⟩ := case
    cases labels with
    | nil => cases hlength
    | cons l labels =>
      rw [List.flatMap_cons, List.forall_mem_append] at h
      have hbody : KeepsFlow (Build.statements body) := ⟨fun s G b hb => statements body h.1 (.inl hb)⟩
      have hinside := hb (List.cons_ne_nil _ _)
      refine .bind (hinside.opens [] labels [] (by simp)) fun _ b1 h1 => ?_
      refine .bind (h1.settle (Build.statements body)) fun _ b2 h2 => ?_
      cases labels with
      | nil =>
        refine .bind (h2.finish.branch us hmerge hus) fun falls b3 h3 => ?_
        exact switchCases cases h.2 (Nat.succ.inj hlength) hmerge hus (fun _ => h3) fun hne => absurd rfl hne
      | cons next labels =>
        refine .bind (h2.branch [] (show next ∈ next :: labels from List.mem_cons_self) (by simp))
          fun falls b3 h3 => ?_
        exact switchCases cases h.2 (Nat.succ.inj hlength) hmerge hus nofun fun _ => by simpa using h3
end

end KeepsFlow
end Build
end Shading.Spirv
