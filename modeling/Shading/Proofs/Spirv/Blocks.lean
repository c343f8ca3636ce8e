import Shading.Proofs.Spirv.Written

/-! Opening and closing blocks, step by step. While a construct is being written it has promises of
its own, next to those of what surrounds it. -/
namespace Shading.Spirv

namespace Build

variable {α β : Type}

/-- What holds of the answer and the state after a step. -/
def Holds (m : Build α) (s : Setting) (b : Builder) (Q : α → Builder → Prop) : Prop := Q (m s b).1 (m s b).2

namespace Holds

variable {m : Build α} {s : Setting} {b : Builder} {P Q : α → Builder → Prop}

lemma bind {f : α → Build β} {R : β → Builder → Prop} (hm : Holds m s b P)
    (hf : ∀ a b', P a b' → Holds (f a) s b' R) :
    Holds (m >>= f) s b R :=
  hf _ _ hm

lemma weaken (hm : Holds m s b P) (h : ∀ a b', P a b' → Q a b') : Holds m s b Q := h _ _ hm

end Holds

lemma branch_eq (target : Nat) (s : Setting) (b : Builder) : branch target s b = match b.body.block with
    | none => (false, b)
    | some _ => (true, (terminate .branch [.id target] s b).2) := by
  change (match b.body.block with
    | none => pure false
    | some _ => terminate .branch [.id target] >>= fun _ => pure true : Build Bool) s b = _
  cases b.body.block <;> rfl

namespace JumpTarget

variable {ts : List JumpTarget} {t : JumpTarget}

lemma map_label_markFirst (ts : List JumpTarget) : (markFirst ts).map (·.label) = ts.map (·.label) := by
  cases ts <;> rfl

lemma mem_markFirst (ht : t ∈ ts) (hused : t.used = true) : t ∈ markFirst ts := by
  cases ts with
  | nil => cases ht
  | cons first rest =>
    obtain rfl | ht := List.mem_cons.mp ht
    · obtain ⟨label, used⟩ := t
      obtain rfl : used = true := hused
      exact List.mem_cons_self
    · exact List.mem_cons_of_mem _ ht

lemma exists_marked (ht : ts.head? = some t) : ∃ k ∈ markFirst ts, k.label = t.label ∧ k.used = true := by
  cases ts with
  | nil => cases ht
  | cons first rest =>
    cases ht
    exact ⟨_, List.mem_cons_self, rfl, rfl⟩

end JumpTarget
end Build

namespace Promises

/-- Further labels that will be opened, and further labels to which no way leads. -/
def adding (G : Promises) (ls us : List Nat) : Promises :=
    { G with labels := ls ++ G.labels, untouched := us ++ G.untouched }

/-- What is said about labels is said about labels that will be opened. -/
structure Proper (G : Promises) : Prop where
  jumps : ∀ l ∈ G.breaks ++ G.continues, l ∈ G.labels
  untouched : ∀ l ∈ G.untouched, l ∈ G.labels

end Promises

namespace Builder

open Build (Holds)

/-- Inside of a construct that has been started under some promises and has made further ones. -/
structure Inside (st : Status) (G : Promises) (ls us : List Nat) (b : Builder) : Prop where
  written : Written st (G.adding ls us) b
  proper : G.Proper

/-- Between two statements inside of a construct. -/
def Resting (G : Promises) (ls us : List Nat) (b : Builder) : Prop := Inside .opened G ls us b ∨
    Inside .closed G ls us b

variable {st : Status} {G : Promises} {b : Builder} {s : Setting} {l merge next header target : Nat}
    {ls us : List Nat}

lemma Written.start (h : Written st G b) : Inside st G [] [] b := ⟨h, ⟨h.shape.jumps, h.shape.promised⟩⟩

namespace Inside

lemma finish (h : Inside st G [] [] b) : Written st G b := h.written

lemma nodup (h : Inside st G ls us b) : (ls ++ G.labels).Nodup := h.written.shape.nodup

lemma not_mem_of_mem (h : Inside st G ls us b) (hl : l ∈ ls) : l ∉ G.labels :=
  fun hG => (List.disjoint_of_nodup_append h.nodup) hl hG

lemma ne_of_mem {k : Nat} (h : Inside st G ls us b) (hl : l ∈ ls) (hk : k ∈ G.untouched) : k ≠ l :=
  fun heq => h.not_mem_of_mem hl (heq ▸ h.proper.untouched k hk)

lemma isSome_block (h : Inside st G ls us b) : b.body.block.isSome = (st != .closed) := h.written.shape.block

lemma reshape {st' : Status} {us' : List Nat} {body : Body} (h : Inside st G ls us b)
    (hshape : Shape st' (G.adding ls us') body)
    (hheader : body.header = b.body.header) (hlocals : body.locals = b.body.locals)
    (hcode : Spirv.results body.code = Spirv.results b.body.code) : Inside st' G ls us' { b with body } :=
  ⟨h.written.reshape hshape hheader hlocals hcode rfl fun _ hl => hl, h.proper⟩

lemma reorder {ls' : List Nat} (h : Inside st G ls us b) (hperm : ls.Perm ls') : Inside st G ls' us b :=
  ⟨h.written.reshape (h.written.shape.reorder (hperm.append_right _)) rfl rfl rfl rfl
    fun _ hl => (hperm.append_right _).mem_iff.mpr hl, h.proper⟩

lemma forget (h : Inside st G ls us b) {us' : List Nat} (hsub : us' ⊆ us) : Inside st G ls us' b :=
  h.reshape (h.written.shape.forget fun k hk =>
    List.mem_append.mpr ((List.mem_append.mp hk).imp_left (@hsub k))) rfl rfl rfl

lemma fresh (h : Inside st G ls us b) : Holds Build.fresh s b fun l b' => Inside st G (l :: ls) (l :: us) b' :=
  ⟨h.written.promise, h.proper⟩

lemma opens {us : List Nat} (pre post us' : List Nat) (h : Inside .closed G (pre ++ l :: post) us b)
    (huntouched : ∀ k ∈ us', k ∈ us ∧ k ≠ l) :
    Holds (Build.label l) s b fun _ b' => Inside .opened G (pre ++ post) us' b' := by
  have hl : l ∈ pre ++ l :: post := by simp
  have hperm : (pre ++ l :: post ++ G.labels).Perm (l :: (pre ++ post ++ G.labels)) :=
    List.perm_middle.append_right _
  refine ⟨h.written.label hperm (fun k hk => ?_) fun hmem => h.not_mem_of_mem hl (h.proper.jumps l hmem), h.proper⟩
  obtain hk | hk := List.mem_append.mp hk
  · exact ⟨List.mem_append_left _ (huntouched k hk).1, (huntouched k hk).2⟩
  · exact ⟨List.mem_append_right _ hk, h.ne_of_mem hl hk⟩

lemma selectionMerge (h : Inside .opened G ls us b) (hmerge : merge ∈ ls) :
    Holds (Build.selectionMerge merge) s b fun _ b' => Inside .announced G ls us b' :=
  h.reshape (h.written.shape.select (List.mem_append_left _ hmerge)) rfl rfl rfl

/-- The end of a block, from which control goes on at labels of the construct. -/
lemma terminate {op : Op} {operands : List Operand} (us' : List Nat) (h : Inside st G ls us b) (hst : st ≠ .closed)
    (hop : Instruction.isTerminator { op } = true) (hlive : op ≠ .unreachable)
    (htargets : ∀ k ∈ Instruction.targets { op, operands }, k ∈ ls)
    (huntouched : ∀ k ∈ us', k ∈ us ∧ k ∉ Instruction.targets { op, operands }) :
    Holds (Build.terminate op operands) s b fun _ b' => Inside .closed G ls us' b' := by
  refine h.reshape (h.written.shape.close (i := { op, operands }) hst hop hlive
    (fun k hk => List.mem_append_left _ (htargets k hk)) fun k hk => ?_) rfl rfl rfl
  obtain hk | hk := List.mem_append.mp hk
  · exact ⟨List.mem_append_left _ (huntouched k hk).1, fun hmem => absurd hmem (huntouched k hk).2⟩
  · exact ⟨List.mem_append_right _ hk, fun hmem => absurd rfl (h.ne_of_mem (htargets k hmem) hk)⟩

lemma branchOn {condition whenTrue whenFalse : Nat} (us' : List Nat) (h : Inside st G ls us b) (hst : st ≠ .closed)
    (htrue : whenTrue ∈ ls) (hfalse : whenFalse ∈ ls)
    (huntouched : ∀ k ∈ us', k ∈ us ∧ k ≠ whenTrue ∧ k ≠ whenFalse) :
    Holds (Build.branchOn condition whenTrue whenFalse) s b fun _ b' => Inside .closed G ls us' b' := by
  have htargets : Instruction.targets
    { op := .branchConditional, operands := Operand.ids [condition, whenTrue, whenFalse] } =
      [whenTrue, whenFalse] := rfl
  refine h.terminate us' hst rfl (by decide) ?_ ?_
  · simp [htargets, htrue, hfalse]
  · simpa [htargets] using huntouched

lemma not_mem_edges (h : Inside st G ls us b) (hl : l ∈ ls) (hu : l ∈ us) : l ∉ edges b.body.code := by
  intro hedges
  obtain ⟨t, ht, rfl, -⟩ := h.written.shape.untouched l (List.mem_append_left _ hu) hedges
  exact h.not_mem_of_mem hl (h.proper.jumps _ (h.written.shape.label_mem ht))

end Inside

lemma targets_branch (target : Nat) : Instruction.targets
    { op := .branch, operands := [.id target] } = [target] := rfl

lemma Written.branch (us : List Nat) (h : Written st G b) (hst : st ≠ .closed) (htarget : target ∈ G.labels)
    (huntouched : ∀ k ∈ us, k ∈ G.untouched ∧ k ≠ target) :
    Holds (Build.branch target) s b fun jumped b' => jumped = true ∧
    Written .closed { G with untouched := us } b' := by
  obtain ⟨l, hl⟩ := Option.isSome_iff_exists.mp (h.shape.block.trans (bne_iff_ne.mpr hst))
  rw [Holds, Build.branch_eq, hl]
  refine ⟨rfl, h.reshape (h.shape.close (i := { op := .branch, operands := [.id target] }) hst rfl
    nofun ?_ fun k hk => ?_)
    rfl rfl rfl rfl fun _ hl => hl⟩
  · simpa [targets_branch] using htarget
  · simpa [targets_branch, (huntouched k hk).2] using (huntouched k hk).1

/-- A jump if a block is open. Labels to which there was no way stay so unless there is a jump. -/
lemma Settled.branch (us : List Nat) (h : Settled G b) (htarget : target ∈ G.labels)
    (huntouched : ∀ k ∈ us, k ∈ G.untouched ∧ k ≠ target) :
    Holds (Build.branch target) s b fun jumped b' =>
      Written .closed { G with untouched := if jumped then us else G.untouched } b' := by
  obtain h | h := h
  · refine .weaken (h.branch us (by decide) htarget huntouched) ?_
    rintro - b' ⟨rfl, h'⟩
    exact h'
  · have hnone : b.body.block = none := by simpa using h.shape.block
    rw [Holds, Build.branch_eq, hnone]
    exact h

lemma Inside.branch (us' : List Nat) (h : Inside st G ls us b) (hst : st ≠ .closed) (htarget : target ∈ ls)
    (huntouched : ∀ k ∈ us', k ∈ us ∧ k ≠ target) :
    Holds (Build.branch target) s b fun _ b' => Inside .closed G ls us' b' := by
  have hwritten : Holds (Build.branch target) s b fun jumped b' => jumped = true ∧
    Written .closed (G.adding ls us') b' := by
    refine h.written.branch (us' ++ G.untouched) hst (List.mem_append_left _ htarget) fun k hk => ?_
    obtain hk | hk := List.mem_append.mp hk
    · exact (huntouched k hk).imp_left (List.mem_append_left _)
    · exact ⟨List.mem_append_right _ hk, h.ne_of_mem htarget hk⟩
  exact ⟨hwritten.2, h.proper⟩

lemma Resting.branch (us' : List Nat) (h : Resting G ls us b) (htarget : target ∈ ls)
    (huntouched : ∀ k ∈ us', k ∈ us ∧ k ≠ target) :
    Holds (Build.branch target) s b fun jumped b' => Inside .closed G ls (if jumped then us' else us) b' := by
  obtain h | h := h
  · refine .weaken (P := fun jumped b' => jumped = true ∧ Inside .closed G ls us' b')
      ⟨?_, h.branch us' (by decide) htarget huntouched⟩ ?_
    · obtain ⟨l, hl⟩ := Option.isSome_iff_exists.mp h.isSome_block
      rw [Build.branch_eq, hl]
    · rintro - b' ⟨rfl, h'⟩
      exact h'
  · have hnone : b.body.block = none := by simpa using h.isSome_block
    rw [Holds, Build.branch_eq, hnone]
    exact h

namespace Inside

/-- A label of the construct is opened; if it is not reachable, its block is a dead end. -/
lemma labelIf {us : List Nat} {reachable : Bool} (pre post us' : List Nat)
    (h : Inside .closed G (pre ++ l :: post) us b)
    (huntouched : ∀ k ∈ us', k ∈ us ∧ k ≠ l) (hreachable : reachable = false → l ∈ us) :
    Holds (Build.labelIf reachable l) s b fun _ b' => Resting G (pre ++ post) us' b' := by
  have hopened : Holds (Build.label l) s b fun _ b' => Inside .opened G (pre ++ post) us' b' :=
    h.opens pre post us' huntouched
  refine .bind (P := fun _ b' => b' = (Build.label l s b).2) rfl ?_
  rintro - _ rfl
  cases reachable with
  | true => exact .inl hopened
  | false =>
    have hnot : l ∉ edges b.body.code := h.not_mem_edges (by simp) (hreachable rfl)
    exact .inr (hopened.reshape (hopened.written.shape.deadEnd (l := l) rfl hnot) rfl rfl rfl)

end Inside

namespace Written

lemma leave {op : Op} {operands : List Operand} (h : Written .opened G b)
    (hop : op = .return_ ∨ op = .returnValue ∨ op = .kill) :
    Holds (Build.terminate op operands) s b fun _ b' => Written .closed G b' := by
  have htargets : Instruction.targets { op, operands } = [] := by
    obtain rfl | rfl | rfl := hop <;> rfl
  refine (h.start.terminate [] (by decide) ?_ ?_ (by simp [htargets]) (by simp)).finish
  · obtain rfl | rfl | rfl := hop <;> rfl
  · obtain rfl | rfl | rfl := hop <;> decide

lemma jump_eq {innermost? : Body → Option JumpTarget} {mark : Body → Body} : Build.jump innermost? mark s b =
    (match innermost? b.body with
    | none => pure ()
    | some target => do
      modify fun b => { b with body := mark b.body }
      let _ ← Build.branch target.label : Build Unit) s b := rfl

lemma jump {innermost? : Body → Option JumpTarget} {mark : Body → Body} (bs cs : List JumpTarget)
    (h : Written .opened G b)
    (hmark : mark b.body = { b.body with breaks := bs, continues := cs })
    (hbreaks : bs.map (·.label) = b.body.breaks.map (·.label))
      (hcontinues : cs.map (·.label) = b.body.continues.map (·.label))
    (hinnermost : ∀ target, innermost? b.body = some target → target ∈ b.body.breaks ++ b.body.continues ∧
      ∃ t ∈ bs ++ cs, t.label = target.label ∧ t.used = true)
    (hused : ∀ t ∈ b.body.breaks ++ b.body.continues, t.used = true → t ∈ bs ++ cs) :
      Settled G (Build.jump innermost? mark s b).2 := by
  rw [jump_eq]
  cases htarget : innermost? b.body with
  | none => exact .inl h
  | some target =>
    obtain ⟨hmem, t, ht, hlabel, hmarked⟩ := hinnermost target htarget
    have hretarget : Shape .opened G { b.body with breaks := bs, continues := cs } := by
      refine h.shape.retarget (hbreaks.trans h.shape.breaks) (hcontinues.trans h.shape.continues)
        h.shape.jumps fun l hl => ⟨hl, ?_⟩
      rintro ⟨t, ht, hlabel, htused⟩
      exact ⟨t, hused t ht htused, hlabel, htused⟩
    have hwritten : Written .opened G { b with body := mark b.body } :=
      hmark ▸ h.reshape hretarget rfl rfl rfl rfl fun _ hl => hl
    refine .inr ?_
    change Written .closed G (Build.branch target.label s { b with body := mark b.body }).2
    obtain ⟨l, hl⟩ := Option.isSome_iff_exists.mp hwritten.shape.block
    rw [Build.branch_eq, hl]
    refine hwritten.reshape (hwritten.shape.close
      (i := { op := .branch, operands := [.id target.label] }) (by decide) rfl (by simp)
      ?_ fun k hk => ⟨hk, ?_⟩) rfl rfl rfl rfl fun _ hl => hl
    · simpa [targets_branch] using h.shape.jumps _ (h.shape.label_mem hmem)
    · rw [hmark]
      intro hk
      obtain rfl : k = target.label := by simpa [targets_branch] using hk
      exact ⟨t, ht, hlabel, hmarked⟩

lemma breakOut (h : Written .opened G b) : Settled G (Build.breakOut s b).2 := by
  refine h.jump (Build.JumpTarget.markFirst b.body.breaks) b.body.continues rfl
    (Build.JumpTarget.map_label_markFirst _) rfl
    (fun target htarget => ?_) fun t ht hused => ?_
  · obtain ⟨t, ht, hmarked⟩ := Build.JumpTarget.exists_marked htarget
    exact ⟨List.mem_append_left _ (List.mem_of_mem_head? htarget), t, List.mem_append_left _ ht, hmarked⟩
  · rw [List.mem_append] at ht ⊢
    exact ht.imp_left fun ht => Build.JumpTarget.mem_markFirst ht hused

lemma continueLoop (h : Written .opened G b) : Settled G (Build.continueLoop s b).2 := by
  refine h.jump b.body.breaks (Build.JumpTarget.markFirst b.body.continues) rfl rfl
    (Build.JumpTarget.map_label_markFirst _)
    (fun target htarget => ?_) fun t ht hused => ?_
  · obtain ⟨t, ht, hmarked⟩ := Build.JumpTarget.exists_marked htarget
    exact ⟨List.mem_append_right _ (List.mem_of_mem_head? htarget), t, List.mem_append_right _ ht, hmarked⟩
  · rw [List.mem_append] at ht ⊢
    exact ht.imp_right fun ht => Build.JumpTarget.mem_markFirst ht hused

end Written
end Builder
end Shading.Spirv
