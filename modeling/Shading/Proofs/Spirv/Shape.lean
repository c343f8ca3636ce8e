import Shading.Proofs.Spirv.Flow

/-! How the body of a function may go on. Each rule appends the instructions of one step; ways lead
only to labels that are still to be opened, except for the way back to the start of a loop. -/
namespace Shading.Spirv

variable {code : List Instruction} {i : Instruction} {l header next : Nat}

/-- The instruction that opens a block. -/
def labelled (l : Nat) : Instruction := { op := .label, result := l }

@[simp] lemma opened?_labelled : (labelled l).opened? = some l := rfl

lemma before_cons (hi : i.opened? = none) (l : Nat) : before l (i :: code) = before l code := by
  rw [before, if_neg (by simp [hi])]

lemma before_labelled_self (l : Nat) : before l (labelled l :: code) = code := by
  rw [before, if_pos (by simp)]

lemma before_labelled {l k : Nat} (h : l ≠ k) : before l (labelled k :: code) = before l code := by
  rw [before, if_neg]
  simpa using h.symm

namespace Repeated

lemma cons (h : Repeated code header next) (hi : i.opened? = none) (ht : header ∉ i.targets) :
    Repeated (i :: code) header next := by
  refine ⟨?_, ?_, ?_, ?_, ?_⟩
  · simpa [hi] using h.starts
  · simpa [hi] using h.goesOn
  · rw [before_cons hi]
    exact h.entry
  · rw [before_cons hi]
    exact h.next
  · rw [edges_cons, List.count_append, List.count_eq_zero.mpr ht, h.total]

lemma label (h : Repeated code header next) (hl : l ∉ opened code) :
    Repeated (labelled l :: code) header next := by
  have hheader : header ≠ l := fun heq => hl (heq ▸ h.starts)
  have hnext : next ≠ l := fun heq => hl (heq ▸ h.goesOn)
  refine ⟨?_, ?_, ?_, ?_, ?_⟩
  · simp [h.starts]
  · simp [h.goesOn]
  · rw [before_labelled hheader]
    exact h.entry
  · rw [before_labelled hnext]
    exact h.next
  · exact h.total

end Repeated

namespace Entered

lemma cons (h : Entered code header next) (hi : i.opened? = none) (ht : header ∉ i.targets) :
    Entered (i :: code) header next := by
  refine ⟨?_, ?_, ?_, fun hnext => ?_, ?_⟩
  · simpa [hi] using h.starts
  · simp [h.named]
  · rw [before_cons hi]
    exact h.entry
  · rw [before_cons hi]
    exact h.next (by simpa [hi] using hnext)
  · rw [edges_cons, List.count_append, List.count_eq_zero.mpr ht, h.total]

lemma label (h : Entered code header next) (hl : l ∉ opened code) : Entered (labelled l :: code) header next := by
  have hheader : header ≠ l := fun heq => hl (heq ▸ h.starts)
  refine ⟨?_, ?_, ?_, fun hnext => ?_, ?_⟩
  · simp [h.starts]
  · simp [h.named]
  · rw [before_labelled hheader]
    exact h.entry
  · by_cases heq : next = l
    · rw [heq, before_labelled_self]
      exact h.total
    · rw [before_labelled heq]
      exact h.next (by simpa [heq] using hnext)
  · exact h.total

lemma close (h : Entered code header next) (hnext : next ∈ opened code) (hi : i.opened? = none)
    (ht : i.targets.count header = 1) : Repeated (i :: code) header next := by
  refine ⟨?_, ?_, ?_, ?_, ?_⟩
  · simpa [hi] using h.starts
  · simpa [hi] using hnext
  · rw [before_cons hi]
    exact h.entry
  · rw [before_cons hi]
    exact h.next hnext
  · rw [edges_cons, List.count_append, ht, h.total]

end Entered

namespace Shape

variable {st : Status} {G : Promises} {body : Body}

lemma congr {body' : Body} (h : Shape st G body) (hcode : body'.code = body.code)
    (hblock : body'.block = body.block)
    (hbreaks : body'.breaks = body.breaks) (hcontinues : body'.continues = body.continues) :
    Shape st G body' := by
  obtain ⟨header, locals, code, block, breaks, continues⟩ := body'
  dsimp only at hcode hblock hbreaks hcontinues
  subst hcode hblock hbreaks hcontinues
  exact { h with }

lemma label_mem {t : JumpTarget} (h : Shape st G body) (ht : t ∈ body.breaks ++ body.continues) :
    t.label ∈ G.breaks ++ G.continues := by
  rw [← h.breaks, ← h.continues, ← List.map_append]
  exact List.mem_map_of_mem ht

lemma forget {untouched : List Nat} (h : Shape st G body) (hsub : untouched ⊆ G.untouched) :
    Shape st { G with untouched } body :=
  { h with promised := fun l hl => h.promised l (hsub hl), untouched := fun l hl => h.untouched l (hsub hl) }

lemma reorder {labels : List Nat} (h : Shape st G body) (hperm : G.labels.Perm labels) :
    Shape st { G with labels } body :=
  { h with
    nodup := hperm.nodup_iff.mp h.nodup
    unopened := fun l hl => h.unopened l (hperm.mem_iff.mpr hl)
    named := fun l hl => (h.named l hl).imp_right hperm.mem_iff.mp
    jumps := fun l hl => hperm.mem_iff.mp (h.jumps l hl)
    promised := fun l hl => hperm.mem_iff.mp (h.promised l hl) }

lemma promise (h : Shape st G body) (hopened : l ∉ opened body.code) (hlabels : l ∉ G.labels) :
    Shape st { G with labels := l :: G.labels, untouched := l :: G.untouched } body :=
  { h with
    nodup := List.nodup_cons.mpr ⟨hlabels, h.nodup⟩
    unopened := List.forall_mem_cons.mpr ⟨hopened, h.unopened⟩
    promised := List.forall_mem_cons.mpr ⟨List.mem_cons_self, fun k hk =>
      List.mem_cons_of_mem _ (h.promised k hk)⟩
    named := fun k hk => (h.named k hk).imp_right (List.mem_cons_of_mem _)
    jumps := fun k hk => List.mem_cons_of_mem _ (h.jumps k hk)
    untouched := List.forall_mem_cons.mpr
      ⟨fun hedges => absurd (h.named l (.inl hedges)) (by simp [hopened, hlabels]), h.untouched⟩ }

lemma parents_cons (h : Shape st G body) (hi : ∀ k ∈ i.parents, IsBlock G.entry body.code k) :
    ∀ k ∈ Spirv.parents (i :: body.code), IsBlock G.entry (i :: body.code) k := by
  intro k hk
  rw [Spirv.parents_cons, List.mem_append] at hk
  exact (hk.elim (hi k) (h.parents k)).cons i

lemma silent {st' : Status} (h : Shape st G body) (hstatus : Status.next i st = some st')
    (hclosed : (st' != .closed) = (st != .closed))
    (hopened : i.opened? = none) (htargets : i.targets = []) (hannounced : ∀ k ∈ i.announced, k ∈ G.labels)
    (hparents : ∀ k ∈ i.parents, IsBlock G.entry body.code k) (hloops : loops (i :: body.code) =
    loops body.code) (hdead : deadEnds (i :: body.code) = deadEnds body.code) :
    Shape st' G { body with code := i :: body.code } := by
  refine { h with
    status := ?_, block := ?_, unopened := ?_, named := ?_, untouched := ?_, repeated := ?_,
      entered := ?_, unreached := ?_,
    current := fun k hk => (h.current k hk).cons i, visited := fun k hk =>
      (h.visited k hk).cons i, parents := h.parents_cons hparents }
  · rw [status?, h.status]
    exact hstatus
  · rw [hclosed]
    exact h.block
  · simpa [hopened] using h.unopened
  · intro k hk
    rw [edges_cons, htargets, announced_cons, List.nil_append, List.mem_append, or_left_comm] at hk
    obtain hk | hk := hk
    · exact .inr (hannounced k hk)
    · simpa [hopened] using h.named k hk
  · simpa [htargets] using h.untouched
  · intro p hp
    rw [hloops] at hp
    obtain ⟨x, n, hp, hx⟩ := h.repeated p hp
    exact ⟨x, n, hp, hx.imp_right (·.cons hopened (by simp [htargets]))⟩
  · exact fun p hp => (h.entered p hp).cons hopened (by simp [htargets])
  · intro x hx
    rw [hdead] at hx
    simpa [hopened, htargets] using h.unreached x hx

lemma plain (h : Shape .opened G body) (hi : i.isPlain = true) :
    Shape .opened G { body with code := i :: body.code } :=
  h.silent (Instruction.next_of_isPlain hi) rfl (Instruction.opened?_of_isPlain hi)
    (Instruction.targets_of_isPlain hi)
    (by simp [Instruction.announced_of_isPlain hi]) (by simp [Instruction.parents_of_isPlain hi])
      (loops_cons_of_isPlain hi _)
    (deadEnds_cons_of_isPlain hi _)

lemma plains (h : Shape .opened G body) {c : List Instruction} (hc : ∀ i ∈ c, i.isPlain = true) :
    Shape .opened G { body with code := c ++ body.code } := by
  induction c with
  | nil => exact h
  | cons i c ih =>
    rw [List.forall_mem_cons] at hc
    exact (ih hc.2).plain hc.1

lemma phi (h : Shape .opened G body) (hi : i.op = .phi)
    (hparents : ∀ k ∈ i.parents, IsBlock G.entry body.code k) :
    Shape .opened G { body with code := i :: body.code } := by
  refine h.silent ?_ rfl ?_ ?_ ?_ hparents ?_ ?_
  all_goals simp [Status.next, Instruction.isTerminator, Instruction.isMerge, Instruction.opened?,
    Instruction.targets, Instruction.announced, loops, deadEnds, hi]

lemma select {merge : Nat} (h : Shape .opened G body) (hmerge : merge ∈ G.labels) :
    Shape .announced G { body with code := selection merge :: body.code } :=
  h.silent rfl rfl rfl rfl
    (by simpa [selection, Instruction.announced, Instruction.isMerge, Instruction.ids, Operand.id?] using hmerge)
    (by simp [selection, Instruction.parents]) rfl rfl

lemma loop {merge : Nat} (h : Shape .opened G body) (hmerge : merge ∈ G.labels) (hnext : next ∈ G.labels)
    (hcurrent : current? body.code = some header) (hentry : (edges (before header body.code)).count header = 1)
    (htotal : (edges body.code).count header = 1) :
    Shape .announced { G with loops := (header, next) :: G.loops }
    { body with code := Spirv.loop merge next :: body.code } := by
  refine { h with
    status := ?_, block := ?_, named := ?_, repeated := ?_, entered := ?_, current := fun k hk =>
      (h.current k hk).cons _,
    visited := fun k hk => (h.visited k hk).cons _, parents :=
      h.parents_cons (by simp [Spirv.loop, Instruction.parents]) }
  · rw [status?, h.status]
    rfl
  · exact h.block
  · intro k hk
    have hk : k ∈ edges body.code ∨ k = merge ∨ k = next ∨ k ∈ announced body.code := by
      simpa [Spirv.loop, Instruction.announced, Instruction.isMerge, Instruction.ids, Operand.id?,
        Instruction.targets] using hk
    obtain hk | rfl | rfl | hk := hk
    · exact h.named k (.inl hk)
    · exact .inr hmerge
    · exact .inr hnext
    · exact h.named k (.inr hk)
  · rw [show loops (Spirv.loop merge next :: body.code) = (current? body.code, some next) ::
      loops body.code from rfl, hcurrent]
    refine List.forall_mem_cons.mpr ⟨⟨header, next, rfl, .inl List.mem_cons_self⟩, fun p hp => ?_⟩
    obtain ⟨x, n, hp, hx⟩ := h.repeated p hp
    exact ⟨x, n, hp, hx.imp (List.mem_cons_of_mem _) (·.cons rfl (by simp [Spirv.loop, Instruction.targets]))⟩
  · refine List.forall_mem_cons.mpr ⟨⟨List.mem_of_mem_head? hcurrent, ?_, hentry, ?_, htotal⟩, fun p hp => ?_⟩
    · simp [Spirv.loop, Instruction.announced, Instruction.isMerge, Instruction.ids, Operand.id?]
    · exact fun hopened => absurd hopened (h.unopened next hnext)
    exact (h.entered p hp).cons rfl (by simp [Spirv.loop, Instruction.targets])

lemma label {labels untouched : List Nat} (h : Shape .closed G body) (hperm : G.labels.Perm (l :: labels))
    (huntouched : ∀ k ∈ untouched, k ∈ G.untouched ∧ k ≠ l) (hjumps : l ∉ G.breaks ++ G.continues) :
    Shape .opened { G with labels, untouched }
    { body with code := labelled l :: body.code, block := some l } := by
  have hnodup := hperm.nodup_iff.mp h.nodup
  have hlabels (k : Nat) : k ∈ labels ↔ k ∈ G.labels ∧ k ≠ l := by
    rw [hperm.mem_iff, List.mem_cons, or_and_right]
    exact ⟨fun hk => .inr ⟨hk, fun heq => (List.nodup_cons.mp hnodup).1 (heq ▸ hk)⟩, fun hk =>
      hk.elim (fun hk => absurd hk.1 hk.2) (·.1)⟩
  have hnew := h.unopened l (hperm.mem_iff.mpr List.mem_cons_self)
  refine { h with
    status := ?_, block := rfl, nodup := hnodup.of_cons, unopened := ?_, named := ?_, jumps := ?_, promised := ?_,
    untouched := ?_, repeated := ?_, entered := ?_, unreached := ?_, current := ?_,
      visited := fun k hk => (h.visited k hk).cons _,
    parents := h.parents_cons (by simp [labelled, Instruction.parents]) }
  · rw [status?, h.status]
    rfl
  · intro k hk
    have hk := (hlabels k).mp hk
    simpa [hk.2] using h.unopened k hk.1
  · intro k hk
    by_cases heq : k = l
    · simp [heq]
    · exact (h.named k hk).imp (by simp +contextual) fun hk => (hlabels k).mpr ⟨hk, heq⟩
  · exact fun k hk => (hlabels k).mpr ⟨h.jumps k hk, fun heq => hjumps (heq ▸ hk)⟩
  · exact fun k hk => (hlabels k).mpr ⟨h.promised k (huntouched k hk).1, (huntouched k hk).2⟩
  · exact fun k hk => h.untouched k (huntouched k hk).1
  · intro p hp
    obtain ⟨x, n, hp, hx⟩ := h.repeated p hp
    exact ⟨x, n, hp, hx.imp_right (·.label hnew)⟩
  · exact fun p hp => (h.entered p hp).label hnew
  · intro x hx
    obtain ⟨k, hk, hx, hedges⟩ := h.unreached x hx
    exact ⟨k, by simp [hk], hx, hedges⟩
  · intro k hk
    obtain rfl := Option.mem_some.mp hk
    exact .inr (by simp)

lemma close {untouched : List Nat} (h : Shape st G body) (hst : st ≠ .closed) (hi : i.isTerminator = true)
    (hlive : i.op ≠ .unreachable) (htargets : ∀ k ∈ i.targets, k ∈ G.labels)
    (huntouched : ∀ k ∈ untouched, k ∈ G.untouched ∧
      (k ∈ i.targets → ∃ t ∈ body.breaks ++ body.continues, t.label = k ∧ t.used = true)) :
    Shape .closed { G with untouched } { body with code := i :: body.code, block := none } := by
  have hopened := Instruction.opened?_of_isTerminator hi
  have hnot {k : Nat} (hk : k ∈ opened body.code) : k ∉ i.targets := fun hk' => h.unopened k (htargets k hk') hk
  refine { h with
    status := ?_, block := rfl, unopened := ?_, named := ?_, promised := fun k hk =>
      h.promised k (huntouched k hk).1,
    untouched := ?_, repeated := ?_, entered := ?_, unreached := ?_, current := nofun,
      visited := fun k hk => (h.visited k hk).cons i,
    parents := h.parents_cons (by simp [Instruction.parents_of_isTerminator hi]) }
  · rw [status?, h.status]
    cases st <;> simp_all [Status.next]
  · simpa [hopened] using h.unopened
  · intro k hk
    simp only [edges_cons, announced_cons, Instruction.announced_of_isTerminator hi,
      List.nil_append, List.mem_append, or_assoc] at hk
    obtain hk | hk := hk
    · exact .inr (htargets k hk)
    · simpa [hopened] using h.named k hk
  · intro k hk hedges
    obtain ⟨hk, hmarked⟩ := huntouched k hk
    rw [edges_cons, List.mem_append] at hedges
    exact hedges.elim hmarked (h.untouched k hk)
  · intro p hp
    rw [loops_cons_of_isTerminator hi] at hp
    obtain ⟨x, n, hp, hx⟩ := h.repeated p hp
    exact ⟨x, n, hp, hx.imp_right fun hx => hx.cons hopened (hnot hx.starts)⟩
  · exact fun p hp => (h.entered p hp).cons hopened (hnot (h.entered p hp).starts)
  · intro x hx
    rw [deadEnds, if_neg hlive] at hx
    obtain ⟨k, hk, hx, hedges⟩ := h.unreached x hx
    exact ⟨k, by simpa [hopened] using hk, hx, by simp [hnot hk, hedges]⟩

lemma deadEnd (h : Shape .opened G body) (hcurrent : current? body.code = some l) (hl : l ∉ edges body.code) :
    Shape .closed G { body with code := { op := .unreachable } :: body.code, block := none } := by
  have hopened : l ∈ opened body.code := List.mem_of_mem_head? hcurrent
  refine { h with
    status := ?_, block := rfl, repeated := ?_, entered := ?_, unreached := ?_, current := nofun,
    visited := fun k hk => (h.visited k hk).cons _, parents := h.parents_cons (by simp [Instruction.parents]) }
  · rw [status?, h.status]
    rfl
  · intro p hp
    obtain ⟨x, n, hp, hx⟩ := h.repeated p hp
    exact ⟨x, n, hp, hx.imp_right (·.cons rfl (by simp [Instruction.targets]))⟩
  · exact fun p hp => (h.entered p hp).cons rfl (by simp [Instruction.targets])
  · rw [deadEnds, if_pos rfl, hcurrent]
    exact List.forall_mem_cons.mpr ⟨⟨l, hopened, rfl, hl⟩, h.unreached⟩

lemma back {loops : List (Nat × Nat)} {untouched : List Nat} (h : Shape .opened G body)
    (hi : i.isTerminator = true)
    (hlive : i.op ≠ .unreachable) (hloop : (header, next) ∈ G.loops) (hnext : next ∉ G.labels)
    (hback : i.targets.count header = 1) (htargets : ∀ k ∈ i.targets, k = header ∨ k ∈ G.labels)
    (hloops : ∀ p ∈ G.loops, p = (header, next) ∨ p ∈ loops) (hothers : ∀ p ∈ loops, p ∈ G.loops ∧ p.1 ≠ header)
    (huntouched : ∀ k ∈ untouched, k ∈ G.untouched ∧ k ∉ i.targets) :
    Shape .closed { G with loops, untouched } { body with code := i :: body.code, block := none } := by
  have hopened := Instruction.opened?_of_isTerminator hi
  have hentered := h.entered _ hloop
  have hgoes := (h.named next (.inr hentered.named)).resolve_right hnext
  have hnot {k : Nat} (hk : k ∈ opened body.code) (hne : k ≠ header) : k ∉ i.targets :=
    fun hk' => h.unopened k ((htargets k hk').resolve_left hne) hk
  have hheader : header ∈ edges body.code := List.count_pos_iff.mp (by rw [hentered.total]; exact Nat.one_pos)
  refine { h with
    status := ?_, block := rfl, unopened := ?_, named := ?_, promised := fun k hk =>
      h.promised k (huntouched k hk).1,
    untouched := ?_, repeated := ?_, entered := ?_, unreached := ?_, current := nofun,
      visited := fun k hk => (h.visited k hk).cons i,
    parents := h.parents_cons (by simp [Instruction.parents_of_isTerminator hi]) }
  · rw [status?, h.status]
    simp [Status.next, hi]
  · simpa [hopened] using h.unopened
  · intro k hk
    simp only [edges_cons, announced_cons, Instruction.announced_of_isTerminator hi,
      List.nil_append, List.mem_append, or_assoc] at hk
    obtain hk | hk := hk
    · refine (htargets k hk).imp_left ?_
      rintro rfl
      simpa [hopened] using hentered.starts
    · simpa [hopened] using h.named k hk
  · intro k hk hedges
    obtain ⟨hk, hmarked⟩ := huntouched k hk
    rw [edges_cons, List.mem_append] at hedges
    exact h.untouched k hk (hedges.resolve_left hmarked)
  · intro p hp
    rw [loops_cons_of_isTerminator hi] at hp
    obtain ⟨x, n, rfl, hx⟩ := h.repeated p hp
    refine ⟨x, n, rfl, ?_⟩
    obtain hx | hx := hx
    · obtain heq | hx := hloops _ hx
      · cases heq
        exact .inr (hentered.close hgoes hopened hback)
      · exact .inl hx
    · refine .inr (hx.cons hopened (hnot hx.starts fun heq => ?_))
      have := hx.total
      rw [heq, hentered.total] at this
      cases this
  · exact fun p hp => (h.entered p (hothers p hp).1).cons hopened
      (hnot (h.entered p (hothers p hp).1).starts (hothers p hp).2)
  · intro x hx
    rw [deadEnds, if_neg hlive] at hx
    obtain ⟨k, hk, hx, hedges⟩ := h.unreached x hx
    have hne : k ≠ header := fun heq => hedges (heq ▸ hheader)
    exact ⟨k, by simpa [hopened] using hk, hx, by simp [hnot hk hne, hedges]⟩

/-- A value will come from the open block, or from blocks that have been kept in mind. -/
lemma visit {visited : List Nat} (h : Shape st G body)
    (hvisited : ∀ l ∈ visited, l ∈ body.block ∨ l ∈ G.visited) :
    Shape st { G with visited } body :=
  { h with visited := fun l hl => (hvisited l hl).elim (h.current l) (h.visited l) }

/-- The jump targets change. A label that has been jumped to must stay among them or is no longer
kept in mind. -/
lemma retarget {untouched breaks continues : List Nat} {bs cs : List JumpTarget} (h : Shape st G body)
    (hbreaks : bs.map (·.label) = breaks) (hcontinues : cs.map (·.label) = continues)
    (hjumps : ∀ l ∈ breaks ++ continues, l ∈ G.labels)
    (huntouched : ∀ l ∈ untouched, l ∈ G.untouched ∧
    ((∃ t ∈ body.breaks ++ body.continues, t.label = l ∧ t.used = true) →
      ∃ t ∈ bs ++ cs, t.label = l ∧ t.used = true)) :
    Shape st { G with untouched, breaks, continues } { body with breaks := bs, continues := cs } :=
  { h with
    breaks := hbreaks
    continues := hcontinues
    jumps := hjumps
    promised := fun l hl => h.promised l (huntouched l hl).1
    untouched := fun l hl hedges => (huntouched l hl).2 (h.untouched l (huntouched l hl).1 hedges) }

end Shape
end Shading.Spirv
