import Shading.Proofs.Spirv.Shape

/-! The state of a builder inside a function, and what steps make of it. -/
namespace Shading.Spirv

namespace Builder

/-- The ids that have been defined. -/
def results (b : Builder) : List Nat :=
  Spirv.results (b.globals ++ (b.functions ++ (b.body.header ++ (b.body.locals ++ b.body.code))))

/-- No id is defined twice, and none of those that are set aside is defined at all. -/
structure Distinct (reserved : List Nat) (b : Builder) : Prop where
  pos : 1 ≤ b.next
  nodup : (reserved ++ b.results).Nodup
  range : ∀ x ∈ reserved ++ b.results, 1 ≤ x ∧ x < b.next

/-- An id that has been taken and is not defined yet. -/
def IsFree (reserved : List Nat) (b : Builder) (x : Nat) : Prop := 1 ≤ x ∧ x < b.next ∧ x ∉ reserved ++ b.results

/-- The state inside a function, given what is still to come. -/
structure Written (st : Status) (G : Promises) (b : Builder) : Prop where
  distinct : Distinct G.reserved b
  pending : ∀ l ∈ G.labels, IsFree G.reserved b l
  isVariable : ∀ i ∈ b.body.locals, i.op = .variable_
  shape : Shape st G b.body

variable {st : Status} {G : Promises} {b b' : Builder} {l : Nat}

lemma opened_subset : opened b.body.code ⊆ b.results := by
  intro l hl
  have hl := opened_subset_results _ hl
  simp [results, hl]

lemma Adds.perm_results {g l c : List Instruction} (h : Adds b b' g l c) (houter : b'.outer = b.outer) :
    b'.results.Perm (Spirv.results (g ++ (l ++ c)) ++ b.results) := by
  have hfunctions : b'.functions = b.functions := congrArg Outer.functions houter
  have hheader : b'.body.header = b.body.header := congrArg Outer.header houter
  unfold results
  rw [← results_append, h.globals, h.locals, h.code, hfunctions, hheader]
  refine List.Perm.filterMap _ ?_
  exact List.perm_iff_count.mpr fun i => by simp only [List.count_append]; omega

lemma Distinct.adds {reserved : List Nat} {g l c : List Instruction} (h : Distinct reserved b)
    (ha : Adds b b' g l c)
    (houter : b'.outer = b.outer) (hnext : b.next ≤ b'.next) : Distinct reserved b' := by
  have hperm : (Spirv.results (g ++ (l ++ c)) ++ (reserved ++ b.results)).Perm (reserved ++ b'.results) :=
    (List.perm_append_comm_assoc ..).trans ((ha.perm_results houter).symm.append_left _)
  refine ⟨Nat.le_trans h.pos hnext, hperm.nodup ?_, fun x hx => ?_⟩
  · refine List.nodup_append.mpr ⟨ha.fresh.nodup, h.nodup, fun x hx y hy => ?_⟩
    have := ha.fresh.range x hx
    have := h.range y hy
    omega
  · have := h.pos
    obtain hx | hx := List.mem_append.mp (hperm.mem_iff.mpr hx)
    · have := ha.fresh.range x hx
      omega
    · have := h.range x hx
      omega

lemma Straight.outer (h : Straight b b') : b'.outer = b.outer := congrArg Frame.outer h.frame

lemma Distinct.straight {reserved : List Nat} (h : Distinct reserved b) (hs : Straight b b') :
    Distinct reserved b' := by
  obtain ⟨g, l, c, hadds, -⟩ := hs.added
  exact h.adds hadds hs.outer hs.next

lemma Distinct.isFree {reserved : List Nat} (h : Distinct reserved b) :
    IsFree reserved { b with next := b.next + 1 } b.next :=
  ⟨h.pos, Nat.lt_succ_self _, fun hmem => Nat.lt_irrefl _ (h.range _ hmem).2⟩

lemma IsFree.adds {reserved : List Nat} {g k c : List Instruction} (h : IsFree reserved b l)
    (ha : Adds b b' g k c)
    (houter : b'.outer = b.outer) (hnext : b.next ≤ b'.next) : IsFree reserved b' l := by
  obtain ⟨hpos, hlt, hnot⟩ := h
  refine ⟨hpos, Nat.lt_of_lt_of_le hlt hnext, ?_⟩
  rw [List.mem_append, (ha.perm_results houter).mem_iff, List.mem_append] at *
  rintro (hmem | hmem | hmem)
  · exact hnot (.inl hmem)
  · have := ha.fresh.range l hmem
    omega
  · exact hnot (.inr hmem)

lemma IsFree.straight {reserved : List Nat} (h : IsFree reserved b l) (hs : Straight b b') :
    IsFree reserved b' l := by
  obtain ⟨g, k, c, hadds, -⟩ := hs.added
  exact h.adds hadds hs.outer hs.next

namespace Written

lemma straight (h : Written .opened G b) (hs : Straight b b') : Written .opened G b' := by
  obtain ⟨g, l, c, hadds, hplain⟩ := hs.added
  refine ⟨h.distinct.straight hs, fun l hl => (h.pending l hl).straight hs, fun i hi => ?_, ?_⟩
  · rw [hadds.locals, List.mem_append] at hi
    exact hi.elim (hadds.isVariable i) (h.isVariable i)
  · exact (h.shape.plains hplain).congr hadds.code (congrArg Frame.block hs.frame)
      (congrArg Frame.breaks hs.frame)
      (congrArg Frame.continues hs.frame)

lemma phi {i : Instruction} (h : Written .opened G b)
    (hs : Straight { b with next := b.next + 1 } b') (hi : i.result = some b.next)
    (hop : i.op = .phi) (hparents : ∀ l ∈ i.parents, l ∈ G.visited) :
    Written .opened G { b' with body := { b'.body with code := i :: b'.body.code } } := by
  obtain ⟨g, l, c, hadds, hplain⟩ := hs.adds_code hi
  have hnext := Nat.le_of_succ_le hs.next
  have hcode : b'.body.code = c ++ b.body.code := (List.cons.inj hadds.code).2
  refine ⟨h.distinct.adds hadds hs.outer hnext, fun l hl =>
    (h.pending l hl).adds hadds hs.outer hnext, fun i hi => ?_, ?_⟩
  · rw [hadds.locals, List.mem_append] at hi
    exact hi.elim (hadds.isVariable i) (h.isVariable i)
  · have hshape := h.shape.plains hplain
    refine (hshape.phi hop fun l hl => hshape.visited l (hparents l hl)).congr
      ?_ (congrArg Frame.block hs.frame) (congrArg Frame.breaks hs.frame)
      (congrArg Frame.continues hs.frame)
    exact congrArg (i :: ·) hcode

lemma reshape {st' : Status} {G' : Promises} {body : Body} (h : Written st G b) (hshape : Shape st' G' body)
    (hheader : body.header = b.body.header) (hlocals : body.locals = b.body.locals)
    (hcode : Spirv.results body.code = Spirv.results b.body.code) (hreserved : G'.reserved = G.reserved)
    (hlabels : ∀ l ∈ G'.labels, l ∈ G.labels) : Written st' G' { b with body } := by
  have hresults : ({ b with body } : Builder).results = b.results := by
    simp only [results, results_append, hheader, hlocals, hcode]
  refine ⟨⟨h.distinct.pos, ?_, ?_⟩, ?_, ?_, hshape⟩
  · rw [hresults, hreserved]
    exact h.distinct.nodup
  · rw [hresults, hreserved]
    exact h.distinct.range
  · intro l hl
    obtain ⟨hpos, hlt, hnot⟩ := h.pending l (hlabels l hl)
    refine ⟨hpos, hlt, ?_⟩
    rw [hresults, hreserved]
    exact hnot
  · rw [hlocals]
    exact h.isVariable

/-- A value will come from the open block, or from blocks that have been kept in mind. -/
lemma visit {visited : List Nat} (h : Written st G b)
    (hvisited : ∀ l ∈ visited, l ∈ b.body.block ∨ l ∈ G.visited) :
    Written st { G with visited } b :=
  h.reshape (h.shape.visit hvisited) rfl rfl rfl rfl fun _ hl => hl

lemma not_mem_labels (h : Written st G b) : b.next ∉ G.labels := fun hmem =>
    Nat.lt_irrefl _ (h.pending _ hmem).2.1

lemma promise (h : Written st G b) :
    Written st { G with labels := b.next :: G.labels, untouched := b.next :: G.untouched }
    { b with next := b.next + 1 } := by
  have hnew := h.distinct.isFree
  refine ⟨⟨Nat.le_succ_of_le h.distinct.pos, h.distinct.nodup, fun x hx => ?_⟩, ?_, h.isVariable, ?_⟩
  · exact (h.distinct.range x hx).imp_right Nat.lt_succ_of_lt
  · refine List.forall_mem_cons.mpr ⟨hnew, fun l hl => ?_⟩
    obtain ⟨hpos, hlt, hnot⟩ := h.pending l hl
    exact ⟨hpos, Nat.lt_succ_of_lt hlt, hnot⟩
  · exact h.shape.promise (fun hmem => hnew.2.2 (List.mem_append_right _ (opened_subset hmem))) h.not_mem_labels

lemma label {labels untouched : List Nat} (h : Written .closed G b) (hperm : G.labels.Perm (l :: labels))
    (huntouched : ∀ k ∈ untouched, k ∈ G.untouched ∧ k ≠ l) (hjumps : l ∉ G.breaks ++ G.continues) :
    Written .opened { G with labels, untouched }
      { b with body := { b.body with code := labelled l :: b.body.code, block := some l } } := by
  obtain ⟨hpos, hlt, hnot⟩ := h.pending l (hperm.mem_iff.mpr List.mem_cons_self)
  have hnodup := List.nodup_cons.mp (hperm.nodup_iff.mp h.shape.nodup)
  have hresults : ({ b with body := { b.body with code := labelled l :: b.body.code, block := some l } } :
    Builder).results.Perm
      (l :: b.results) := by
    simp only [results, results_append, results_cons, labelled, Option.toList_some, List.singleton_append]
    exact List.perm_iff_count.mpr fun i => by simp only [List.count_append, List.count_cons]; omega
  have hall := (hresults.append_left G.reserved).trans List.perm_middle
  refine ⟨⟨h.distinct.pos, ?_, fun x hx => ?_⟩, fun k hk =>
    ?_, h.isVariable, h.shape.label hperm huntouched hjumps⟩
  · exact hall.nodup_iff.mpr (List.nodup_cons.mpr ⟨hnot, h.distinct.nodup⟩)
  · obtain rfl | hx := List.mem_cons.mp (hall.mem_iff.mp hx)
    · exact ⟨hpos, hlt⟩
    · exact h.distinct.range x hx
  · obtain ⟨hkpos, hklt, hknot⟩ := h.pending k (hperm.mem_iff.mpr (List.mem_cons_of_mem _ hk))
    refine ⟨hkpos, hklt, fun hmem => ?_⟩
    obtain rfl | hmem := List.mem_cons.mp (hall.mem_iff.mp hmem)
    · exact hnodup.1 hk
    · exact hknot hmem

end Written

/-- Between two statements a block is open, or the last one has been closed. -/
def Settled (G : Promises) (b : Builder) : Prop := Written .opened G b ∨ Written .closed G b

end Builder
end Shading.Spirv
