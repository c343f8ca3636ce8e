import Shading.Proofs.Memory.Exact
import Shading.Proofs.Typing.Known
import Shading.Proofs.Typing.Soundness
import Shading.Uniform

/-! Loose uniforms lie one after the other. They stand in order of descending alignment, each at the
first place behind the one before that its alignment allows, and the list ends only where the next
one would not fit into 32 bits. -/
namespace Shading

namespace MemoryLayout

variable {α β : Type}

/-- The items in order of descending alignment; those of one alignment keep their order. -/
structure IsByAlignment (alignment : α → Nat) (items sorted : List α) : Prop where
  perm : sorted.Perm items
  descending : sorted.Pairwise fun a b => alignment b ≤ alignment a
  stable : ∀ n, sorted.filter (alignment · = n) = items.filter (alignment · = n)

lemma isByAlignment_byAlignment {alignment : α → Nat} {items : List α} :
    IsByAlignment alignment items (byAlignment alignment items) := by
  have htrans (a b c : α) : decide (alignment b ≤ alignment a) = true → decide (alignment c ≤ alignment b) = true →
      decide (alignment c ≤ alignment a) = true := by
    simp only [decide_eq_true_eq]
    omega
  have htotal (a b : α) : (decide (alignment b ≤ alignment a) || decide (alignment a ≤ alignment b)) = true := by
    simpa using Nat.le_total ..
  have hperm : (byAlignment alignment items).Perm items := List.mergeSort_perm ..
  refine ⟨hperm, (List.pairwise_mergeSort htrans htotal items).imp of_decide_eq_true, fun n => ?_⟩
  -- The items of one alignment are in order already, so that sorting keeps them one after the other.
  have hordered : (items.filter (alignment · = n)).Pairwise fun a b =>
    decide (alignment b ≤ alignment a) = true := by
    refine List.pairwise_of_forall_mem_list fun a ha b hb => ?_
    simp only [List.mem_filter, decide_eq_true_eq] at ha hb ⊢
    omega
  have hsublist := (List.sublist_mergeSort htrans htotal hordered List.filter_sublist).filter (alignment · = n)
  simp only [List.filter_filter, Bool.and_self] at hsublist
  exact (hsublist.eq_of_length (hperm.filter _).length_eq.symm).symm

lemma byAlignment_map {f : α → β} {alignment : β → Nat} {items : List α} :
    byAlignment alignment (items.map f) = (byAlignment (fun a => alignment (f a)) items).map f := by
  refine (List.map_mergeSort ?_).symm
  intro _ _ _ _
  rfl

end MemoryLayout

namespace Uniform

open MemoryLayout

variable {layout : MemoryLayout} {next : Nat} {v : Variable} {vs : List Variable} {u : Uniform} {us : List Uniform}

/-- The end of a uniform. -/
def stop (u : Uniform) : Nat := u.offset + u.size

/-- The end of the last uniform, or of what is in front of them all. -/
def lastStop (next : Nat) (us : List Uniform) : Nat := (us.getLast?.map stop).getD next

/-- The first place from `next` on for a value of this alignment. -/
def IsPlace (alignment next place : Nat) : Prop := IsLeast {m | alignment ∣ m ∧ next ≤ m} place

/-- The uniform names the variable and has the numbers of its type. -/
structure Lists (layout : MemoryLayout) (u : Uniform) (v : Variable) : Prop where
  name : u.name = v.name
  ty : u.ty = v.ty
  size : u.size = (layout.metrics v.ty).size
  alignment : u.alignment = (layout.metrics v.ty).alignment

/-- The first ones of some variables, one after the other behind what ends at `next`; the list ends
where the next variable does not fit. -/
structure IsPacking (layout : MemoryLayout) (next : Nat) (vs : List Variable) (us : List Uniform) : Prop where
  lists : List.Forall₂ (Lists layout) us (vs.take us.length)
  first : ∀ u ∈ us.head?, IsPlace u.alignment next u.offset
  following : us.IsChain fun u w => IsPlace w.alignment u.stop w.offset
  fits : ∀ u ∈ us, u.stop ≤ limit
  full : ∀ v ∈ vs[us.length]?, ∀ place, IsPlace (layout.metrics v.ty).alignment (lastStop next us) place →
    limit < place + (layout.metrics v.ty).size

namespace IsPacking

lemma nil : IsPacking layout next [] [] := ⟨.nil, by simp, .nil, by simp, by simp⟩

lemma cons (hlists : Lists layout u v) (hplace : IsPlace u.alignment next u.offset) (hfits : u.stop ≤ limit)
    (h : IsPacking layout u.stop vs us) : IsPacking layout next (v :: vs) (u :: us) := by
  refine ⟨.cons hlists h.lists, ?_, List.isChain_cons.mpr ⟨h.first, h.following⟩,
    List.forall_mem_cons.mpr ⟨hfits, h.fits⟩, ?_⟩
  · rintro _ ⟨⟩
    exact hplace
  · have hlast : lastStop next (u :: us) = lastStop u.stop us := by
      unfold lastStop
      rw [List.getLast?_cons]
      cases us.getLast? <;> rfl
    rw [hlast]
    exact h.full

lemma apart (h : IsPacking layout next vs us) : us.Pairwise fun u w => u.stop ≤ w.offset := by
  have htrans : IsTrans Uniform fun u w => u.stop ≤ w.offset :=
    ⟨fun a b c hab hbc => Nat.le_trans hab (Nat.le_trans (Nat.le_add_right ..) hbc)⟩
  exact List.isChain_iff_pairwise.mp (h.following.imp fun u w hw => hw.1.2)

end IsPacking

lemma isPacking_pack (hvs : ∀ v ∈ vs, IsAlignment (layout.metrics v.ty).alignment ∧
    (layout.metrics v.ty).alignment ≤ limit) :
    IsPacking layout next vs (pack next (vs.map fun v => (v, layout.metrics v.ty))).1 := by
  induction vs generalizing next with
  | nil => exact .nil
  | cons v vs ih =>
    obtain ⟨⟨halignment, hle⟩, hvs⟩ := List.forall_mem_cons.mp hvs
    have hleast := @isLeast_alignUp next _ halignment.pos
    have hround := @alignTo_eq next _ halignment.isPowerOfTwo hle
    have hne := ne_limit (Nat.dvd_trans halignment.four_dvd hleast.1.1)
    rw [List.map_cons, pack]
    split
    · rename_i hfits
      have hexact : alignTo next (layout.metrics v.ty).alignment = alignUp next (layout.metrics v.ty).alignment := by
        split at hround
        · exact hround
        · exact absurd hround hfits.2
      exact .cons ⟨rfl, rfl, rfl, rfl⟩ (hexact ▸ hleast) hfits.1 (ih hvs)
    · rename_i hfull
      refine ⟨.nil, by simp, .nil, by simp, ?_⟩
      rintro _ ⟨⟩ place hplace
      rw [hplace.unique hleast]
      split at hround <;> omega

end Uniform

namespace Program

open MemoryLayout

variable {layout : MemoryLayout} {p : Program} {o : Context}

/-- The uniform variables outside of blocks whose values can lie in memory and fit into 32 bits. -/
def looseUniforms (p : Program) (layout : MemoryLayout) : List Variable :=
  (p.globals.map p.variableAt).filter fun v =>
    v.modifiers.has .uniform && supports v.ty && !(layout.metrics v.ty).overflows

lemma candidates_fitting : (Uniform.candidates p layout).filter (fun x => !x.2.overflows) =
    (p.looseUniforms layout).map fun v => (v, layout.metrics v.ty) := by
  simp only [Uniform.candidates, looseUniforms]
  induction p.globals with
  | nil => rfl
  | cons n ns ih =>
    rw [List.filterMap_cons, List.map_cons, List.filter_cons]
    cases (p.variableAt n).modifiers.has .uniform && supports (p.variableAt n).ty with
    | false => exact ih
    | true =>
      rw [if_pos rfl, List.filter_cons, ih, Bool.true_and]
      split <;> rfl

lemma aligns_of_known {ty : Ty} (h : ty.Known o) :
    ∀ u ∈ ty.nested, ∀ fs ∈ u.fields?, ∀ f ∈ fs, ∀ n ∈ f.modifiers.layout.align, n ≤ limit := by
  intro u hu fs hfs f hf
  obtain ⟨i, hi⟩ := List.getElem?_of_mem hf
  exact ((h.nested hu).field hfs hi).2.2 .align

lemma Regular.alignment_of_mem (hp : p.Regular o) {v : Variable} (hv : v ∈ p.looseUniforms layout) :
    IsAlignment (layout.metrics v.ty).alignment ∧ (layout.metrics v.ty).alignment ≤ limit := by
  obtain ⟨hv, hcandidate⟩ := List.mem_filter.mp hv
  simp only [Bool.and_eq_true] at hcandidate
  obtain ⟨n, -, rfl⟩ := List.mem_map.mp hv
  refine ⟨isAlignment_metrics hcandidate.1.2, alignment_le_limit ?_⟩
  unfold variableAt at hcandidate ⊢
  rw [Array.getD_eq_getD_getElem?] at hcandidate ⊢
  cases hn : p.variables[n]? with
  | none =>
    rw [hn] at hcandidate
    cases hcandidate.1.2
  | some v => exact aligns_of_known (hp.of_mem_variables (Array.mem_of_getElem? hn)).known

/-- Loose uniforms are packed soundly. In every accepted program they are the first ones of the
uniform variables in order of descending alignment, each at the first place behind the one before.
They do not overlap and end within 32 bits, and if one is left out, the first of those would not. -/
theorem uniforms_packed {source : String} {kind : ShaderKind} {options : CompileOptions}
    (h : (Program.parse source kind options).result = .ok p) (layout : MemoryLayout) :
    ∃ sorted, IsByAlignment (fun v => (layout.metrics v.ty).alignment) (p.looseUniforms layout) sorted ∧
      Uniform.IsPacking layout 0 sorted (p.uniforms layout).1 ∧
      (p.uniforms layout).1.Pairwise fun u w => u.stop ≤ w.offset := by
  obtain ⟨o, hp⟩ := exists_regular_of_parse h
  have hsorted := @isByAlignment_byAlignment _ (fun v : Variable => (layout.metrics v.ty).alignment)
    (p.looseUniforms layout)
  have hpacked : (p.uniforms layout).1 =
      (Uniform.pack 0 ((byAlignment (fun v => (layout.metrics v.ty).alignment) (p.looseUniforms layout)).map
        fun v => (v, layout.metrics v.ty))).1 := by
    change (Uniform.pack 0 (byAlignment _ ((Uniform.candidates p layout).filter fun x => !x.2.overflows))).1 = _
    rw [candidates_fitting, byAlignment_map]
  have hpacking : Uniform.IsPacking layout 0 _ (p.uniforms layout).1 :=
    hpacked ▸ Uniform.isPacking_pack fun v hv => hp.alignment_of_mem (hsorted.perm.mem_iff.mp hv)
  exact ⟨_, hsorted, hpacking, hpacking.apart⟩

/-- Behind the rows there is room for a number, but not for the vectors that come before it. -/
theorem uniforms_packed_rows : ∃ p, (Program.parse
      "uniform float a; uniform float4 rows[268435454]; uniform float2 b; uniform float4 c; uniform float4 d; void main() {}"
      .fragment {}).result = .ok p ∧
    (p.looseUniforms .std140).map (fun v => (v.name, (metrics .std140 v.ty).alignment,
      (metrics .std140 v.ty).size)) =
      [("a", 4, 4), ("rows", 16, 4294967264), ("b", 8, 8), ("c", 16, 16), ("d", 16, 16)] ∧
    ∃ sorted, IsByAlignment (fun v => (metrics .std140 v.ty).alignment) (p.looseUniforms .std140) sorted ∧
      Uniform.IsPacking .std140 0 sorted (p.uniforms .std140).1 ∧
      (p.uniforms .std140).1.Pairwise fun u w => u.stop ≤ w.offset := by
  refine Exists.imp (fun p hp => ⟨hp.1, hp.2, uniforms_packed hp.1 .std140⟩) (exists_ok_of_map ?_)
  decide +kernel

end Program
end Shading
