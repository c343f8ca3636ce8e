import Mathlib
import Shading.Memory.Layout

/-! Alignments of types and where the members of a struct lie. Every alignment is a power of two,
and members without a problem lie one after the other, each at a multiple of its alignment. -/
namespace Shading

namespace Ty

/-- The types right below a type. -/
def parts : Ty → List Ty
  | .array e _ => [e]
  | .struct _ _ fs _ => fs.map (·.ty)
  | _ => []

mutual
/-- All types that a type is made of, itself included. -/
def nested : Ty → List Ty
  | .array e n => .array e n :: nested e
  | .struct id name fs block => .struct id name fs block :: nestedAll fs
  | ty => [ty]
/-- All types that members are made of. -/
def nestedAll : List (Field Ty) → List Ty
  | [] => []
  | ⟨_, ty, _, _⟩ :: fs => nested ty ++ nestedAll fs
end

mutual
/-- Induction over a type: what holds of a type if it holds of the types right below it holds of
all. -/
lemma of_parts {P : Ty → Prop} (h : ∀ ty, (∀ x ∈ ty.parts, P x) → P ty) (ty : Ty) : P ty := by
  refine h ty ?_
  cases ty with
  | array e n => exact List.forall_mem_singleton.mpr (of_parts h e)
  | struct id name fs block => exact List.forall_mem_map.mpr (all_of_parts h fs)
  | _ => exact List.forall_mem_nil _
lemma all_of_parts {P : Ty → Prop} (h : ∀ ty, (∀ x ∈ ty.parts, P x) → P ty) (fs : List (Field Ty)) :
    ∀ f ∈ fs, P f.ty := by
  obtain _ | ⟨⟨name, ty, modifiers, span⟩, fs⟩ := fs
  · exact List.forall_mem_nil _
  · exact List.forall_mem_cons.mpr ⟨of_parts h ty, all_of_parts h fs⟩
end

variable {ty u : Ty}

lemma mem_nestedAll {fs : List (Field Ty)} : u ∈ nestedAll fs ↔ ∃ f ∈ fs, u ∈ f.ty.nested := by
  induction fs with
  | nil => simp [nestedAll]
  | cons f fs ih => simp [nestedAll, ih]

lemma mem_nested : u ∈ ty.nested ↔ u = ty ∨ ∃ x ∈ ty.parts, u ∈ x.nested := by
  cases ty with
  | array e n => simp [nested, parts]
  | struct id name fs block => simp [nested, parts, mem_nestedAll]
  | _ => simp [nested, parts]

lemma self_mem_nested : ty ∈ ty.nested := mem_nested.mpr (.inl rfl)

/-- No array in the type is without elements. -/
def IsFilled (ty : Ty) : Prop := ∀ e, .array e (some 0) ∉ ty.nested

lemma IsFilled.part (h : ty.IsFilled) : ∀ x ∈ ty.parts, x.IsFilled :=
  fun x hx e he => h e (mem_nested.mpr (.inr ⟨x, hx, he⟩))

end Ty

namespace MemoryLayout

/-! ### Rounding up -/

/-- A power of two from four on. -/
structure IsAlignment (n : Nat) : Prop where
  isPowerOfTwo : n.isPowerOfTwo
  least : 4 ≤ n

lemma dvd_of_isPowerOfTwo {a b : Nat} (ha : a.isPowerOfTwo) (hb : b.isPowerOfTwo) (h : a ≤ b) : a ∣ b := by
  obtain ⟨i, rfl⟩ := ha
  obtain ⟨j, rfl⟩ := hb
  exact Nat.pow_dvd_pow 2 ((Nat.pow_le_pow_iff_right (by decide)).mp h)

namespace IsAlignment

variable {a b n : Nat}

lemma pos (h : IsAlignment n) : 0 < n := Nat.lt_of_lt_of_le (by decide) h.least

lemma four_dvd (h : IsAlignment n) : 4 ∣ n := dvd_of_isPowerOfTwo ⟨2, rfl⟩ h.isPowerOfTwo h.least

lemma larger (ha : IsAlignment a) (hb : b.isPowerOfTwo) : IsAlignment (max a b) := by
  obtain h | h := Nat.le_total a b
  · rw [Nat.max_eq_right h]
    exact ⟨hb, Nat.le_trans ha.least h⟩
  · rw [Nat.max_eq_left h]
    exact ha

lemma roundUp (h : IsAlignment n) (layout : MemoryLayout) : IsAlignment (layout.roundUp n) := by
  cases layout with
  | std140 => exact h.larger ⟨4, rfl⟩
  | std430 => exact h

end IsAlignment

lemma le_roundUp {layout : MemoryLayout} {n : Nat} : n ≤ layout.roundUp n := by
  cases layout with
  | std140 => exact Nat.le_max_left n 16
  | std430 => exact Nat.le_refl n

section AlignTo

variable {offset alignment : Nat}

lemma alignTo_eq_or : offset + (alignment - 1) ≤ limit ∧
    alignTo offset alignment = (offset + (alignment - 1)) / alignment * alignment ∨
    alignTo offset alignment = limit := by
  unfold alignTo
  split
  · exact .inl ⟨‹_›, rfl⟩
  · exact .inr rfl

lemma dvd_alignTo (h : alignTo offset alignment ≠ limit) : alignment ∣ alignTo offset alignment := by
  obtain ⟨-, heq⟩ | heq := alignTo_eq_or
  · rw [heq]
    exact Nat.dvd_mul_left ..
  · exact absurd heq h

lemma le_alignTo (halignment : 0 < alignment) (h : alignTo offset alignment ≠ limit) :
    offset ≤ alignTo offset alignment := by
  obtain ⟨-, heq⟩ | heq := alignTo_eq_or
  · have hround := Nat.div_add_mod (offset + (alignment - 1)) alignment
    have hmod := Nat.mod_lt (offset + (alignment - 1)) halignment
    rw [heq, Nat.mul_comm]
    omega
  · exact absurd heq h

lemma add_le_limit (h : alignTo offset alignment ≠ limit) : offset + (alignment - 1) ≤ limit := by
  obtain ⟨hle, -⟩ | heq := alignTo_eq_or
  · exact hle
  · exact absurd heq h

end AlignTo

/-! ### Alignments of types -/

variable {layout : MemoryLayout} {ty : Ty}

lemma supports_of_mem_parts (h : supports ty = true) : ∀ x ∈ ty.parts, supports x = true := by
  have hall {fs : List (Field Ty)} (h : supportsAll fs = true) : ∀ f ∈ fs, supports f.ty = true := by
    induction fs with
    | nil => exact List.forall_mem_nil _
    | cons f fs ih =>
      simp only [supportsAll, Bool.and_eq_true] at h
      exact List.forall_mem_cons.mpr ⟨h.1, ih h.2⟩
  cases ty with
  | array e n => exact List.forall_mem_singleton.mpr h
  | struct id name fs block => exact List.forall_mem_map.mpr (hall h)
  | _ => exact List.forall_mem_nil _

lemma supports_of_mem_nested {u : Ty} (h : supports ty = true) (hu : u ∈ ty.nested) : supports u = true := by
  induction ty using Ty.of_parts with
  | _ ty ih =>
  obtain rfl | ⟨x, hx, hu⟩ := Ty.mem_nested.mp hu
  · exact h
  · exact ih x hx (supports_of_mem_parts h x hx) hu

lemma isAlignment_withAlignment {m : Metrics} (h : IsAlignment m.alignment) (align : Option Nat) :
    IsAlignment (m.withAlignment align).alignment := by
  unfold Metrics.withAlignment
  split
  · split
    · exact h.larger ‹_›
    · exact h
  · exact h

lemma isAlignment_place {next : Option Nat} {m : Metrics} {modifiers : Modifiers} (h : IsAlignment m.alignment) :
    IsAlignment (Placement.place next m modifiers).1.metrics.alignment := by
  unfold Placement.place
  split
  · exact h
  · dsimp only
    split <;> exact isAlignment_withAlignment h modifiers.layout.align

lemma isAlignment_placeAfter {next : Option Nat} {fs : List (Field Ty)}
    (h : ∀ f ∈ fs, IsAlignment (layout.metrics f.ty).alignment) :
    ∀ p ∈ layout.placeAfter next fs, IsAlignment p.metrics.alignment := by
  induction fs generalizing next with
  | nil => exact List.forall_mem_nil _
  | cons f fs ih =>
    obtain ⟨hf, hfs⟩ := List.forall_mem_cons.mp h
    exact List.forall_mem_cons.mpr ⟨isAlignment_place hf, ih hfs⟩

lemma isAlignment_ofVector (n : Dim) : IsAlignment (Metrics.ofVector n).alignment := by
  cases n with
  | two => exact ⟨⟨3, rfl⟩, by decide⟩
  | three => exact ⟨⟨4, rfl⟩, by decide⟩
  | four => exact ⟨⟨4, rfl⟩, by decide⟩

lemma isAlignment_ofPlacements {ps : List Placement} (h : ∀ p ∈ ps, IsAlignment p.metrics.alignment) :
    IsAlignment (Metrics.ofPlacements layout ps).alignment := by
  refine IsAlignment.roundUp ?_ layout
  cases hmax : (ps.map (·.metrics.alignment)).max? with
  | none => exact ⟨⟨2, rfl⟩, by decide⟩
  | some n =>
    obtain ⟨p, hp, rfl⟩ := List.mem_map.mp (List.max?_mem hmax)
    exact h p hp

lemma isAlignment_metrics (h : supports ty = true) : IsAlignment (layout.metrics ty).alignment := by
  induction ty using Ty.of_parts with
  | _ ty ih =>
  have hparts := supports_of_mem_parts h
  cases ty with
  | scalar s => exact ⟨⟨2, rfl⟩, Nat.le_refl 4⟩
  | vector s n => exact isAlignment_ofVector n
  | matrix s c r => exact (isAlignment_ofVector r).roundUp layout
  | array e n =>
    have he := ih e List.mem_cons_self (hparts e List.mem_cons_self)
    exact he.roundUp layout
  | struct id name fs block =>
    refine isAlignment_ofPlacements (isAlignment_placeAfter fun f hf => ?_)
    have hmem : f.ty ∈ (Ty.struct id name fs block).parts := List.mem_map_of_mem hf
    exact ih f.ty hmem (hparts f.ty hmem)
  | _ => cases h

end MemoryLayout

/-! ### Members of structs -/

namespace Metrics

variable {m : Metrics} {align : Option Nat}

@[simp] lemma size_withAlignment : (m.withAlignment align).size = m.size := by
  unfold withAlignment
  repeat' split
  all_goals rfl

@[simp] lemma overflows_withAlignment : (m.withAlignment align).overflows = m.overflows := by
  unfold withAlignment
  repeat' split
  all_goals rfl

end Metrics

namespace Placement

open MemoryLayout (IsAlignment)

variable {m : Metrics} {next offset : Nat} {modifiers : Modifiers}

/-- A member without a problem, after members that end at `next`. -/
structure Follows (p : Placement) (next : Nat) (m : Metrics) (align : Option Nat) : Prop where
  metrics : p.metrics = m.withAlignment align
  problem : p.problem = none
  after : next ≤ p.offset
  aligned : p.metrics.alignment ∣ p.offset
  fits : p.offset + m.size ≤ MemoryLayout.limit
  small : m.overflows = false

lemma stop?_eq_some {stop : Nat} (h : stop? offset m = some stop) :
    offset + m.size ≤ MemoryLayout.limit ∧ m.overflows = false ∧ offset ≠ MemoryLayout.limit ∧
    stop = offset + m.size := by
  unfold stop? at h
  split at h
  · rename_i hfits
    exact ⟨hfits.1, by simpa using hfits.2.1, hfits.2.2, (Option.some.inj h).symm⟩
  · cases h

/-- An offset that was asked for is taken only if it is not too small and a multiple of the
alignment. -/
lemma check_eq_none {explicit alignment : Nat} (halignment : 0 < alignment)
    (h : check explicit next alignment = none) :
    next ≤ explicit ∧ alignment ∣ explicit := by
  unfold check at h
  split at h
  · cases h
  · split at h
    · cases h
    · rename_i hsmall haligned
      refine ⟨Nat.le_of_not_lt hsmall, Nat.dvd_of_mod_eq_zero ?_⟩
      simp only [ne_eq, not_and_or, Decidable.not_not] at haligned
      omega

lemma follows_place (hm : IsAlignment m.alignment) (h : (place (some next) m modifiers).1.problem = none) :
    (place (some next) m modifiers).1.Follows next m modifiers.layout.align ∧
      (place (some next) m modifiers).2 = some ((place (some next) m modifiers).1.offset + m.size) := by
  have halign := (MemoryLayout.isAlignment_withAlignment hm modifiers.layout.align).pos
  unfold place at h ⊢
  dsimp only at h ⊢
  split at h
  · rename_i stop hstop
    obtain ⟨hfits, hsmall, hlimit, rfl⟩ := stop?_eq_some hstop
    rw [Metrics.size_withAlignment] at hfits
    rw [Metrics.overflows_withAlignment] at hsmall
    have hplace : next ≤
        modifiers.layout.offset.getD (MemoryLayout.alignTo next (m.withAlignment modifiers.layout.align).alignment) ∧
        (m.withAlignment modifiers.layout.align).alignment ∣
          modifiers.layout.offset.getD (MemoryLayout.alignTo
            next (m.withAlignment modifiers.layout.align).alignment) := by
      cases hoffset : modifiers.layout.offset with
      | none =>
        rw [hoffset] at hlimit
        exact ⟨MemoryLayout.le_alignTo halign hlimit, MemoryLayout.dvd_alignTo hlimit⟩
      | some explicit =>
        rw [hoffset] at h
        exact check_eq_none halign h
    rw [Metrics.size_withAlignment]
    exact ⟨⟨rfl, h, hplace.1, hplace.2, hfits, hsmall⟩, rfl⟩
  · cases hproblem : modifiers.layout.offset.bind fun explicit =>
      check explicit next (m.withAlignment modifiers.layout.align).alignment <;> simp [hproblem] at h

end Placement

end Shading
