import Shading.Proofs.Memory.Disjoint

/-! Sizes and strides are exact until they leave the range of 32 bits. The rules of the layouts are
stated once more for numbers without a limit; what is computed agrees with them unless it overflows,
and it overflows only if one of these numbers is too large. -/
namespace Shading

namespace MemoryLayout

/-- The least multiple of the alignment that is not below the offset, however large it is. -/
def alignUp (offset alignment : Nat) : Nat := (offset + (alignment - 1)) / alignment * alignment

mutual
/-- The metrics of a type in numbers without a limit. -/
def exactMetrics (layout : MemoryLayout) : Ty → Metrics
  | .scalar _ => { alignment := 4, size := 4 }
  | .vector _ n => .ofVector n
  | .matrix _ c r => .ofMatrix layout c r
  | .array e n =>
    let element := layout.exactMetrics e
    let alignment := layout.roundUp element.alignment
    let stride := alignUp element.size alignment
    { alignment, size := stride * n.getD 0, matrixStride := element.matrixStride, arrayStride := stride }
  | .struct _ _ fs _ =>
    let placements := layout.exactAfter 0 fs
    let alignment := layout.roundUp ((placements.map (·.metrics.alignment)).max?.getD 4)
    { alignment, size := alignUp ((placements.getLast?.map fun p => p.offset + p.metrics.size).getD 0) alignment }
  | _ => {}
/-- The placements of members after members that end at `next`, in numbers without a limit. -/
def exactAfter (layout : MemoryLayout) (next : Nat) : List (Field Ty) → List Placement
  | [] => []
  | ⟨_, ty, modifiers, _⟩ :: fs =>
    let metrics := (layout.exactMetrics ty).withAlignment modifiers.layout.align
    let offset := modifiers.layout.offset.getD (alignUp next metrics.alignment)
    ⟨offset, metrics, none⟩ :: layout.exactAfter (offset + metrics.size) fs
end

/-- The size or the stride of the type does not fit into 32 bits, or one of its members ends where
no 32-bit number reaches. -/
def Exceeds (layout : MemoryLayout) (ty : Ty) : Prop :=
  limit < (layout.exactMetrics ty).size ∨ limit < (layout.exactMetrics ty).arrayStride ∨
    ∃ fs, ty.fields? = some fs ∧ ∃ p ∈ layout.exactAfter 0 fs, limit < p.offset + p.metrics.size

/-- A problem that is not one of an offset that was asked for. -/
def IsFitting (problem : Option Misplacement) : Prop := problem = none ∨ problem = some .overflow
deriving Decidable

/-- No array is without elements, the alignments that members ask for are 32-bit numbers, and no
offset that they ask for is wrong. -/
structure IsMeasured (layout : MemoryLayout) (ty : Ty) : Prop where
  filled : ty.IsFilled
  aligns : ∀ u ∈ ty.nested, ∀ fs ∈ u.fields?, ∀ f ∈ fs, ∀ n ∈ f.modifiers.layout.align, n ≤ limit
  offsets : ∀ u ∈ ty.nested, ∀ fs ∈ u.fields?, ∀ p ∈ layout.place fs, IsFitting p.problem

variable {layout : MemoryLayout} {ty : Ty}

lemma IsMeasured.part (h : layout.IsMeasured ty) : ∀ x ∈ ty.parts, layout.IsMeasured x :=
  fun x hx =>
    have hnested (u : Ty) (hu : u ∈ x.nested) : u ∈ ty.nested := Ty.mem_nested.mpr (.inr ⟨x, hx, hu⟩)
    ⟨h.filled.part x hx, fun u hu => h.aligns u (hnested u hu), fun u hu => h.offsets u (hnested u hu)⟩

/-! ### Rounding up -/

section AlignUp

variable {offset a : Nat}

lemma isLeast_alignUp (ha : 0 < a) : IsLeast {m | a ∣ m ∧ offset ≤ m} (alignUp offset a) := by
  have hround := Nat.div_add_mod (offset + (a - 1)) a
  have hmod := Nat.mod_lt (offset + (a - 1)) ha
  refine ⟨⟨Nat.dvd_mul_left .., ?_⟩, ?_⟩
  · rw [alignUp, Nat.mul_comm]
    omega
  · rintro m ⟨⟨k, rfl⟩, hle⟩
    have hk : (offset + (a - 1)) / a ≤ k := by
      refine Nat.le_of_lt_succ ((Nat.div_lt_iff_lt_mul ha).mpr ?_)
      rw [Nat.succ_mul, Nat.mul_comm k a]
      omega
    rw [alignUp, Nat.mul_comm a k]
    exact Nat.mul_le_mul_right a hk

lemma alignTo_eq (ha : a.isPowerOfTwo) (hle : a ≤ limit) :
    alignTo offset a = if alignUp offset a ≤ limit then alignUp offset a else limit := by
  have hpos : 0 < a := Nat.pos_of_isPowerOfTwo ha
  unfold alignTo
  split
  · rename_i hroom
    exact (if_pos (Nat.le_trans (Nat.div_mul_le_self ..) hroom)).symm
  · -- All 32-bit powers of two divide the first number that does not fit, so the multiple after it
    -- does not fit either.
    rename_i hroom
    obtain ⟨k, hk⟩ := dvd_of_isPowerOfTwo ha ⟨32, rfl⟩ (Nat.le_trans hle (by decide))
    have hquotient : k ≤ (offset + (a - 1)) / a := by
      rw [Nat.le_div_iff_mul_le hpos, Nat.mul_comm]
      simp only [limit] at hroom
      omega
    have hbeyond : a * k ≤ alignUp offset a := by
      rw [alignUp, Nat.mul_comm a k]
      exact Nat.mul_le_mul_right a hquotient
    rw [if_neg]
    simp only [limit]
    omega

lemma alignTo_limit (ha : 2 ≤ a) : alignTo limit a = limit := by
  unfold alignTo
  rw [if_neg]
  omega

end AlignUp

lemma ne_limit {n : Nat} (h : 4 ∣ n) : n ≠ limit := by
  simp only [limit]
  omega

/-! ### Alignments -/

lemma withAlignment_le_limit {m : Metrics} {align : Option Nat} (hm : m.alignment ≤ limit)
    (halign : ∀ n ∈ align, n ≤ limit) :
    (m.withAlignment align).alignment ≤ limit := by
  unfold Metrics.withAlignment
  split
  · split
    · exact Nat.max_le.mpr ⟨hm, halign _ rfl⟩
    · exact hm
  · exact hm

lemma roundUp_le_limit {n : Nat} (h : n ≤ limit) : layout.roundUp n ≤ limit := by
  cases layout with
  | std140 => exact Nat.max_le.mpr ⟨h, by decide⟩
  | std430 => exact h

lemma ofVector_le_limit (n : Dim) : (Metrics.ofVector n).alignment ≤ limit := by cases n <;> decide

lemma placeAfter_le_limit {next : Option Nat} {fs : List (Field Ty)}
    (hfs : ∀ f ∈ fs, (layout.metrics f.ty).alignment ≤ limit)
    (haligns : ∀ f ∈ fs, ∀ n ∈ f.modifiers.layout.align, n ≤ limit) :
    ∀ p ∈ layout.placeAfter next fs, p.metrics.alignment ≤ limit := by
  induction fs generalizing next with
  | nil => exact List.forall_mem_nil _
  | cons f fs ih =>
    obtain ⟨hf, hfs⟩ := List.forall_mem_cons.mp hfs
    obtain ⟨halign, haligns⟩ := List.forall_mem_cons.mp haligns
    refine List.forall_mem_cons.mpr ⟨?_, ih hfs haligns⟩
    unfold Placement.place
    split
    · exact hf
    · dsimp only
      split <;> exact withAlignment_le_limit hf halign

lemma alignment_le_limit (haligns : ∀ u ∈ ty.nested, ∀ fs ∈ u.fields?, ∀ f ∈ fs,
    ∀ n ∈ f.modifiers.layout.align, n ≤ limit) :
    (layout.metrics ty).alignment ≤ limit := by
  induction ty using Ty.of_parts with
  | _ ty ih =>
  replace ih : ∀ x ∈ ty.parts, (layout.metrics x).alignment ≤ limit :=
    fun x hx => ih x hx fun u hu => haligns u (Ty.mem_nested.mpr (.inr ⟨x, hx, hu⟩))
  cases ty with
  | scalar s => exact (by decide : 4 ≤ limit)
  | vector s n => exact ofVector_le_limit n
  | matrix s c r => exact roundUp_le_limit (ofVector_le_limit r)
  | array e n => exact roundUp_le_limit (ih e List.mem_cons_self)
  | struct id name fs block =>
    have hplaced : ∀ p ∈ layout.placeAfter (some 0) fs, p.metrics.alignment ≤ limit :=
      placeAfter_le_limit (fun f hf => ih f.ty (List.mem_map_of_mem hf)) (haligns _ Ty.self_mem_nested fs rfl)
    refine roundUp_le_limit ?_
    cases hmax : ((layout.placeAfter (some 0) fs).map (·.metrics.alignment)).max? with
    | none => decide
    | some n =>
      obtain ⟨p, hp, rfl⟩ := List.mem_map.mp (List.max?_mem hmax)
      exact hplaced p hp
  | _ => exact Nat.zero_le limit

/-! ### Members -/

section Members

variable {m : Metrics} {modifiers : Modifiers} {next : Nat}

lemma check_ne_overflow {explicit alignment : Nat} : Placement.check explicit next alignment ≠ some .overflow := by
  unfold Placement.check
  split
  · nofun
  · split <;> nofun

/-- The offset of a member in numbers without a limit. -/
def exactOffset (next : Nat) (m : Metrics) (modifiers : Modifiers) : Nat :=
  modifiers.layout.offset.getD (alignUp next (m.withAlignment modifiers.layout.align).alignment)

/-- A member is placed exactly, unless it overflows itself or ends too far. -/
lemma place_cases (hm : IsAlignment m.alignment) (hle : (m.withAlignment modifiers.layout.align).alignment ≤ limit)
    (hproblem : IsFitting (Placement.place (some next) m modifiers).1.problem) :
    (Placement.place (some next) m modifiers =
        (⟨exactOffset next m modifiers, m.withAlignment modifiers.layout.align, none⟩,
        some (exactOffset next m modifiers + m.size)) ∧
      exactOffset next m modifiers + m.size ≤ limit ∧ m.overflows = false) ∨
    ((Placement.place (some next) m modifiers).1.problem = some .overflow ∧
    (Placement.place (some next) m modifiers).2 = none ∧
      (m.overflows = true ∨ limit < exactOffset next m modifiers + m.size)) := by
  have halignment := isAlignment_withAlignment hm modifiers.layout.align
  set a := (m.withAlignment modifiers.layout.align).alignment with ha
  have hup : 4 ∣ alignUp next a := Nat.dvd_trans halignment.four_dvd (isLeast_alignUp halignment.pos).1.1
  have hround : alignTo next a = _ := alignTo_eq halignment.isPowerOfTwo hle
  have hasked (problem : Option Misplacement)
    (h : problem = modifiers.layout.offset.bind fun x => Placement.check x next a)
      (hfitting : IsFitting problem ∨ IsFitting (problem.or (some .overflow))) : problem = none := by
    cases hoffset : modifiers.layout.offset with
    | none => rw [h, hoffset]; rfl
    | some x =>
      rw [hoffset, Option.bind_some] at h
      cases hcheck : Placement.check x next a with
      | none => rw [h, hcheck]
      | some problem =>
        rw [h, hcheck, Option.some_or, or_self] at hfitting
        obtain hfitting | hfitting := hfitting
        · cases hfitting
        · exact absurd (hcheck.trans hfitting) check_ne_overflow
  unfold Placement.place at hproblem ⊢
  dsimp only at hproblem ⊢
  rw [← ha] at hproblem ⊢
  cases hstop : Placement.stop? (modifiers.layout.offset.getD (alignTo next a))
    (m.withAlignment modifiers.layout.align) with
  | some stop =>
    rw [hstop] at hproblem
    obtain ⟨hfits, hsmall, hlimit, rfl⟩ := Placement.stop?_eq_some hstop
    rw [Metrics.size_withAlignment] at hfits ⊢
    rw [Metrics.overflows_withAlignment] at hsmall
    have hoffset : modifiers.layout.offset.getD (alignTo next a) = exactOffset next m modifiers := by
      unfold exactOffset
      cases hoffset : modifiers.layout.offset with
      | some x => rfl
      | none =>
        rw [hoffset, Option.getD_none] at hlimit
        rw [Option.getD_none, Option.getD_none]
        split at hround
        · exact hround
        · exact absurd hround hlimit
    rw [hasked _ rfl (.inl hproblem), hoffset]
    exact .inl ⟨rfl, hoffset ▸ hfits, hsmall⟩
  | none =>
    rw [hstop] at hproblem
    have hnone := hasked _ rfl (.inr hproblem)
    dsimp only
    rw [hnone]
    refine .inr ⟨rfl, rfl, or_iff_not_imp_left.mpr fun hsmall => ?_⟩
    rw [Bool.not_eq_true] at hsmall
    unfold Placement.stop? at hstop
    simp only [Metrics.size_withAlignment, Metrics.overflows_withAlignment, hsmall, Bool.not_false,
      true_and, ne_eq, ite_eq_right_iff,
      reduceCtorEq, imp_false, not_and, Decidable.not_not] at hstop
    unfold exactOffset
    cases hoffset : modifiers.layout.offset with
    | none =>
      simp only [hoffset, Option.getD_none] at hstop ⊢
      rw [hround] at hstop
      have := ne_limit hup
      rw [← ha]
      split at hstop <;> omega
    | some x =>
      simp only [hoffset, Option.getD_some, Option.bind_some] at hstop hnone ⊢
      have hdvd := (Placement.check_eq_none halignment.pos hnone).2
      have := ne_limit (Nat.dvd_trans halignment.four_dvd hdvd)
      omega

lemma stop_of_mem_placeAfter_none {fs : List (Field Ty)} : ∀ p ∈ layout.placeAfter none fs, p.stop = limit := by
  induction fs with
  | nil => exact List.forall_mem_nil _
  | cons f fs ih => exact List.forall_mem_cons.mpr ⟨Nat.min_eq_right (Nat.le_add_right ..), ih⟩

lemma exactAfter_cons {f : Field Ty} {fs : List (Field Ty)} (h : layout.metrics f.ty = layout.exactMetrics f.ty) :
    layout.exactAfter next (f :: fs) =
      ⟨exactOffset next (layout.metrics f.ty) f.modifiers,
        (layout.metrics f.ty).withAlignment f.modifiers.layout.align, none⟩ ::
        layout.exactAfter (exactOffset next (layout.metrics f.ty) f.modifiers + (layout.metrics f.ty).size) fs := by
  rw [h, ← @Metrics.size_withAlignment _ f.modifiers.layout.align]
  rfl

/-- The members of a struct are placed exactly, or the last of them ends at the limit. -/
lemma placeAfter_cases {fs : List (Field Ty)} (hsupported : ∀ f ∈ fs, supports f.ty = true)
    (hbounded : ∀ f ∈ fs, ((layout.metrics f.ty).withAlignment f.modifiers.layout.align).alignment ≤ limit)
    (hexact : ∀ f ∈ fs, (layout.metrics f.ty).overflows = false → layout.metrics f.ty = layout.exactMetrics f.ty)
    (hproblems : ∀ p ∈ layout.placeAfter (some next) fs, IsFitting p.problem) :
    (layout.placeAfter (some next) fs = layout.exactAfter next fs ∧
      (∀ p ∈ layout.exactAfter next fs, p.problem = none ∧ p.offset + p.metrics.size ≤ limit) ∧
      ∀ f ∈ fs, (layout.metrics f.ty).overflows = false) ∨
    ((layout.placeAfter (some next) fs).getLast?.map Placement.stop = some limit ∧
      ((∃ f ∈ fs, (layout.metrics f.ty).overflows = true) ∨
      ∃ p ∈ layout.exactAfter next fs, limit < p.offset + p.metrics.size)) := by
  induction fs generalizing next with
  | nil => exact .inl ⟨rfl, List.forall_mem_nil _, List.forall_mem_nil _⟩
  | cons f fs ih =>
    rw [List.forall_mem_cons] at hsupported hbounded hexact
    rw [placeAfter_cons, List.forall_mem_cons] at hproblems
    rw [placeAfter_cons]
    obtain ⟨hplace, hfits, hsmall⟩ | ⟨hproblem, hstop, hwhy⟩ :=
      place_cases (isAlignment_metrics hsupported.1) hbounded.1 hproblems.1
    · rw [hplace] at hproblems ⊢
      rw [exactAfter_cons (hexact.1 hsmall)]
      obtain ⟨heq, hends, hsmalls⟩ | ⟨hlast, hwhy⟩ := ih hsupported.2 hbounded.2 hexact.2 hproblems.2
      · refine .inl ⟨by rw [heq], List.forall_mem_cons.mpr ⟨⟨rfl, ?_⟩, hends⟩,
          List.forall_mem_cons.mpr ⟨hsmall, hsmalls⟩⟩
        rw [Metrics.size_withAlignment]
        exact hfits
      · refine .inr ⟨?_, hwhy.imp (fun ⟨g, hg, h⟩ => ⟨g, List.mem_cons_of_mem _ hg, h⟩)
          fun ⟨p, hp, h⟩ => ⟨p, List.mem_cons_of_mem _ hp, h⟩⟩
        obtain ⟨last, hlast, hlimit⟩ := Option.map_eq_some_iff.mp hlast
        rw [List.getLast?_cons, hlast, Option.getD_some, Option.map_some, hlimit]
    · rw [hstop]
      refine .inr ⟨?_, ?_⟩
      · have hall : ∀ p ∈ (Placement.place (some next) (layout.metrics f.ty) f.modifiers).1 ::
          layout.placeAfter none fs, p.stop = limit :=
          List.forall_mem_cons.mpr ⟨if_pos hproblem, stop_of_mem_placeAfter_none⟩
        rw [List.getLast?_eq_some_getLast (List.cons_ne_nil _ _), Option.map_some, hall _ (List.getLast_mem _)]
      · cases hsmall : (layout.metrics f.ty).overflows with
        | true => exact .inl ⟨f, List.mem_cons_self, hsmall⟩
        | false =>
          refine .inr ⟨_, by rw [exactAfter_cons (hexact.1 hsmall)]; exact List.mem_cons_self, ?_⟩
          rw [Metrics.size_withAlignment]
          exact hwhy.resolve_left (Bool.eq_false_iff.mp hsmall)

end Members

/-! ### Whole types -/

/-- What is computed for a type is exact unless it overflows, and it overflows for a reason. -/
structure IsExact (layout : MemoryLayout) (ty : Ty) : Prop where
  equal : (layout.metrics ty).overflows = false → layout.metrics ty = layout.exactMetrics ty
  within : (layout.metrics ty).overflows = false → ∀ u ∈ ty.nested, ¬ layout.Exceeds u
  reason : (layout.metrics ty).overflows = true → ∃ u ∈ ty.nested, layout.Exceeds u

lemma IsExact.of_small (hparts : ∀ x ∈ ty.parts, layout.IsExact x) (hsmall : (layout.metrics ty).overflows = false)
    (hsmalls : ∀ x ∈ ty.parts, (layout.metrics x).overflows = false)
    (hequal : layout.metrics ty = layout.exactMetrics ty)
    (hwithin : ¬ layout.Exceeds ty) : layout.IsExact ty := by
  refine ⟨fun _ => hequal, fun _ u hu => ?_, fun h => absurd h (Bool.eq_false_iff.mp hsmall)⟩
  obtain rfl | ⟨x, hx, hu⟩ := Ty.mem_nested.mp hu
  · exact hwithin
  · exact (hparts x hx).within (hsmalls x hx) u hu

lemma IsExact.of_overflows (hparts : ∀ x ∈ ty.parts, layout.IsExact x)
    (hlarge : (layout.metrics ty).overflows = true)
    (hreason : (∃ x ∈ ty.parts, (layout.metrics x).overflows = true) ∨ layout.Exceeds ty) : layout.IsExact ty := by
  have hfalse : (layout.metrics ty).overflows ≠ false := by rw [hlarge]; nofun
  refine ⟨fun h => absurd h hfalse, fun h => absurd h hfalse, fun _ => ?_⟩
  obtain ⟨x, hx, hlarge⟩ | hexceeds := hreason
  · obtain ⟨u, hu, hexceeds⟩ := (hparts x hx).reason hlarge
    exact ⟨u, Ty.mem_nested.mpr (.inr ⟨x, hx, hu⟩), hexceeds⟩
  · exact ⟨ty, Ty.self_mem_nested, hexceeds⟩

lemma overflows_eq_true {m : Metrics} : m.overflows = true ↔ m.size = limit ∨ m.arrayStride = limit := by
  simp [Metrics.overflows]

lemma isExact_flat (hparts : ty.parts = []) (hfields : ty.fields? = none)
    (hequal : layout.metrics ty = layout.exactMetrics ty)
    (hsize : (layout.metrics ty).size < limit) (hstride : (layout.metrics ty).arrayStride = 0) :
    layout.IsExact ty := by
  have hnone {P : Ty → Prop} : ∀ x ∈ ty.parts, P x := by rw [hparts]; exact List.forall_mem_nil _
  refine .of_small hnone (overflows_eq_false.mpr ⟨Nat.ne_of_lt hsize, by rw [hstride]; decide⟩) hnone hequal ?_
  rintro (h | h | ⟨fs, h, -⟩)
  · exact absurd h (Nat.not_lt_of_lt (hequal ▸ hsize))
  · rw [← hequal, hstride] at h
    exact absurd h (Nat.not_lt_zero limit)
  · rw [hfields] at h
    cases h

/-- Of types with elements and with a size, the size overflows whenever anything does. -/
lemma size_of_overflows (hsized : ty.isSized = true) (hmeasured : layout.IsMeasured ty)
    (h : (layout.metrics ty).overflows = true) :
    (layout.metrics ty).size = limit := by
  refine (overflows_eq_true.mp h).elim id fun hstride => ?_
  cases ty with
  | array e n =>
    cases n with
    | none => cases List.all_eq_true.mp hsized _ Ty.self_mem_nested
    | some n =>
      have hn : n ≠ 0 := fun hn => hmeasured.filled e (hn ▸ Ty.self_mem_nested)
      exact not_imp_not.mp (arrayStride_ne_limit hn) hstride
  | _ => exact absurd hstride (by decide : 0 ≠ limit)

lemma isExact_array {e : Ty} {n : Option Nat} (hsupported : supports e = true) (hmeasured : layout.IsMeasured e)
    (hsized : e.isSized = true) (he : layout.IsExact e) : layout.IsExact (.array e n) := by
  have hparts : ∀ x ∈ (Ty.array e n).parts, layout.IsExact x := List.forall_mem_singleton.mpr he
  have halignment := (@isAlignment_metrics layout e hsupported).roundUp layout
  cases hsmall : (layout.metrics e).overflows with
  | true =>
    refine .of_overflows hparts (overflows_eq_true.mpr (.inr ?_)) (.inl ⟨e, List.mem_cons_self, hsmall⟩)
    change alignTo (layout.metrics e).size (layout.roundUp (layout.metrics e).alignment) = limit
    rw [size_of_overflows hsized hmeasured hsmall]
    exact alignTo_limit (Nat.le_trans (by decide) halignment.least)
  | false =>
    set up := alignUp (layout.metrics e).size (layout.roundUp (layout.metrics e).alignment) with hup
    have hfour : 4 ∣ up := Nat.dvd_trans halignment.four_dvd (isLeast_alignUp halignment.pos).1.1
    have hstride : (layout.metrics (.array e n)).arrayStride = if up ≤ limit then up else limit :=
      alignTo_eq halignment.isPowerOfTwo (roundUp_le_limit (alignment_le_limit hmeasured.aligns))
    have hsize : (layout.metrics (.array e n)).size =
      min ((layout.metrics (.array e n)).arrayStride * n.getD 0) limit := rfl
    have hexact : layout.exactMetrics (.array e n) =
        { layout.metrics (.array e n) with size := up * n.getD 0, arrayStride := up } := by
      have hequal := he.equal hsmall
      rw [MemoryLayout.exactMetrics, ← hequal]
      rfl
    by_cases hle : up ≤ limit
    · rw [if_pos hle] at hstride
      rw [hstride] at hsize
      by_cases hroom : up * n.getD 0 ≤ limit
      · rw [Nat.min_eq_left hroom] at hsize
        have hequal : layout.metrics (.array e n) = layout.exactMetrics (.array e n) := by
          rw [hexact, ← hsize, ← hstride]
        refine .of_small hparts (overflows_eq_false.mpr ⟨?_, ?_⟩) (List.forall_mem_singleton.mpr hsmall) hequal ?_
        · rw [hsize]
          exact ne_limit (Nat.dvd_mul_right_of_dvd hfour _)
        · rw [hstride]
          exact ne_limit hfour
        · rw [Exceeds, hexact]
          rintro (h | h | ⟨fs, h, -⟩)
          · exact Nat.not_lt.mpr hroom h
          · exact Nat.not_lt.mpr hle h
          · cases h
      · refine .of_overflows hparts (overflows_eq_true.mpr (.inl ?_)) (.inr (.inl ?_))
        · rw [hsize]
          omega
        · rw [hexact]
          exact Nat.not_le.mp hroom
    · rw [if_neg hle] at hstride
      refine .of_overflows hparts (overflows_eq_true.mpr (.inr hstride)) (.inr (.inr (.inl ?_)))
      rw [hexact]
      exact Nat.not_le.mp hle

lemma isExact_struct {id : Nat} {name : String} {fs : List (Field Ty)} {block : Bool}
    (hsupported : supports (.struct id name fs block) = true)
    (hmeasured : layout.IsMeasured (.struct id name fs block))
    (hparts : ∀ x ∈ (Ty.struct id name fs block).parts, layout.IsExact x) :
    layout.IsExact (.struct id name fs block) := by
  have hmem (f : Field Ty) (hf : f ∈ fs) : f.ty ∈ (Ty.struct id name fs block).parts := List.mem_map_of_mem hf
  have halignment := @isAlignment_metrics layout _ hsupported
  have hle := @alignment_le_limit layout _ hmeasured.aligns
  have hstride : (layout.metrics (.struct id name fs block)).arrayStride ≠ limit := (by decide : 0 ≠ limit)
  obtain ⟨hplace, hends, hsmalls⟩ | ⟨hlast, hwhy⟩ := @placeAfter_cases layout 0 fs
    (List.forall_mem_map.mp (supports_of_mem_parts hsupported))
    (fun f hf => withAlignment_le_limit (alignment_le_limit (hmeasured.part f.ty (hmem f hf)).aligns)
      (hmeasured.aligns _ Ty.self_mem_nested fs rfl f hf))
    (fun f hf => (hparts f.ty (hmem f hf)).equal) (hmeasured.offsets _ Ty.self_mem_nested fs rfl)
  · set stop := (((layout.exactAfter 0 fs).getLast?.map fun p => p.offset + p.metrics.size).getD 0) with hstop
    have hstops : (layout.placeAfter (some 0) fs).getLast?.map Placement.stop =
        (layout.exactAfter 0 fs).getLast?.map fun p => p.offset + p.metrics.size := by
      rw [hplace]
      refine Option.map_congr fun p hp => ?_
      obtain ⟨hproblem, hend⟩ := hends p (List.mem_of_getLast? hp)
      rw [Placement.stop, hproblem, if_neg (by simp), Nat.min_eq_left hend]
    have hsize : (layout.metrics (.struct id name fs block)).size =
      alignTo stop (layout.metrics (.struct id name fs block)).alignment := by
      rw [hstop, ← hstops]
      rfl
    have hexact : layout.exactMetrics (.struct id name fs block) =
        { layout.metrics (.struct id name fs block) with
          size := alignUp stop (layout.metrics (.struct id name fs block)).alignment } := by
      rw [MemoryLayout.exactMetrics, hstop, ← hplace]
      rfl
    rw [alignTo_eq halignment.isPowerOfTwo hle] at hsize
    have hfour : 4 ∣ alignUp stop (layout.metrics (.struct id name fs block)).alignment :=
      Nat.dvd_trans halignment.four_dvd (isLeast_alignUp halignment.pos).1.1
    by_cases hroom : alignUp stop (layout.metrics (.struct id name fs block)).alignment ≤ limit
    · rw [if_pos hroom] at hsize
      refine .of_small hparts (overflows_eq_false.mpr ⟨hsize ▸ ne_limit hfour, hstride⟩)
        (List.forall_mem_map.mpr hsmalls)
        (by rw [hexact, ← hsize]) ?_
      rw [Exceeds, hexact]
      rintro (h | h | ⟨fs, ⟨⟩, p, hp, h⟩)
      · exact Nat.not_lt.mpr hroom h
      · exact absurd h (Nat.not_lt_zero limit)
      · exact Nat.not_lt.mpr (hends p hp).2 h
    · rw [if_neg hroom] at hsize
      refine .of_overflows hparts (overflows_eq_true.mpr (.inl hsize)) (.inr (.inl ?_))
      rw [hexact]
      exact Nat.not_le.mp hroom
  · refine .of_overflows hparts (overflows_eq_true.mpr (.inl ?_)) (hwhy.imp ?_ fun h => .inr (.inr ⟨fs, rfl, h⟩))
    · change alignTo (((layout.placeAfter (some 0) fs).getLast?.map Placement.stop).getD 0) _ = limit
      rw [hlast, Option.getD_some]
      exact alignTo_limit (Nat.le_trans (by decide) halignment.least)
    · rintro ⟨f, hf, h⟩
      exact ⟨f.ty, hmem f hf, h⟩

lemma isUnsizedAtEnd_of_parts (h : ty.parts.all Ty.isSized = true) : ty.isUnsizedAtEnd = true := by
  cases ty with
  | struct id name fs block =>
    have hfs : ∀ f ∈ fs, f.ty.isSized = true := List.forall_mem_map.mp (List.all_eq_true.mp h)
    refine Bool.and_eq_true_iff.mpr ⟨List.all_eq_true.mpr fun f hf => hfs f (List.dropLast_subset fs hf), ?_⟩
    cases hlast : fs.getLast? with
    | none => rfl
    | some f => exact List.all_eq_true.mpr (isSized_part (hfs f (List.mem_of_getLast? hlast)))
  | _ => exact h

lemma parts_of_isUnsizedAtEnd {id : Nat} {name : String} {fs : List (Field Ty)} {block : Bool}
    (h : (Ty.struct id name fs block).isUnsizedAtEnd = true) : ∀ f ∈ fs, f.ty.parts.all Ty.isSized = true := by
  obtain ⟨hinit, hlast⟩ := Bool.and_eq_true_iff.mp h
  intro f hf
  obtain hf | hf := mem_dropLast_or_getLast? hf
  · exact List.all_eq_true.mpr (isSized_part (List.all_eq_true.mp hinit f hf))
  · rw [hf] at hlast
    exact hlast

lemma isExact_metrics (hsupported : supports ty = true) (hunsized : ty.isUnsizedAtEnd = true)
    (hmeasured : layout.IsMeasured ty) :
    layout.IsExact ty := by
  induction ty using Ty.of_parts with
  | _ ty ih =>
  have hparts := supports_of_mem_parts hsupported
  cases ty with
  | scalar s => exact isExact_flat rfl rfl rfl (by decide : 4 < limit) rfl
  | vector s n => exact isExact_flat rfl rfl rfl (by cases n <;> decide : (Metrics.ofVector n).size < limit) rfl
  | matrix s c r =>
    exact isExact_flat rfl rfl rfl
      (by cases layout <;> cases c <;> cases r <;> decide : (Metrics.ofMatrix layout c r).size < limit) rfl
  | array e n =>
    have hmem : e ∈ (Ty.array e n).parts := List.mem_cons_self
    have hsized : e.isSized = true := List.all_eq_true.mp hunsized e hmem
    exact isExact_array (hparts e hmem) (hmeasured.part e hmem) hsized (ih e hmem (hparts e hmem)
      (isUnsizedAtEnd_of_parts (List.all_eq_true.mpr (isSized_part hsized))) (hmeasured.part e hmem))
  | struct id name fs block =>
    refine isExact_struct hsupported hmeasured fun x hx => ?_
    obtain ⟨f, hf, rfl⟩ := List.mem_map.mp hx
    exact ih f.ty hx (hparts f.ty hx) (isUnsizedAtEnd_of_parts
      (parts_of_isUnsizedAtEnd hunsized f hf)) (hmeasured.part f.ty hx)
  | _ => cases hsupported

/-- The numbers of a layout are exact until they do not fit into 32 bits. For a type of arrays with
elements whose offsets are as asked for, they are the exact ones unless the type overflows, and it
overflows if and only if one of the exact numbers in it is too large. Rounding up gives the least
multiple, or the limit if that does not fit. -/
theorem metrics_exact (hsupported : supports ty = true) (hunsized : ty.isUnsizedAtEnd = true)
    (hmeasured : layout.IsMeasured ty) :
    ((layout.metrics ty).overflows = false → layout.metrics ty = layout.exactMetrics ty) ∧
    ((layout.metrics ty).overflows = true ↔ ∃ u ∈ ty.nested, layout.Exceeds u) ∧
    ∀ offset alignment, offset ≤ limit → alignment ≤ limit → alignment.isPowerOfTwo → ∃ m,
      IsLeast {m | alignment ∣ m ∧ offset ≤ m} m ∧ alignTo offset alignment = if m ≤ limit then m else limit := by
  have hexact := isExact_metrics hsupported hunsized hmeasured
  refine ⟨hexact.equal, ⟨hexact.reason, fun ⟨u, hu, hexceeds⟩ => ?_⟩, fun offset alignment _ hle halignment => ?_⟩
  · by_contra hsmall
    exact hexact.within (Bool.not_eq_true _ ▸ hsmall) u hu hexceeds
  · exact ⟨alignUp offset alignment, isLeast_alignUp (Nat.pos_of_isPowerOfTwo halignment),
      alignTo_eq halignment hle⟩

/-- A block whose rows leave no room for its last member. -/
def largeBlock : Ty :=
  .struct 0 "Block" [⟨"weight", .float, {}, ⟨0, 0⟩⟩,
    ⟨"rows", .array (.vector .float .four) (some 268435454), {}, ⟨0, 0⟩⟩,
    ⟨"last", .float, {}, ⟨0, 0⟩⟩] true

lemma isMeasured_largeBlock : IsMeasured .std140 largeBlock :=
  ⟨fun e => by simp [largeBlock, Ty.nested, Ty.nestedAll], by decide +kernel, by decide +kernel⟩

theorem metrics_exact_largeBlock : supports largeBlock = true ∧ largeBlock.isUnsizedAtEnd = true ∧
    IsMeasured .std140 largeBlock ∧
    (metrics .std140 largeBlock).overflows = true ∧ ∃ u ∈ largeBlock.nested, Exceeds .std140 u :=
  ⟨rfl, rfl, isMeasured_largeBlock,
    by decide +kernel, (metrics_exact rfl rfl isMeasured_largeBlock).2.1.mp (by decide +kernel)⟩

end MemoryLayout
end Shading
