import Shading.Proofs.Memory.Alignment

/-! The scalars of a value do not overlap in memory. A scalar is reached by a path: the number of a
member, of an element, of a column and of an entry for each level of its type. -/
namespace Shading

namespace Ty

def isUnsized : Ty → Bool
  | .array _ none => true
  | _ => false

/-- Whether there is no array without a size in the type. -/
def isSized (ty : Ty) : Bool := ty.nested.all fun u => !u.isUnsized

/-- Whether no array is without a size but the type itself, or the last member of it. -/
def isUnsizedAtEnd : Ty → Bool
  | .struct _ _ fs _ => fs.dropLast.all (·.ty.isSized) && fs.getLast?.all fun f => f.ty.parts.all isSized
  | ty => ty.parts.all isSized

/-- Types whose size is rounded up to their alignment. -/
def isPadded : Ty → Bool
  | .array .. | .matrix .. | .struct .. => true
  | _ => false

mutual
/-- Whether a path goes into an array without a size. -/
def entersUnsized : Ty → List Nat → Bool
  | .array _ none, _ :: _ => true
  | .array e (some _), _ :: path => entersUnsized e path
  | .struct _ _ fs _, i :: path => entersUnsizedOf fs i path
  | _, _ => false
/-- Whether a path goes into an array without a size from the member of a number on. -/
def entersUnsizedOf : List (Field Ty) → Nat → List Nat → Bool
  | ⟨_, ty, _, _⟩ :: _, 0, path => entersUnsized ty path
  | _ :: fs, i + 1, path => entersUnsizedOf fs i path
  | [], _, _ => false
end

end Ty

namespace MemoryLayout

mutual
/-- Where the scalar at a path lies in a value of the type. -/
def leaf? (layout : MemoryLayout) : Ty → List Nat → Option Nat
  | .scalar _, [] => some 0
  | .vector _ n, [i] => if i < n.toNat then some (4 * i) else none
  | .matrix s c r, [i, j] =>
    if i < c.toNat ∧ j < r.toNat then some (i * (layout.metrics (.matrix s c r)).matrixStride + 4 * j) else none
  | .array e n, i :: path =>
    if n.all (i < ·) then (layout.leaf? e path).map (i * (layout.metrics (.array e n)).arrayStride + ·) else none
  | .struct _ _ fs _, i :: path => layout.leafOf? fs (layout.place fs) i path
  | _, _ => none
/-- Where the scalar at a path from the member of a number on lies. -/
def leafOf? (layout : MemoryLayout) : List (Field Ty) → List Placement → Nat → List Nat → Option Nat
  | ⟨_, ty, _, _⟩ :: _, p :: _, 0, path => (layout.leaf? ty path).map (p.offset + ·)
  | _ :: fs, _ :: ps, i + 1, path => layout.leafOf? fs ps i path
  | _, _, _, _ => none
end

attribute [local simp] leaf? leafOf?

/-- The members of a struct with their placements. -/
def members (layout : MemoryLayout) : Ty → List (Field Ty × Placement)
  | .struct _ _ fs _ => fs.zip (layout.place fs)
  | _ => []

/-- Whether the members of all structs in a type are placed without a problem. -/
def IsPlaced (layout : MemoryLayout) (ty : Ty) : Prop := ∀ u ∈ ty.nested, ∀ x ∈ layout.members u,
    x.2.problem = none

variable {layout : MemoryLayout} {ty : Ty}

lemma IsPlaced.part (h : layout.IsPlaced ty) : ∀ x ∈ ty.parts, layout.IsPlaced x :=
  fun x hx u hu => h u (Ty.mem_nested.mpr (.inr ⟨x, hx, hu⟩))

lemma IsPlaced.nested {u : Ty} (h : layout.IsPlaced ty) (hu : u ∈ ty.nested) : layout.IsPlaced u := by
  induction ty using Ty.of_parts with
  | _ ty ih =>
  obtain rfl | ⟨x, hx, hu⟩ := Ty.mem_nested.mp hu
  · exact h
  · exact ih x hx (h.part x hx) hu

/-- Ranges of four bytes that do not overlap. -/
def Apart (a b : Nat) : Prop := a + 4 ≤ b ∨ b + 4 ≤ a

/-- The scalars of a type lie at multiples of four and apart from each other. -/
structure Fine (layout : MemoryLayout) (ty : Ty) : Prop where
  aligned : ∀ path a, layout.leaf? ty path = some a → 4 ∣ a
  apart : ∀ p q a b, layout.leaf? ty p = some a → layout.leaf? ty q = some b → p ≠ q → Apart a b

/-- The scalars of a type lie inside of its size. -/
def Bounded (layout : MemoryLayout) (ty : Ty) : Prop := ∀ path a, layout.leaf? ty path = some a →
    a + 4 ≤ (layout.metrics ty).size

/-! ### Elements one after the other -/

variable {stride i : Nat}

lemma strided_le {j x : Nat} (hx : x + 4 ≤ stride) (h : i < j) : i * stride + x + 4 ≤ j * stride := by
  have hmul : (i + 1) * stride ≤ j * stride := Nat.mul_le_mul_right stride h
  rw [Nat.add_mul, Nat.one_mul] at hmul
  omega

lemma strided_apart {j x y : Nat} (hx : x + 4 ≤ stride) (hy : y + 4 ≤ stride) (h : i = j → Apart x y) :
    Apart (i * stride + x) (j * stride + y) := by
  obtain hlt | rfl | hgt := Nat.lt_trichotomy i j
  · exact .inl (Nat.le_add_right_of_le (strided_le hx hlt))
  · obtain h | h := h rfl
    · exact .inl (by omega)
    · exact .inr (by omega)
  · exact .inr (Nat.le_add_right_of_le (strided_le hy hgt))

lemma four_dvd_strided {x : Nat} (hstride : 4 ∣ stride) (hx : 4 ∣ x) : 4 ∣ i * stride + x :=
  Nat.dvd_add (Nat.dvd_mul_left_of_dvd hstride i) hx

section Paths

variable {s : Scalar} {path : List Nat} {a : Nat}

lemma leaf?_scalar (h : layout.leaf? (.scalar s) path = some a) : path = [] ∧ a = 0 := by
  cases path with
  | nil => simpa [eq_comm] using h
  | cons i path => simp at h

lemma leaf?_vector {n : Dim} (h : layout.leaf? (.vector s n) path = some a) : ∃ i, path = [i] ∧
    i < n.toNat ∧ a = 4 * i := by
  obtain _ | ⟨i, _ | ⟨j, path⟩⟩ := path
  · simp at h
  · simp only [leaf?, Option.ite_none_right_eq_some, Option.some.injEq] at h
    exact ⟨i, rfl, h.1, h.2.symm⟩
  · simp at h

lemma leaf?_matrix {c r : Dim} (h : layout.leaf? (.matrix s c r) path = some a) :
    ∃ i j, path = [i, j] ∧ i < c.toNat ∧ j < r.toNat ∧
    a = i * (layout.metrics (.matrix s c r)).matrixStride + 4 * j := by
  obtain _ | ⟨i, _ | ⟨j, _ | ⟨k, path⟩⟩⟩ := path
  · simp at h
  · simp at h
  · simp only [leaf?, Option.ite_none_right_eq_some, Option.some.injEq] at h
    exact ⟨i, j, rfl, h.1.1, h.1.2, h.2.symm⟩
  · simp at h

lemma leaf?_array {e : Ty} {n : Option Nat} (h : layout.leaf? (.array e n) path = some a) :
    ∃ i rest x, path = i :: rest ∧ n.all (i < ·) = true ∧ layout.leaf? e rest = some x ∧
      a = i * (layout.metrics (.array e n)).arrayStride + x := by
  cases path with
  | nil => simp at h
  | cons i rest =>
    simp only [leaf?, Option.ite_none_right_eq_some, Option.map_eq_some_iff] at h
    obtain ⟨hi, x, hx, rfl⟩ := h
    exact ⟨i, rest, x, rfl, hi, hx, rfl⟩

end Paths

/-! ### Vectors, matrices and arrays -/

variable {s : Scalar}

lemma fine_scalar : layout.Fine (.scalar s) ∧ layout.Bounded (.scalar s) := by
  refine ⟨⟨fun path a h => ?_, fun p q a b hp hq hne => ?_⟩, fun path a h => ?_⟩
  · rw [(leaf?_scalar h).2]
    exact Nat.dvd_zero 4
  · exact absurd ((leaf?_scalar hp).1.trans (leaf?_scalar hq).1.symm) hne
  · rw [(leaf?_scalar h).2]
    exact Nat.le_refl 4

lemma fine_vector {n : Dim} : layout.Fine (.vector s n) ∧ layout.Bounded (.vector s n) := by
  refine ⟨⟨fun path a h => ?_, fun p q a b hp hq hne => ?_⟩, fun path a h => ?_⟩
  · obtain ⟨i, -, -, rfl⟩ := leaf?_vector h
    exact Nat.dvd_mul_right 4 i
  · obtain ⟨i, rfl, -, rfl⟩ := leaf?_vector hp
    obtain ⟨j, rfl, -, rfl⟩ := leaf?_vector hq
    have hij : i ≠ j := fun h => hne (congrArg ([·]) h)
    unfold Apart
    omega
  · obtain ⟨i, -, hi, rfl⟩ := leaf?_vector h
    change 4 * i + 4 ≤ 4 * n.toNat
    omega

lemma le_matrixStride {c r : Dim} {j : Nat} (h : j < r.toNat) :
    4 * j + 4 ≤ (layout.metrics (.matrix s c r)).matrixStride := by
  have hcolumn : 4 * r.toNat ≤ (Metrics.ofVector r).alignment := by cases r <;> decide
  have hstride : (Metrics.ofVector r).alignment ≤ (layout.metrics (.matrix s c r)).matrixStride := le_roundUp
  omega

lemma fine_matrix {c r : Dim} : layout.Fine (.matrix s c r) ∧ layout.Bounded (.matrix s c r) := by
  have hfour : 4 ∣ (layout.metrics (.matrix s c r)).matrixStride :=
    ((isAlignment_ofVector r).roundUp layout).four_dvd
  refine ⟨⟨fun path a h => ?_, fun p q a b hp hq hne => ?_⟩, fun path a h => ?_⟩
  · obtain ⟨i, j, -, -, -, rfl⟩ := leaf?_matrix h
    exact four_dvd_strided hfour (Nat.dvd_mul_right 4 j)
  · obtain ⟨i, j, rfl, -, hj, rfl⟩ := leaf?_matrix hp
    obtain ⟨k, l, rfl, -, hl, rfl⟩ := leaf?_matrix hq
    refine strided_apart (le_matrixStride hj) (le_matrixStride hl) ?_
    rintro rfl
    have hjl : j ≠ l := fun h => hne (congrArg (fun x => [i, x]) h)
    unfold Apart
    omega
  · obtain ⟨i, j, -, hi, hj, rfl⟩ := leaf?_matrix h
    have hsize : (layout.metrics (.matrix s c r)).size = c.toNat *
      (layout.metrics (.matrix s c r)).matrixStride := Nat.mul_comm ..
    rw [hsize]
    exact strided_le (le_matrixStride hj) hi

variable {path : List Nat}

section Arrays

variable {e : Ty} {n : Option Nat}

lemma le_arrayStride (he : supports e = true) (hstride : (layout.metrics (.array e n)).arrayStride ≠ limit) :
    (layout.metrics e).size ≤ (layout.metrics (.array e n)).arrayStride :=
  le_alignTo ((isAlignment_metrics he).roundUp layout).pos hstride

lemma dvd_arrayStride (hstride : (layout.metrics (.array e n)).arrayStride ≠ limit) :
    (layout.metrics (.array e n)).alignment ∣ (layout.metrics (.array e n)).arrayStride :=
  dvd_alignTo hstride

lemma size_ne_limit_of_arrayStride (he : supports e = true)
    (hstride : (layout.metrics (.array e n)).arrayStride ≠ limit) :
    (layout.metrics e).size ≠ limit := by
  have hroom : (layout.metrics e).size + (layout.roundUp (layout.metrics e).alignment - 1) ≤
    limit := add_le_limit hstride
  have hleast := ((@isAlignment_metrics layout e he).roundUp layout).least
  omega

lemma fine_array (hsupported : supports e = true) (hfine : layout.Fine e) (hbounded : layout.Bounded e)
    (hstride : (layout.metrics (.array e n)).arrayStride ≠ limit) : layout.Fine (.array e n) := by
  have hroom := le_arrayStride hsupported hstride
  have hfour : 4 ∣ (layout.metrics (.array e n)).arrayStride :=
    Nat.dvd_trans (@isAlignment_metrics layout (.array e n) hsupported).four_dvd (dvd_arrayStride hstride)
  refine ⟨fun path a h => ?_, fun p q a b hp hq hne => ?_⟩
  · obtain ⟨i, rest, x, -, -, hx, rfl⟩ := leaf?_array h
    exact four_dvd_strided hfour (hfine.aligned rest x hx)
  · obtain ⟨i, p, x, rfl, -, hx, rfl⟩ := leaf?_array hp
    obtain ⟨j, q, y, rfl, -, hy, rfl⟩ := leaf?_array hq
    refine strided_apart (Nat.le_trans (hbounded p x hx) hroom) (Nat.le_trans (hbounded q y hy) hroom) ?_
    rintro rfl
    exact hfine.apart p q x y hx hy fun h => hne (congrArg (i :: ·) h)

variable {count : Nat}

lemma size_array (h : (layout.metrics (.array e (some count))).size ≠ limit) :
    (layout.metrics (.array e (some count))).size = count *
    (layout.metrics (.array e (some count))).arrayStride := by
  have hsize : (layout.metrics (.array e (some count))).size =
      min ((layout.metrics (.array e (some count))).arrayStride * count) limit := rfl
  rw [Nat.mul_comm]
  omega

/-- An array with elements has a size that overflows whenever its stride does. -/
lemma arrayStride_ne_limit (hcount : count ≠ 0) (h : (layout.metrics (.array e (some count))).size ≠ limit) :
    (layout.metrics (.array e (some count))).arrayStride ≠ limit := by
  intro hstride
  have hsize : (layout.metrics (.array e (some count))).size =
      min ((layout.metrics (.array e (some count))).arrayStride * count) limit := rfl
  have hle : limit * 1 ≤ limit * count := Nat.mul_le_mul_left limit (Nat.pos_of_ne_zero hcount)
  rw [hstride] at hsize
  omega

lemma bounded_array (hsupported : supports e = true) (hbounded : layout.Bounded e)
    (h : (layout.metrics (.array e (some count))).size ≠ limit) : layout.Bounded (.array e (some count)) := by
  intro path a hleaf
  obtain ⟨i, rest, x, -, hi, hx, rfl⟩ := leaf?_array hleaf
  have hi : i < count := by simpa using hi
  have hstride := arrayStride_ne_limit (Nat.ne_of_gt (Nat.zero_lt_of_lt hi)) h
  rw [size_array h]
  exact strided_le (Nat.le_trans (hbounded rest x hx) (le_arrayStride hsupported hstride)) hi

lemma leaf?_empty : layout.leaf? (.array e (some 0)) path = none := by
  cases path <;> simp

end Arrays

/-! ### Structs -/

section Structs

variable {fs : List (Field Ty)} {f : Field Ty} {next : Nat}

lemma placeAfter_cons : layout.placeAfter (some next) (f :: fs) =
    (Placement.place (some next) (layout.metrics f.ty) f.modifiers).1 ::
      layout.placeAfter (Placement.place (some next) (layout.metrics f.ty) f.modifiers).2 fs := rfl

variable {p : Placement}

lemma leafOf?_zero {ps : List Placement} :
    layout.leafOf? (f :: fs) (p :: ps) 0 path = (layout.leaf? f.ty path).map (p.offset + ·) := by rw [leafOf?]

lemma leafOf?_succ {ps : List Placement} :
    layout.leafOf? (f :: fs) (p :: ps) (i + 1) path = layout.leafOf? fs ps i path := by rw [leafOf?]

/-- The first member follows what is before it, and the other members follow the first. -/
lemma placeAfter_of_forall (hf : supports f.ty = true)
    (h : ∀ p ∈ layout.placeAfter (some next) (f :: fs), p.problem = none) :
    ∃ p : Placement, p.Follows next (layout.metrics f.ty) f.modifiers.layout.align ∧
      layout.placeAfter (some next) (f :: fs) = p ::
      layout.placeAfter (some (p.offset + (layout.metrics f.ty).size)) fs ∧
      ∀ q ∈ layout.placeAfter (some (p.offset + (layout.metrics f.ty).size)) fs, q.problem = none := by
  rw [placeAfter_cons] at h ⊢
  obtain ⟨hproblem, hrest⟩ := List.forall_mem_cons.mp h
  obtain ⟨hfollows, hstop⟩ := Placement.follows_place (isAlignment_metrics hf) hproblem
  rw [hstop] at hrest ⊢
  exact ⟨_, hfollows, rfl, hrest⟩

lemma fine_members (hsupported : ∀ f ∈ fs, supports f.ty = true)
    (hplaced : ∀ p ∈ layout.placeAfter (some next) fs, p.problem = none) (hfine : ∀ f ∈ fs, layout.Fine f.ty)
    (hbounded : ∀ f ∈ fs.dropLast, layout.Bounded f.ty) :
    (∀ i path a, layout.leafOf? fs (layout.placeAfter (some next) fs) i path = some a → next ≤ a ∧ 4 ∣ a) ∧
    ∀ i j p q a b, layout.leafOf? fs (layout.placeAfter (some next) fs) i p = some a →
      layout.leafOf? fs (layout.placeAfter (some next) fs) j q = some b → (i = j → p ≠ q) → Apart a b := by
  induction fs generalizing next with
  | nil => simp
  | cons f fs ih =>
    obtain ⟨hf, hsupported⟩ := List.forall_mem_cons.mp hsupported
    obtain ⟨hfine, hfines⟩ := List.forall_mem_cons.mp hfine
    obtain ⟨place, hfollows, heq, hplaced⟩ := placeAfter_of_forall hf hplaced
    obtain ⟨hafter, hapart⟩ := ih hsupported hplaced hfines fun g hg => hbounded g (by
      cases fs with
      | nil => cases hg
      | cons h fs => exact List.mem_cons_of_mem f hg)
    have hoffset : 4 ∣ place.offset := by
      refine Nat.dvd_trans ?_ hfollows.aligned
      rw [hfollows.metrics]
      exact (isAlignment_withAlignment (isAlignment_metrics hf) f.modifiers.layout.align).four_dvd
    have hnext := hfollows.after
    -- A scalar of the first member lies before those of the others.
    have hbefore (p : List Nat) (a j : Nat) (q : List Nat) (b : Nat) (hp : layout.leaf? f.ty p = some a)
        (hq : layout.leafOf? fs (layout.placeAfter
          (some (place.offset + (layout.metrics f.ty).size)) fs) j q = some b) :
        place.offset + a + 4 ≤ b := by
      have hb := (hafter j q b hq).1
      cases fs with
      | nil => simp at hq
      | cons g fs =>
        have ha := hbounded f List.mem_cons_self p a hp
        omega
    rw [heq]
    refine ⟨fun i path a h => ?_, fun i j p q a b hp hq hne => ?_⟩
    · cases i with
      | zero =>
        rw [leafOf?_zero, Option.map_eq_some_iff] at h
        obtain ⟨x, hx, rfl⟩ := h
        exact ⟨Nat.le_add_right_of_le hnext, Nat.dvd_add hoffset (hfine.aligned path x hx)⟩
      | succ i =>
        rw [leafOf?_succ] at h
        obtain ⟨hstart, hfour⟩ := hafter i path a h
        exact ⟨by omega, hfour⟩
    · cases i with
      | zero =>
        rw [leafOf?_zero, Option.map_eq_some_iff] at hp
        obtain ⟨x, hx, rfl⟩ := hp
        cases j with
        | zero =>
          rw [leafOf?_zero, Option.map_eq_some_iff] at hq
          obtain ⟨y, hy, rfl⟩ := hq
          obtain h | h := hfine.apart p q x y hx hy (hne rfl)
          · exact .inl (by omega)
          · exact .inr (by omega)
        | succ j =>
          rw [leafOf?_succ] at hq
          exact .inl (hbefore p x j q b hx hq)
      | succ i =>
        rw [leafOf?_succ] at hp
        cases j with
        | zero =>
          rw [leafOf?_zero, Option.map_eq_some_iff] at hq
          obtain ⟨y, hy, rfl⟩ := hq
          exact .inr (hbefore q y i p a hy hp)
        | succ j =>
          rw [leafOf?_succ] at hq
          exact hapart i j p q a b hp hq fun h => hne (congrArg (· + 1) h)

lemma length_placeAfter {next : Option Nat} : (layout.placeAfter next fs).length = fs.length := by
  induction fs generalizing next with
  | nil => rfl
  | cons f fs ih => exact congrArg (· + 1) ih

lemma IsPlaced.members {id : Nat} {name : String} {block : Bool} (h : layout.IsPlaced (.struct id name fs block)) :
    ∀ p ∈ layout.placeAfter (some 0) fs, p.problem = none := by
  intro p hp
  have hzip : (fs.zip (layout.placeAfter (some 0) fs)).map Prod.snd = layout.placeAfter (some 0) fs :=
    List.map_snd_zip (Nat.le_of_eq length_placeAfter)
  rw [← hzip] at hp
  obtain ⟨x, hx, rfl⟩ := List.mem_map.mp hp
  exact h _ Ty.self_mem_nested x hx

lemma overflows_of_mem (hsupported : ∀ f ∈ fs, supports f.ty = true)
    (hplaced : ∀ p ∈ layout.placeAfter (some next) fs, p.problem = none) :
    ∀ f ∈ fs, (layout.metrics f.ty).overflows = false := by
  induction fs generalizing next with
  | nil => exact List.forall_mem_nil _
  | cons f fs ih =>
    obtain ⟨hf, hsupported⟩ := List.forall_mem_cons.mp hsupported
    obtain ⟨place, hfollows, -, hplaced⟩ := placeAfter_of_forall hf hplaced
    exact List.forall_mem_cons.mpr ⟨hfollows.small, ih hsupported hplaced⟩

lemma aligned_members (hsupported : ∀ f ∈ fs, supports f.ty = true)
    (hplaced : ∀ p ∈ layout.placeAfter (some next) fs, p.problem = none) :
    ∀ x ∈ fs.zip (layout.placeAfter (some next) fs),
      x.2.metrics = (layout.metrics x.1.ty).withAlignment x.1.modifiers.layout.align ∧
      x.2.metrics.alignment ∣ x.2.offset := by
  induction fs generalizing next with
  | nil => exact List.forall_mem_nil _
  | cons f fs ih =>
    obtain ⟨hf, hsupported⟩ := List.forall_mem_cons.mp hsupported
    obtain ⟨place, hfollows, heq, hplaced⟩ := placeAfter_of_forall hf hplaced
    rw [heq, List.zip_cons_cons]
    exact List.forall_mem_cons.mpr ⟨⟨hfollows.metrics, hfollows.aligned⟩, ih hsupported hplaced⟩

/-- Where members end that are placed after members that end at `next`. -/
def stopAfter (layout : MemoryLayout) (next : Nat) (fs : List (Field Ty)) : Nat :=
  ((layout.placeAfter (some next) fs).getLast?.map Placement.stop).getD next

lemma stop_of_follows {m : Metrics} {align : Option Nat} (h : p.Follows next m align) :
    p.stop = p.offset + m.size := by
  have hfits := h.fits
  rw [Placement.stop, h.problem, h.metrics, Metrics.size_withAlignment, if_neg (by simp)]
  omega

lemma stopAfter_cons (hfollows : p.Follows next (layout.metrics f.ty) f.modifiers.layout.align)
    (heq : layout.placeAfter (some next) (f :: fs) = p ::
    layout.placeAfter (some (p.offset + (layout.metrics f.ty).size)) fs) :
    layout.stopAfter next (f :: fs) = layout.stopAfter (p.offset + (layout.metrics f.ty).size) fs := by
  unfold stopAfter
  rw [heq]
  cases fs with
  | nil => exact stop_of_follows hfollows
  | cons g fs =>
    rw [placeAfter_cons, List.getLast?_cons_cons, List.getLast?_cons, Option.map_some,
      Option.getD_some, Option.getD_some]

/-- A scalar that lies inside of its member lies before the end of all members. -/
lemma inside_members (hsupported : ∀ f ∈ fs, supports f.ty = true)
    (hplaced : ∀ p ∈ layout.placeAfter (some next) fs, p.problem = none) : next ≤ layout.stopAfter next fs ∧
      ∀ i path a, layout.leafOf? fs (layout.placeAfter (some next) fs) i path = some a →
        ∃ f x, fs[i]? = some f ∧ layout.leaf? f.ty path = some x ∧
          (x + 4 ≤ (layout.metrics f.ty).size → a + 4 ≤ layout.stopAfter next fs) := by
  induction fs generalizing next with
  | nil => exact ⟨Nat.le_refl _, by simp⟩
  | cons f fs ih =>
    obtain ⟨hf, hsupported⟩ := List.forall_mem_cons.mp hsupported
    obtain ⟨place, hfollows, heq, hplaced⟩ := placeAfter_of_forall hf hplaced
    obtain ⟨hnext, hinside⟩ := ih hsupported hplaced
    have hafter := hfollows.after
    rw [stopAfter_cons hfollows heq, heq]
    refine ⟨by omega, fun i path a h => ?_⟩
    cases i with
    | zero =>
      rw [leafOf?_zero, Option.map_eq_some_iff] at h
      obtain ⟨x, hx, rfl⟩ := h
      exact ⟨f, x, rfl, hx, fun hroom => by omega⟩
    | succ i =>
      rw [leafOf?_succ] at h
      exact hinside i path a h

variable {id : Nat} {name : String} {block : Bool}

lemma leaf?_struct {a : Nat} (h : layout.leaf? (.struct id name fs block) path = some a) :
    ∃ i rest, path = i :: rest ∧ layout.leafOf? fs (layout.placeAfter (some 0) fs) i rest = some a := by
  cases path with
  | nil => simp at h
  | cons i rest =>
    rw [leaf?] at h
    exact ⟨i, rest, rfl, h⟩

lemma fine_struct (hsupported : ∀ f ∈ fs, supports f.ty = true)
    (hplaced : layout.IsPlaced (.struct id name fs block))
    (hfine : ∀ f ∈ fs, layout.Fine f.ty) (hbounded : ∀ f ∈ fs.dropLast, layout.Bounded f.ty) :
    layout.Fine (.struct id name fs block) := by
  obtain ⟨haligned, hapart⟩ := fine_members hsupported hplaced.members hfine hbounded
  refine ⟨fun path a h => ?_, fun p q a b hp hq hne => ?_⟩
  · obtain ⟨i, rest, -, h⟩ := leaf?_struct h
    exact (haligned i rest a h).2
  · obtain ⟨i, p, rfl, hp⟩ := leaf?_struct hp
    obtain ⟨j, q, rfl, hq⟩ := leaf?_struct hq
    refine hapart i j p q a b hp hq ?_
    rintro rfl
    exact fun h => hne (congrArg (i :: ·) h)

lemma inside_struct (hsupported : supports (.struct id name fs block) = true)
    (hplaced : layout.IsPlaced (.struct id name fs block))
    (hsize : (layout.metrics (.struct id name fs block)).size ≠ limit) {a : Nat}
    (h : layout.leaf? (.struct id name fs block) path = some a) :
    ∃ i rest f x, path = i :: rest ∧ fs[i]? = some f ∧ layout.leaf? f.ty rest = some x ∧
      (x + 4 ≤ (layout.metrics f.ty).size → a + 4 ≤ (layout.metrics (.struct id name fs block)).size) := by
  have hmembers : ∀ f ∈ fs, supports f.ty = true := List.forall_mem_map.mp (supports_of_mem_parts hsupported)
  obtain ⟨i, rest, rfl, h⟩ := leaf?_struct h
  obtain ⟨f, x, hf, hx, hinside⟩ := (inside_members hmembers hplaced.members).2 i rest a h
  have hround : layout.stopAfter 0 fs ≤ (layout.metrics (.struct id name fs block)).size :=
    le_alignTo (isAlignment_metrics hsupported).pos hsize
  exact ⟨i, rest, f, x, rfl, hf, hx, fun hroom => Nat.le_trans (hinside hroom) hround⟩

end Structs

/-! ### Sizes -/

lemma overflows_eq_false {m : Metrics} : m.overflows = false ↔ m.size ≠ limit ∧ m.arrayStride ≠ limit := by
  simp [Metrics.overflows]

lemma dvd_size (hpadded : ty.isPadded = true) (hsize : (layout.metrics ty).size ≠ limit) :
    (layout.metrics ty).alignment ∣ (layout.metrics ty).size := by
  cases ty with
  | matrix s c r => exact Nat.dvd_mul_right ..
  | struct id name fs block => exact dvd_alignTo hsize
  | array e n =>
    obtain _ | _ | count := n
    · exact Nat.dvd_zero _
    · rw [size_array hsize, Nat.zero_mul]
      exact Nat.dvd_zero _
    · rw [size_array hsize]
      exact Nat.dvd_mul_left_of_dvd (dvd_arrayStride (arrayStride_ne_limit (Nat.succ_ne_zero count) hsize)) _
  | _ => cases hpadded

/-! ### Whole types -/

lemma isSized_part (h : ty.isSized = true) : ∀ x ∈ ty.parts, x.isSized = true := by
  intro x hx
  refine List.all_eq_true.mpr fun u hu => List.all_eq_true.mp h u (Ty.mem_nested.mpr (.inr ⟨x, hx, hu⟩))

/-- What is known of a type that is placed without a problem. -/
structure Laid (layout : MemoryLayout) (ty : Ty) : Prop extends Fine layout ty where
  inside : ∀ path a, layout.leaf? ty path = some a → ty.entersUnsized path = false →
    a + 4 ≤ (layout.metrics ty).size
  /-- In an array without elements an overflow is not noticed. -/
  sizes : ty.IsFilled → ∀ u ∈ ty.nested, (layout.metrics u).size ≠ limit

lemma sizes_of_parts (hsize : (layout.metrics ty).size ≠ limit)
    (hparts : ty.IsFilled → ∀ x ∈ ty.parts, ∀ u ∈ x.nested, (layout.metrics u).size ≠ limit) :
    ty.IsFilled → ∀ u ∈ ty.nested, (layout.metrics u).size ≠ limit := by
  intro hfilled u hu
  obtain rfl | ⟨x, hx, hu⟩ := Ty.mem_nested.mp hu
  · exact hsize
  · exact hparts hfilled x hx u hu

lemma laid_of_isSized (hsupported : supports ty = true) (hsized : ty.isSized = true) (hplaced : layout.IsPlaced ty)
    (hsize : (layout.metrics ty).size ≠ limit) : layout.Laid ty ∧ layout.Bounded ty := by
  induction ty using Ty.of_parts with
  | _ ty ih =>
  have hsupporteds := supports_of_mem_parts hsupported
  have hsizeds := isSized_part hsized
  have hplaceds := hplaced.part
  suffices h : layout.Fine ty ∧ layout.Bounded ty ∧
      (ty.IsFilled → ∀ x ∈ ty.parts, ∀ u ∈ x.nested, (layout.metrics u).size ≠ limit) by
    obtain ⟨hfine, hbounded, hsizes⟩ := h
    exact ⟨⟨hfine, fun path a h _ => hbounded path a h, sizes_of_parts hsize hsizes⟩, hbounded⟩
  cases ty with
  | scalar s => exact ⟨fine_scalar.1, fine_scalar.2, fun _ => List.forall_mem_nil _⟩
  | vector s n => exact ⟨fine_vector.1, fine_vector.2, fun _ => List.forall_mem_nil _⟩
  | matrix s c r => exact ⟨fine_matrix.1, fine_matrix.2, fun _ => List.forall_mem_nil _⟩
  | array e n =>
    have hmem : e ∈ (Ty.array e n).parts := List.mem_cons_self
    obtain _ | _ | count := n
    · have hunsized := List.all_eq_true.mp hsized _ Ty.self_mem_nested
      cases hunsized
    · refine ⟨⟨fun path a h => ?_, fun p q a b h => ?_⟩, fun path a h => ?_, ?_⟩
      · rw [leaf?_empty] at h
        cases h
      · rw [leaf?_empty] at h
        cases h
      · rw [leaf?_empty] at h
        cases h
      · exact fun hfilled => absurd Ty.self_mem_nested (hfilled e)
    · have hstride := arrayStride_ne_limit (Nat.succ_ne_zero count) hsize
      obtain ⟨he, hbounded⟩ := ih e hmem (hsupporteds e hmem) (hsizeds e hmem) (hplaceds e hmem)
        (size_ne_limit_of_arrayStride (hsupporteds e hmem) hstride)
      refine ⟨fine_array (hsupporteds e hmem) he.toFine hbounded hstride,
        bounded_array (hsupporteds e hmem) hbounded hsize, ?_⟩
      exact fun hfilled => List.forall_mem_singleton.mpr (he.sizes (hfilled.part e hmem))
  | struct id name fs block =>
    have hsupportedf : ∀ f ∈ fs, supports f.ty = true := List.forall_mem_map.mp hsupporteds
    have hsmall := overflows_of_mem hsupportedf hplaced.members
    have hmem (f : Field Ty) (hf : f ∈ fs) : f.ty ∈ (Ty.struct id name fs block).parts := List.mem_map_of_mem hf
    have hmembers (f : Field Ty) (hf : f ∈ fs) : layout.Laid f.ty ∧ layout.Bounded f.ty :=
      ih f.ty (hmem f hf) (hsupportedf f hf) (hsizeds f.ty (hmem f hf)) (hplaceds f.ty (hmem f hf))
        (overflows_eq_false.mp (hsmall f hf)).1
    refine ⟨fine_struct hsupportedf hplaced (fun f hf => (hmembers f hf).1.toFine)
      fun f hf => (hmembers f (List.dropLast_subset fs hf)).2, fun path a h => ?_, ?_⟩
    · obtain ⟨i, rest, f, x, -, hf, hx, hinside⟩ := inside_struct hsupported hplaced hsize h
      exact hinside ((hmembers f (List.mem_of_getElem? hf)).2 rest x hx)
    · exact fun hfilled => List.forall_mem_map.mpr fun f hf => (hmembers f hf).1.sizes (hfilled.part _ (hmem f hf))
  | _ => cases hsupported

lemma laid_of_parts (hsupported : supports ty = true) (hparts : ty.parts.all Ty.isSized = true)
    (hplaced : layout.IsPlaced ty)
    (hsmall : (layout.metrics ty).overflows = false) : layout.Laid ty := by
  have hparts := List.all_eq_true.mp hparts
  obtain ⟨hsize, hstride⟩ := overflows_eq_false.mp hsmall
  cases hunsized : ty.isUnsized with
  | false =>
    refine (laid_of_isSized hsupported (List.all_eq_true.mpr fun u hu => ?_) hplaced hsize).1
    obtain rfl | ⟨x, hx, hu⟩ := Ty.mem_nested.mp hu
    · rw [hunsized]
      rfl
    · exact List.all_eq_true.mp (hparts x hx) u hu
  | true =>
    obtain ⟨e, rfl⟩ : ∃ e, ty = .array e none := by
      cases ty with
      | array e n =>
        cases n with
        | none => exact ⟨e, rfl⟩
        | some count => cases hunsized
      | _ => cases hunsized
    have hmem : e ∈ (Ty.array e none).parts := List.mem_cons_self
    have hsupportede := supports_of_mem_parts hsupported e hmem
    obtain ⟨he, hbounded⟩ := laid_of_isSized hsupportede (hparts e hmem) (hplaced.part e hmem)
      (size_ne_limit_of_arrayStride hsupportede hstride)
    refine ⟨fine_array hsupportede he.toFine hbounded hstride, fun path a h houtside =>
      ?_, sizes_of_parts hsize ?_⟩
    · obtain ⟨i, rest, x, rfl, -⟩ := leaf?_array h
      rw [Ty.entersUnsized] at houtside
      cases houtside
    · exact fun hfilled => List.forall_mem_singleton.mpr (he.sizes (hfilled.part e hmem))

lemma entersUnsizedOf_eq {fs : List (Field Ty)} {f : Field Ty} (h : fs[i]? = some f) :
    Ty.entersUnsizedOf fs i path = f.ty.entersUnsized path := by
  induction fs generalizing i with
  | nil => cases h
  | cons g fs ih =>
    cases i with
    | zero =>
      obtain rfl := Option.some.inj h
      rw [Ty.entersUnsizedOf]
    | succ i =>
      rw [Ty.entersUnsizedOf]
      exact ih h

lemma mem_dropLast_or_getLast? {fs : List (Field Ty)} {f : Field Ty} (h : f ∈ fs) :
    f ∈ fs.dropLast ∨ fs.getLast? = some f := by
  have hne := List.ne_nil_of_mem h
  rw [← List.dropLast_concat_getLast hne, List.mem_append, List.mem_singleton] at h
  refine h.imp_right fun hlast => ?_
  rw [List.getLast?_eq_some_getLast hne, hlast]

lemma laid_of_isUnsizedAtEnd (hsupported : supports ty = true) (hunsized : ty.isUnsizedAtEnd = true)
    (hplaced : layout.IsPlaced ty)
    (hsmall : (layout.metrics ty).overflows = false) : layout.Laid ty := by
  cases ty with
  | struct id name fs block =>
    obtain ⟨hinit, hlast⟩ := Bool.and_eq_true_iff.mp hunsized
    have hsize := (overflows_eq_false.mp hsmall).1
    have hsupportedf : ∀ f ∈ fs, supports f.ty = true := List.forall_mem_map.mp (supports_of_mem_parts hsupported)
    have hsmallf := overflows_of_mem hsupportedf hplaced.members
    have hmem (f : Field Ty) (hf : f ∈ fs) : f.ty ∈ (Ty.struct id name fs block).parts := List.mem_map_of_mem hf
    have hparts (f : Field Ty) (hf : f ∈ fs) : f.ty.parts.all Ty.isSized = true := by
      obtain hf | hf := mem_dropLast_or_getLast? hf
      · exact List.all_eq_true.mpr (isSized_part (List.all_eq_true.mp hinit f hf))
      · rw [hf] at hlast
        exact hlast
    have hmembers (f : Field Ty) (hf : f ∈ fs) : layout.Laid f.ty :=
      laid_of_parts (hsupportedf f hf) (hparts f hf) (hplaced.part f.ty (hmem f hf)) (hsmallf f hf)
    have hbounded (f : Field Ty) (hf : f ∈ fs.dropLast) : layout.Bounded f.ty := by
      have hfs := List.dropLast_subset fs hf
      exact (laid_of_isSized (hsupportedf f hfs) (List.all_eq_true.mp hinit f hf) (hplaced.part f.ty (hmem f hfs))
        (overflows_eq_false.mp (hsmallf f hfs)).1).2
    refine ⟨fine_struct hsupportedf hplaced (fun f hf => (hmembers f hf).toFine) hbounded,
      fun path a h houtside => ?_,
      sizes_of_parts hsize ?_⟩
    · obtain ⟨i, rest, f, x, rfl, hf, hx, hinside⟩ := inside_struct hsupported hplaced hsize h
      rw [Ty.entersUnsized, entersUnsizedOf_eq hf] at houtside
      exact hinside ((hmembers f (List.mem_of_getElem? hf)).inside rest x hx houtside)
    · exact fun hfilled => List.forall_mem_map.mpr fun f hf => (hmembers f hf).sizes (hfilled.part _ (hmem f hf))
  | _ => exact laid_of_parts hsupported hunsized hplaced hsmall

/-- The memory layout never overlaps. In a type whose members are placed without a problem and that
does not overflow, the scalars lie apart from each other, at multiples of four and, outside of an
array without a size, inside of the type. Alignments are powers of two, members lie at multiples of
theirs, and sizes of arrays, matrices and structs are multiples of theirs if no array is without
elements. -/
theorem leaves_apart (hsupported : supports ty = true) (hunsized : ty.isUnsizedAtEnd = true)
    (hplaced : layout.IsPlaced ty)
    (hsmall : (layout.metrics ty).overflows = false) :
    (∀ p q a b, layout.leaf? ty p = some a → layout.leaf? ty q = some b → p ≠ q → a + 4 ≤ b ∨ b + 4 ≤ a) ∧
    (∀ p a, layout.leaf? ty p = some a → 4 ∣ a ∧ (ty.entersUnsized p = false → a + 4 ≤ (layout.metrics ty).size)) ∧
    (∀ u ∈ ty.nested, (layout.metrics u).alignment.isPowerOfTwo) ∧
    (∀ u ∈ ty.nested, ∀ x ∈ layout.members u,
      x.2.metrics = (layout.metrics x.1.ty).withAlignment x.1.modifiers.layout.align ∧
      x.2.metrics.alignment.isPowerOfTwo ∧ x.2.metrics.alignment ∣ x.2.offset) ∧
    (ty.IsFilled → ∀ u ∈ ty.nested, u.isPadded = true →
      (layout.metrics u).alignment ∣ (layout.metrics u).size) := by
  have hlaid := laid_of_isUnsizedAtEnd hsupported hunsized hplaced hsmall
  refine ⟨hlaid.apart, fun p a h => ⟨hlaid.aligned p a h, hlaid.inside p a h⟩, fun u hu =>
    ?_, fun u hu x hx => ?_, fun hfilled u hu hpadded => ?_⟩
  · exact (isAlignment_metrics (supports_of_mem_nested hsupported hu)).isPowerOfTwo
  · cases u with
    | struct id name fs block =>
      have hsupportedf : ∀ f ∈ fs, supports f.ty = true :=
        List.forall_mem_map.mp (supports_of_mem_parts (supports_of_mem_nested hsupported hu))
      obtain ⟨hmetrics, haligned⟩ := aligned_members hsupportedf (hplaced.nested hu).members x hx
      have halignment := isAlignment_withAlignment
        (@isAlignment_metrics layout x.1.ty (hsupportedf x.1 (List.of_mem_zip hx).1))
        x.1.modifiers.layout.align
      rw [← hmetrics] at halignment
      exact ⟨hmetrics, halignment.isPowerOfTwo, haligned⟩
    | _ => cases hx
  · exact dvd_size hpadded (hlaid.sizes hfilled u hu)

/-- A block with a scalar in the gap behind a vector, matrices at an offset that was asked for, a
struct and an array without a size. -/
def sampleBlock : Ty :=
  .struct 1 "Block" [⟨"direction", .vector .float .three, {}, ⟨0, 0⟩⟩, ⟨"weight", .float, {}, ⟨0, 0⟩⟩,
    ⟨"frames", .array (.matrix .float .two .three) (some 2), { layout := { offset := some 32 } }, ⟨0, 0⟩⟩,
    ⟨"range", .struct 0 "Range" [⟨"bounds", .vector .int .two, {}, ⟨0, 0⟩⟩,
      ⟨"step", .uint, {}, ⟨0, 0⟩⟩] false, {}, ⟨0, 0⟩⟩,
    ⟨"samples", .array .uint none, {}, ⟨0, 0⟩⟩] true

/-- The last entry of the second matrix and the step of the range lie apart, and the matrix inside
of the block. -/
theorem leaves_apart_sampleBlock : supports sampleBlock = true ∧ sampleBlock.isUnsizedAtEnd = true ∧
    IsPlaced .std140 sampleBlock ∧ (metrics .std140 sampleBlock).overflows = false ∧
    leaf? .std140 sampleBlock [2, 1, 1, 2] = some 88 ∧ leaf? .std140 sampleBlock [3, 1] = some 104 ∧
    leaf? .std140 sampleBlock [4, 5] = some 192 ∧ (88 + 4 ≤ 104 ∨ 104 + 4 ≤ 88) ∧ (104 + 4 ≤ 192 ∨ 192 + 4 ≤ 104) ∧
    4 ∣ 88 ∧ 88 + 4 ≤ (metrics .std140 sampleBlock).size := by
  have hplaced : IsPlaced .std140 sampleBlock := by
    unfold IsPlaced
    decide +kernel
  have hentry : leaf? .std140 sampleBlock [2, 1, 1, 2] = some 88 := rfl
  have hstep : leaf? .std140 sampleBlock [3, 1] = some 104 := rfl
  have hsample : leaf? .std140 sampleBlock [4, 5] = some 192 := rfl
  obtain ⟨hapart, hinside, -⟩ := leaves_apart (show supports sampleBlock = true from rfl) rfl hplaced rfl
  exact ⟨rfl, rfl, hplaced, rfl, hentry, hstep, hsample, hapart _ _ _ _ hentry hstep (by decide),
    hapart _ _ _ _ hstep hsample (by decide), (hinside _ _ hentry).1, (hinside _ _ hentry).2 rfl⟩

end MemoryLayout
end Shading
