import Shading.Proofs.Spirv.Constants

/-! The table of structs holds types of structs: whatever is asked for as the type of a struct or an
array is one, and not a vector that happens to have the id. -/
namespace Shading.Spirv

namespace Builder

/-- A type of structs or arrays. -/
def IsComposite (b : Builder) (x : Nat) : Prop :=
  ∃ t, b.templates[x]? = some t ∧ (t.op matches .typeStruct | .typeArray | .typeRuntimeArray) = true

/-- The tables hold what has been written, and composite types for structs. -/
structure Typed (b : Builder) : Prop where
  tabled : b.Tabled
  structs : ∀ {n x : Nat} {layout : Option MemoryLayout},
    (b.structs.getD n {}).get? layout = some x → b.IsComposite x

variable {b b' : Builder} {x : Nat}

lemma typed_start : Typed {} where
  tabled := ⟨by simp, by simp, nofun⟩
  structs {n x layout} h := by obtain _ | _ | _ := layout <;> simp [StructIds.get?] at h

lemma IsComposite.mono (h : b.IsComposite x) (hb : Tabled b) (hkeeps : Keeps b b') : b'.IsComposite x :=
  h.imp fun _ ht => ht.imp_left (hkeeps.templates hb)

lemma Typed.of_structs (h : b.Typed) (hkeeps : Keeps b b') (hstructs : b'.structs = b.structs) : b'.Typed :=
  ⟨hkeeps.tabled h.tabled, fun hx => (h.structs (hstructs ▸ hx)).mono h.tabled hkeeps⟩

lemma Typed.insert {n : Nat} {ids : StructIds} (h : b.Typed)
    (hids : ∀ layout x, ids.get? layout = some x → b.IsComposite x) :
    ({ b with structs := b.structs.insert n ids } : Builder).Typed := by
  refine ⟨⟨h.tabled.shared, h.tabled.written, h.tabled.range⟩, fun {k x layout} hx => ?_⟩
  change ((b.structs.insert n ids).getD k {}).get? layout = some x at hx
  rw [Std.TreeMap.getD_insert] at hx
  split at hx
  · exact hids layout x hx
  · exact h.structs hx

lemma Typed.isComposite {n : Nat} (h : b.Typed) (layout : Option MemoryLayout)
    (hx : (b.structs.getD n {}).get? layout = some x) : b.IsComposite x := h.structs hx

/-- The ids of a struct with another one among them. -/
lemma Typed.put {n y : Nat} {layout layout' : Option MemoryLayout} (h : b.Typed) (hx : b.IsComposite x)
    (hy : ((b.structs.getD n {}).put layout x).get? layout' = some y) : b.IsComposite y := by
  obtain _ | _ | _ := layout <;> obtain _ | _ | _ := layout'
  all_goals first
    | exact h.isComposite none hy
    | exact h.isComposite (some .std140) hy
    | exact h.isComposite (some .std430) hy
    | exact Option.some.inj hy ▸ hx

/-- What is taken for a layout is no longer there without one. -/
lemma Typed.take {n y : Nat} {layout : Option MemoryLayout} (h : b.Typed)
    (hy : ({ b.structs.getD n {} with free := none } : StructIds).get? layout = some y) : b.IsComposite y := by
  obtain _ | _ | _ := layout
  · cases hy
  · exact h.isComposite (some .std140) hy
  · exact h.isComposite (some .std430) hy

end Builder

namespace Build

open Builder (Declares Typed IsComposite)

variable {α : Type} {s : Setting} {b : Builder} {x n : Nat} {text : String}
    {layout : Option MemoryLayout} {fields : List (Field Ty)}

lemma Makes.look {β : Type} {g : Builder → Build β} {Q : β → Builder → Prop}
    (h : Makes (g b) s b Q) : Makes (get >>= g) s b Q := h

lemma makes_quiet (m : Build α) [Composed Quiet Span.Anywhere m] (hb : b.Typed) :
    Makes m s b fun _ b' => b'.Typed :=
  have hmakes := (Makes.of_outside (s := s) m hb.tabled).1
  ⟨hmakes, hb.of_structs hmakes.keeps (Composed.structs_eq m s b)⟩

lemma makes_about (m : Build Nat) [Composed Quiet Span.Anywhere m] (hb : b.Typed)
    (hx : b.IsComposite x) (hm : (m s b).1 = x) :
    Makes m s b fun x b' => b'.Typed ∧ b'.IsComposite x := by
  have hmakes := makes_quiet (s := s) m hb
  exact ⟨hmakes.1, hmakes.2, hm ▸ hx.mono hb.tabled hmakes.1.keeps⟩

lemma makes_compositeType {t : Template} (hb : b.Typed) (ht : t.belongs .globals = true)
    (hresult : t.sharing ≠ .noResult)
    (hop : (t.op matches .typeStruct | .typeArray | .typeRuntimeArray) = true) :
    Makes (global t) s b fun x b' => b'.Typed ∧ b'.IsComposite x := by
  have := Composed.global (P := Span.Anywhere) ht
  have hmakes := makes_quiet (s := s) (global t) hb
  exact ⟨hmakes.1, hmakes.2, t, global_template hb.tabled hresult, hop⟩

lemma makes_arrayType {element stride : Nat} {size : Option Nat} (hb : b.Typed) :
    Makes (arrayType element size stride) s b fun x b' => b'.Typed ∧ b'.IsComposite x := by
  have hstride (x : Nat) (b : Builder) (h : b.Typed ∧ b.IsComposite x) : Makes (do
      if 0 < stride then decorate x .arrayStride [.ofNat stride]
      return x) s b fun x b' => b'.Typed ∧ b'.IsComposite x :=
    makes_about _ h.1 h.2 (by split <;> rfl)
  unfold arrayType
  cases size with
  | some n =>
    refine .bind (makes_quiet (intConstant n) hb) fun length b1 _ hb1 => ?_
    exact .bind (makes_compositeType hb1 (Template.belongs_iff.mpr ⟨rfl, rfl, by simp⟩) (by simp)
      rfl) fun x b2 _ h2 => hstride x b2 h2
  | none =>
    exact .bind (makes_compositeType hb (Template.belongs_iff.mpr ⟨rfl, rfl, by simp⟩) (by simp)
      rfl) fun x b1 _ h1 => hstride x b1 h1

lemma makes_newStruct {block : Bool} {members : List Nat} (hb : b.Typed) :
    Makes (newStruct text fields block members) s b fun x b' => b'.Typed ∧ b'.IsComposite x :=
  .bind (makes_compositeType hb rfl nofun rfl) fun _ _ _ h1 => makes_about _ h1.1 h1.2 (by cases block <;> rfl)

lemma makes_reusedStruct? (hb : b.Typed) :
    Makes (reusedStruct? n text fields layout) s b fun found b' => b'.Typed ∧ ∀ x ∈ found, b'.IsComposite x := by
  have hnone : Makes (pure none : Build (Option Nat)) s b fun found b' => b'.Typed ∧
    ∀ x ∈ found, b'.IsComposite x :=
    .pure hb.tabled ⟨hb, by simp⟩
  have hsome {b' : Builder} {x : Nat} (layout : Option MemoryLayout)
    (hx : (b.structs.getD n {}).get? layout = some x) (h : Declares b b') :
      b'.IsComposite x := (hb.structs hx).mono hb.tabled h.keeps
  refine .look ?_
  split
  · exact hnone
  dsimp only
  split
  · split
    · rename_i x hfound
      refine .bind (makes_quiet (note _) hb) fun _ b1 h1 hb1 => .pure hb1.tabled ⟨hb1, ?_⟩
      rintro _ ⟨⟩
      obtain h | ⟨-, h⟩ := Option.or_eq_some_iff.mp hfound
      · exact hsome (some .std140) h h1
      · exact hsome (some .std430) h h1
    · exact hnone
  · split
    · rename_i x hfound
      refine .bind (makes_quiet (note _) hb) fun _ b1 h1 hb1 => ?_
      have htaken := @Typed.insert _ n { b.structs.getD n {} with free := none } hb1
        fun _ _ hy => (hb.take hy).mono hb.tabled h1.keeps
      have hx := hsome none hfound h1
      exact ⟨(Makes.of_outside (do modify _; return some x) hb1.tabled).1, htaken, by rintro _ ⟨⟩; exact hx⟩
    · exact hnone

lemma makes_rememberStruct (hb : b.Typed) (hx : b.IsComposite x) :
    Makes (rememberStruct n layout x) s b fun _ b' => b'.Typed ∧ b'.IsComposite x := by
  exact ⟨(Makes.of_outside (rememberStruct n layout x) hb.tabled).1, hb.insert fun _ _ => hb.put hx, hx⟩

mutual
/-- Types are written so that the tables stay in order, and structs and arrays have composite
types. -/
lemma makes_typeIn {b : Builder} (ty : Ty) (hb : b.Typed) :
    Makes (typeIn layout ty) s b fun x b' => b'.Typed ∧
    ((ty.isStruct || ty.isArray) = true → b'.IsComposite x) := by
  have hleaf (m : Build Nat) [Composed Quiet Span.Anywhere m] (hty : (ty.isStruct || ty.isArray) = false) :
      Makes m s b fun x b' => b'.Typed ∧ ((ty.isStruct || ty.isArray) = true → b'.IsComposite x) :=
    .weaken (makes_quiet m hb) fun _ _ _ h => ⟨h, by simp [hty]⟩
  have hvoid : Composed Quiet Span.Anywhere (global { op := .typeVoid }) := .global rfl
  cases ty with
  | array e n =>
    exact .bind (makes_typeIn e hb) fun _ _ _ h1 => .weaken (makes_arrayType h1.1) fun _ _ _ h =>
      h.imp_right fun hx _ => hx
  | struct n text fields block =>
    refine .weaken (P := fun x b' => b'.Typed ∧ b'.IsComposite x) ?_ fun _ _ _ h => h.imp_right fun hx _ => hx
    have hremember {x : Nat} {b : Builder} (h : b.Typed ∧ b.IsComposite x) : Makes (do
        rememberStruct n layout x
        placeMembers x fields layout
        return x) s b fun x b' => b'.Typed ∧ b'.IsComposite x :=
      .bind (makes_rememberStruct h.1 h.2) fun _ _ _ h1 => makes_about _ h1.1 h1.2 rfl
    unfold typeIn
    refine Makes.look ?_
    split
    · exact .pure hb.tabled ⟨hb, hb.structs ‹_›⟩
    refine .bind (makes_reusedStruct? hb) fun found b1 _ h1 => ?_
    cases found with
    | some x =>
      have hx := h1.2 x rfl
      dsimp only
      split
      · exact hremember ⟨h1.1, hx⟩
      · exact .pure h1.1.tabled ⟨h1.1, hx⟩
    | none =>
      refine .bind (makes_memberTypes fields h1.1) fun members b2 _ hb2 => ?_
      exact .bind (makes_newStruct hb2) fun x b3 _ h3 => hremember h3
  | void => exact hleaf (global _) rfl
  | scalar t => exact hleaf (scalarType t) rfl
  | vector t n => exact hleaf (vectorType t n) rfl
  | matrix t c r => exact hleaf (matrixType t c r) rfl
  | generic _ | poison | invalid => exact hleaf (do report _; return 0) rfl
lemma makes_memberTypes {b : Builder} (fields : List (Field Ty)) (hb : b.Typed) :
    Makes (memberTypes layout fields) s b fun _ b' => b'.Typed := by
  cases fields with
  | nil => exact .pure hb.tabled hb
  | cons f fields =>
    obtain ⟨text, ty, modifiers, span⟩ := f
    unfold memberTypes
    refine .bind (makes_quiet (setSpan span) hb) fun _ b1 _ hb1 => .bind (makes_typeIn ty hb1) fun x b2 _ h2 => ?_
    exact .bind (makes_memberTypes fields h2.1) fun xs b3 _ hb3 => .pure hb3.tabled hb3
end

end Build
end Shading.Spirv
