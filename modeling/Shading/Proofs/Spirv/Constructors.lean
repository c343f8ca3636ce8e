import Shading.Proofs.Spirv.Machine
import Shading.Proofs.Typing.Judgement

/-! Constructors of vectors and matrices. Whatever is known while the module is built, the value has
every scalar of the arguments at its column and row. This holds for each way to follow the steps
that take values apart and put them together. -/
namespace Shading

namespace Spirv.Value

def IsScalar (v : Value) : Prop := ∃ datum, v = .scalar datum

def IsVector (n : Nat) (v : Value) : Prop := ∃ vs, v = .composite vs ∧ vs.length = n ∧ ∀ u ∈ vs, u.IsScalar

/-- The value is put together as values of a scalar, vector or matrix type are. -/
def HasShape : Ty → Value → Prop
  | .vector _ n, v => v.IsVector n.toNat
  | .matrix _ c r, v => ∃ vs, v = .composite vs ∧ vs.length = c.toNat ∧ ∀ u ∈ vs, u.IsVector r.toNat
  | _, v => v.IsScalar

/-- The scalar at a column and row. -/
def cell? (ty : Ty) (v : Value) (c r : Nat) : Option Value := if ty.isMatrix then v.get? [c, r] else v.get? [r]

/-- A number as a component. -/
def number (ty : Ty) (n : Nat) : Value :=
  .scalar (.word (if Build.componentKind ty = .float then (Float.ofNat n).toFloat32.toBits.toBitVec
    else .ofNat 32 n))

/-- The vector or matrix with the scalars. -/
def ofEntries (ty : Ty) (w : Nat → Nat → Value) : Value := match ty with
  | .matrix _ c r => .composite ((List.range c.toNat).map fun i => .composite ((List.range r.toNat).map (w i)))
  | _ => .composite ((List.range ty.rows).map (w 0))

end Spirv.Value

open Spirv (Value)

/-- The scalar at a column and row of what a constructor makes of some values. -/
def ConstructorKind.cell? (ty : Ty) (vs : List Value) (c r : Nat) : ConstructorKind → Option Value
  | .compound => (Value.flat vs)[c * ty.rows + r]?
  | .splat => vs.head?
  | .diagonal => if c = r then vs.head? else some (.number ty 0)
  | .resize => (vs.head?.bind (·.get? [c, r])).or (some (.number ty (if c = r then 1 else 0)))
  | _ => none

namespace Spirv

variable {ty : Ty} {vs : List Value} {v : Value} {w : Nat → Nat → Value}

lemma Value.flat_of_scalars (h : ∀ u ∈ vs, u.IsScalar) : flat vs = vs := by
  induction vs with
  | nil => rfl
  | cons v vs ih =>
    obtain ⟨⟨datum, rfl⟩, hvs⟩ := List.forall_mem_cons.mp h
    exact congrArg (.scalar datum :: ·) (ih hvs)

lemma Value.scalars_of_hasShape (hty : ty.isScalar = true ∨ ty.isVector = true) (hv : v.HasShape ty) :
    (v.parts?.getD [v]).length = ty.slots ∧ ∀ u ∈ v.parts?.getD [v], u.IsScalar := by
  cases ty with
  | scalar t =>
    obtain ⟨datum, rfl⟩ := hv
    exact ⟨rfl, by simp [parts?, IsScalar]⟩
  | vector t n =>
    obtain ⟨vs, rfl, hlength, hvs⟩ := hv
    exact ⟨hlength, hvs⟩
  | _ => simp [Ty.isScalar, Ty.isVector] at hty

lemma Value.flat_of_hasShape {types : List Ty} (htypes : ∀ a ∈ types, a.isScalar = true ∨ a.isVector = true)
    (hvs : List.Forall₂ HasShape types vs) :
    (flat vs).length = (types.map Ty.slots).sum ∧ ∀ u ∈ flat vs, u.IsScalar := by
  induction hvs with
  | nil => exact ⟨rfl, nofun⟩
  | @cons a v types vs hv _ ih =>
    rw [List.forall_mem_cons] at htypes
    obtain ⟨hlength, hscalars⟩ := scalars_of_hasShape htypes.1 hv
    obtain ⟨hlengths, hrest⟩ := ih htypes.2
    rw [flat, List.flatMap_cons]
    exact ⟨by simp [hlength, ← hlengths, flat], List.forall_mem_append.mpr ⟨hscalars, hrest⟩⟩

lemma Value.isVector_map {n i : Nat} (hw : ∀ i j, (w i j).IsScalar) :
    IsVector n (.composite ((List.range n).map (w i))) :=
  ⟨_, rfl, by simp, by simp [hw]⟩

lemma Value.hasShape_ofEntries (hty : (ty.isVector || ty.isMatrix) = true)
    (hw : ∀ i j, (w i j).IsScalar) : (ofEntries ty w).HasShape ty := by
  cases ty with
  | vector t n => exact isVector_map hw
  | matrix t c r => exact ⟨_, rfl, by simp, by simp [isVector_map hw]⟩
  | _ => cases hty

lemma Value.exists_hasShape (ty : Ty) : ∃ v : Value, v.HasShape ty := by
  have hscalar : IsScalar (.scalar (.truth false)) := ⟨_, rfl⟩
  cases ty with
  | vector | matrix => exact ⟨_, hasShape_ofEntries rfl fun _ _ => hscalar⟩
  | _ => exact ⟨_, hscalar⟩

lemma Value.cell?_ofEntries (hty : (ty.isVector || ty.isMatrix) = true) {c r : Nat}
    (hc : c < ty.columns) (hr : r < ty.rows) :
    (ofEntries ty w).cell? ty c r = some (w c r) := by
  cases ty with
  | vector t n =>
    obtain rfl : c = 0 := Nat.lt_one_iff.mp hc
    simp [cell?, Ty.isMatrix, ofEntries, get?, hr]
  | matrix t columns rows =>
    have hc : c < columns.toNat := hc
    have hr : r < rows.toNat := hr
    simp [cell?, Ty.isMatrix, ofEntries, get?, hc, hr]
  | _ => cases hty

namespace Build

/-- A way to follow steps. Something is said of ids and the values that they stand for; it stays
true from step to step. -/
structure Logic where
  Side : Type
  Has : Builder → Side → Nat → Value → Prop
  Follows {α : Type} : Build α → Setting → Builder → Side → (α → Builder → Side → Prop) → Prop
  ofPure {α : Type} {a : α} {s b σ} {Q} : Q a b σ → Follows (pure a) s b σ Q
  ofBind {α β : Type} {m : Build α} {g : α → Build β} {s b σ} {P Q} [Composed Plain Span.Anywhere m]
    [∀ a, Composed Plain Span.Anywhere (g a)] : Follows m s b σ P →
    (∀ a b' σ', (∀ {x v}, Has b σ x v → Has b' σ' x v) → P a b' σ' → Follows (g a) s b' σ' Q) →
      Follows (m >>= g) s b σ Q
  ofEq {α : Type} {m n : Build α} {s b σ Q} : m s b = n s b → Follows n s b σ Q → Follows m s b σ Q
  ofConstant {ty s b σ} {n : Nat} (hty : ty.isMatrix = true) :
    Follows (constant (.int n) ty.component) s b σ fun x b' σ' => Has b' σ' x (.number ty n)
  ofConvert {t x v s b σ} :
    Has b σ x v → Follows (convert x (.scalar t) (.scalar t)) s b σ fun y b' σ' => Has b' σ' y v
  ofExtract {ty x v part indices s b σ} :
    Has b σ x v → v.get? indices = some part → (∀ i ∈ indices, i < 2 ^ 32) →
      Follows (extract ty x indices) s b σ fun y b' σ' => Has b' σ' y part
  ofComposite {ty parts vs s b σ} :
    (ty.isVector || ty.isMatrix) = true → parts ≠ [] → List.Forall₂ (Has b σ) parts vs →
      (ty.isVector = true → ∀ u ∈ vs, u.IsScalar) →
    Follows (composite ty parts) s b σ fun x b' σ' => Has b' σ' x (.composite vs)
  /-- Only what is not known yet is put together from vectors. -/
  ofConstruct {ty parts vs s b σ} :
    ty.isVector = true → List.Forall₂ (Has b σ) parts vs →
      parts.all (fun id => b.templates[id]?.any Template.isConstant) = false →
    Follows (apply .compositeConstruct ty parts) s b σ fun x b' σ' => Has b' σ' x (.composite (Value.flat vs))

variable {L : Logic} {s : Setting} {b : Builder} {σ : L.Side} {x : Nat} {types : List Ty}
    {arguments : List (Nat × Ty)}

/-- Each entry of a list is made after those before it, and what has a value keeps it. -/
lemma follows_mapM {α β γ : Type} {g : α → Build β} [∀ a, Composed Plain Span.Anywhere (g a)]
    {as : List α} {l : List γ}
    {R : β → γ → Builder → L.Side → Prop}
    (hmono : ∀ {y u b σ b' σ'}, (∀ {x v}, L.Has b σ x v → L.Has b' σ' x v) → R y u b σ → R y u b' σ')
    (h : List.Forall₂ (fun a u => ∀ b' σ', (∀ {x v}, L.Has b σ x v → L.Has b' σ' x v) →
    L.Follows (g a) s b' σ' (R · u)) as l) :
    L.Follows (as.mapM g) s b σ fun ys b' σ' => List.Forall₂ (R · · b' σ') ys l := by
  suffices hrun : ∀ b' σ', (∀ {x v}, L.Has b σ x v → L.Has b' σ' x v) →
      L.Follows (as.mapM g) s b' σ' fun ys b' σ' => List.Forall₂ (R · · b' σ') ys l from hrun b σ id
  induction h with
  | nil => exact fun b' σ' _ => L.ofPure .nil
  | cons hfirst _ ih =>
    intro b' σ' hkept
    rw [List.mapM_cons]
    refine L.ofBind (hfirst b' σ' hkept) fun y b1 σ1 hkept1 hy => ?_
    refine L.ofBind (ih b1 σ1 fun h => hkept1 (hkept h)) fun ys b2 σ2 hkept2 hys => ?_
    exact L.ofPure (.cons (hmono hkept2 hy) hys)

lemma follows_columns {t : Scalar} {c r : Dim} {groups : List (List Nat)} {columns : List (List Value)}
    (hgroups : List.Forall₂ (List.Forall₂ (L.Has b σ)) groups columns)
    (hlength : groups.length = c.toNat) (hne : ∀ group ∈ groups, group ≠ [])
    (hcolumns : ∀ vs ∈ columns, ∀ u ∈ vs, u.IsScalar) :
    L.Follows (groups.mapM (composite (.vector t r)) >>= composite (.matrix t c r)) s b σ fun x b' σ' =>
      L.Has b' σ' x (.composite (columns.map .composite)) := by
  refine L.ofBind (follows_mapM (R := fun y u b σ => L.Has b σ y u) (l := columns.map .composite) (fun h => h) ?_)
    fun xs _ _ _ hxs => L.ofComposite rfl ?_ hxs nofun
  · refine List.forall₂_map_right_iff.mpr (List.forall₂_iff_get.mpr
      ⟨hgroups.length_eq, fun i hi hi' b' σ' hkept => ?_⟩)
    exact L.ofComposite rfl (hne _ (List.getElem_mem hi))
      ((hgroups.get hi hi').imp fun _ _ h => hkept h) fun _ => hcolumns _ (List.getElem_mem hi')
  · rintro rfl
    rw [List.forall₂_nil_left_iff, List.map_eq_nil_iff] at hxs
    rw [hgroups.length_eq, hxs] at hlength
    cases c <;> cases hlength

lemma follows_matrixOf {t : Scalar} {c r : Dim} {entry : Nat → Nat → Nat} (hw : ∀ i j, (w i j).IsScalar)
    (h : ∀ i < c.toNat, ∀ j < r.toNat, L.Has b σ (entry i j) (w i j)) :
    L.Follows (matrixOf (.matrix t c r) entry) s b σ fun x b' σ' =>
    L.Has b' σ' x (.ofEntries (.matrix t c r) w) := by
  have hentries : List.Forall₂ (List.Forall₂ (L.Has b σ))
    ((List.range c.toNat).map fun i => (List.range r.toNat).map (entry i))
      ((List.range c.toNat).map fun i => (List.range r.toNat).map (w i)) := by
    refine List.forall₂_map_left_iff.mpr (List.forall₂_map_right_iff.mpr (List.forall₂_same.mpr fun i hi => ?_))
    refine List.forall₂_map_left_iff.mpr (List.forall₂_map_right_iff.mpr (List.forall₂_same.mpr fun j hj => ?_))
    exact h i (List.mem_range.mp hi) j (List.mem_range.mp hj)
  have hfollows := follows_columns (s := s) (t := t) (c := c) (r := r) hentries (by simp)
    (by cases r <;> simp [Dim.toNat]) (by simp [hw])
  rw [List.mapM_map, List.map_map] at hfollows
  exact hfollows

lemma follows_scalars (hty : ty.isScalar = true ∨ ty.isVector = true) (hx : L.Has b σ x v) (hv : v.HasShape ty) :
    L.Follows (scalars x ty) s b σ fun xs b' σ' => List.Forall₂ (L.Has b' σ') xs (v.parts?.getD [v]) := by
  cases ty with
  | scalar t =>
    obtain ⟨datum, rfl⟩ := hv
    exact L.ofPure (.cons hx .nil)
  | vector t n =>
    obtain ⟨vs, rfl, hlength, -⟩ := hv
    refine follows_mapM (R := fun y u b σ => L.Has b σ y u) (fun h => h)
      (List.forall₂_iff_get.mpr ⟨by simp [hlength, Value.parts?], fun i hi hi' b' σ' hkept => ?_⟩)
    have hi : i < vs.length := hi'
    refine L.ofExtract (hkept hx) (by simp [Value.get?, Value.parts?, hi]) ?_
    cases n <;> simp [Dim.toNat] at hlength ⊢ <;> omega
  | _ => simp [Ty.isScalar, Ty.isVector] at hty

lemma follows_allScalars (hflat : ∀ a ∈ arguments, a.2.isScalar = true ∨ a.2.isVector = true)
    (hvs : List.Forall₂ (fun a v => v.HasShape a.2) arguments vs)
    (hvalues : List.Forall₂ (fun a v => L.Has b σ a.1 v) arguments vs) :
    L.Follows (arguments.mapM fun (v, t) => scalars v t) s b σ fun parts b' σ' =>
      List.Forall₂ (List.Forall₂ (L.Has b' σ')) parts (vs.map fun v => v.parts?.getD [v]) := by
  refine follows_mapM (R := fun xs us b σ => List.Forall₂ (L.Has b σ) xs us) (fun h hxs => hxs.imp fun _ _ => h) ?_
  refine List.forall₂_map_right_iff.mpr (List.forall₂_iff_get.mpr
    ⟨hvalues.length_eq, fun i hi hi' b' σ' hkept => ?_⟩)
  exact follows_scalars (hflat _ (List.getElem_mem hi)) (hkept (hvalues.get hi hi')) (hvs.get hi hi')

/-- What a constructor makes of values has these scalars, whatever the ids of the values are. -/
structure Builds (kind : ConstructorKind) (types : List Ty) (ty : Ty) (vs : List Value)
    (w : Nat → Nat → Value) : Prop where
  scalars : ∀ i j, (w i j).IsScalar
  entries : ∀ i < ty.columns, ∀ j < ty.rows, kind.cell? ty vs i j = some (w i j)
  follows : ∀ {L : Logic} {s : Setting} {b : Builder} {σ : L.Side} {arguments : List (Nat × Ty)},
    arguments.map (·.2) = types →
    List.Forall₂ (L.Has b σ) (arguments.map (·.1)) vs →
      L.Follows (construct kind arguments ty) s b σ fun x b' σ' => L.Has b' σ' x (.ofEntries ty w)

lemma take_drop_eq {all : List Value} {k n : Nat} (d : Value) (h : k + n ≤ all.length) :
    (all.drop k).take n = (List.range n).map fun j => all.getD (k + j) d := by
  refine List.ext_getElem? fun j => ?_
  by_cases hj : j < n
  · simp [hj, show k + j < all.length by omega]
  · simp [hj]

/-- A vector can be put together from what its parts are; otherwise all arguments are taken
apart. -/
lemma builds_compound (htakes : ConstructorKind.compound.Takes types ty)
    (hvs : List.Forall₂ Value.HasShape types vs) :
    ∃ w, Builds .compound types ty vs w := by
  obtain ⟨hty, htypes, hslots⟩ := htakes
  obtain ⟨hlength, hscalars⟩ := Value.flat_of_hasShape (fun a ha => (htypes a ha).1) hvs
  rw [hslots] at hlength
  let w (i j : Nat) : Value := (Value.flat vs).getD (i * ty.rows + j) (.scalar (.truth false))
  have hgroup {i : Nat} (hi : i < ty.columns) : i * ty.rows + ty.rows ≤ (Value.flat vs).length := by
    have hi : (i + 1) * ty.rows ≤ ty.columns * ty.rows := Nat.mul_le_mul_right _ hi
    rw [Nat.succ_mul] at hi
    cases ty <;> simp_all [Ty.isVector, Ty.isMatrix, Ty.slots, Ty.rows, Ty.columns, Nat.mul_comm]
  refine ⟨w, fun i j => ?_, fun i hi j hj => ?_, ?_⟩
  · dsimp only [w]
    rw [List.getD_eq_getElem?_getD]
    cases hu : (Value.flat vs)[i * ty.rows + j]? with
    | none => exact ⟨_, rfl⟩
    | some u => exact hscalars u (List.mem_of_getElem? hu)
  · have hlt : i * ty.rows + j < (Value.flat vs).length := Nat.lt_of_lt_of_le (by omega) (hgroup hi)
    simp [ConstructorKind.cell?, w, hlt]
  rintro L s b σ (_ | ⟨a, arguments⟩) rfl hvalues
  · have hslots : 0 = ty.slots := hslots
    cases ty with
    | vector t n => cases n <;> cases hslots
    | matrix t c r => cases c <;> cases r <;> cases hslots
    | _ => simp [Ty.isVector, Ty.isMatrix] at hty
  rw [List.forall₂_map_left_iff] at hvs
  have hall := follows_allScalars (s := s) (fun a ha => (htypes _ (List.mem_map_of_mem ha)).1) hvs
    (List.forall₂_map_left_iff.mp hvalues)
  have hflat {parts : List (List Nat)} {b : Builder} {σ : L.Side}
    (h : List.Forall₂ (List.Forall₂ (L.Has b σ)) parts (vs.map fun v => v.parts?.getD [v])) :
      List.Forall₂ (L.Has b σ) parts.flatten (Value.flat vs) := by
        simpa [Value.flat, List.flatMap_def] using List.rel_flatten h
  cases ty with
  | vector t n =>
    have hvalue : Value.ofEntries (.vector t n) w = .composite (Value.flat vs) :=
      congrArg Value.composite ((take_drop_eq _ (hgroup Nat.one_pos)).symm.trans
        (by simp [Ty.rows, List.take_of_length_le, hlength, Ty.slots]))
    rw [hvalue]
    refine L.ofEq (n := if !((a :: arguments).map (·.1)).all
      (fun id => b.templates[id]?.any Template.isConstant) then
      apply .compositeConstruct (.vector t n) ((a :: arguments).map (·.1)) else
      ((a :: arguments).mapM fun (v, t) => scalars v t) >>= fun parts =>
        composite (.vector t n) parts.flatten) rfl ?_
    split
    · rename_i hunknown
      rw [Bool.not_eq_true'] at hunknown
      exact L.ofConstruct rfl hvalues hunknown
    · refine L.ofBind hall fun parts _ _ _ hparts => L.ofComposite rfl ?_ (hflat hparts) fun _ => hscalars
      intro hnil
      have hcount := (hflat hparts).length_eq
      rw [hnil, hlength] at hcount
      cases n <;> cases hcount
  | matrix t c r =>
    have hvalue : Value.ofEntries (.matrix t c r) w =
        .composite (((List.range c.toNat).map fun i =>
          ((Value.flat vs).drop (i * r.toNat)).take r.toNat).map .composite) := by
      rw [List.map_map]
      exact congrArg Value.composite (List.map_congr_left fun i hi =>
        congrArg Value.composite (take_drop_eq _ (hgroup (List.mem_range.mp hi))).symm)
    rw [hvalue]
    refine L.ofEq (n := ((a :: arguments).mapM fun (v, t) => scalars v t) >>= fun parts =>
      (grouped r.toNat c.toNat parts.flatten).mapM (composite (.vector t r)) >>= composite (.matrix t c r)) rfl ?_
    refine L.ofBind hall fun parts _ _ _ hparts => follows_columns ?_ (by simp [grouped]) ?_ ?_
    · exact List.forall₂_map_left_iff.mpr (List.forall₂_map_right_iff.mpr (List.forall₂_same.mpr fun i _ =>
        List.forall₂_take _ (List.forall₂_drop _ (hflat hparts))))
    · simp only [grouped, List.forall_mem_map]
      intro i hi hnil
      have hcount := congrArg List.length hnil
      have hrows := hgroup (List.mem_range.mp hi)
      have hpositive : 0 < r.toNat := by cases r <;> decide
      simp only [List.length_take, List.length_drop, (hflat hparts).length_eq, List.length_nil] at hcount
      change i * r.toNat + r.toNat ≤ _ at hrows
      omega
    · simp only [List.forall_mem_map]
      exact fun i _ u hu => hscalars u (List.mem_of_mem_drop (List.mem_of_mem_take hu))
  | _ => simp [Ty.isVector, Ty.isMatrix] at hty

lemma exists_single {a : Ty} (h : arguments.map (·.2) = [a]) : ∃ x, arguments = [(x, a)] := by
  obtain ⟨⟨x, _⟩, rfl, rfl⟩ := List.map_eq_singleton_iff.mp h
  exact ⟨x, rfl⟩

lemma builds_splat (htakes : ConstructorKind.splat.Takes types ty) (hvs : List.Forall₂ Value.HasShape types vs) :
    ∃ w, Builds .splat types ty vs w := by
  obtain ⟨hty, rfl⟩ := htakes
  obtain ⟨v, _, hv, ⟨⟩, rfl⟩ := List.forall₂_cons_left_iff.mp hvs
  cases ty with
  | vector t n =>
    refine ⟨fun _ _ => v, fun _ _ => hv, fun _ _ _ _ => rfl, fun {L s b σ arguments} htypes hvalues => ?_⟩
    obtain ⟨x, rfl⟩ := exists_single htypes
    obtain ⟨hx, -⟩ := List.forall₂_cons.mp hvalues
    refine L.ofBind (L.ofConvert hx) fun y b' σ' _ hy => L.ofComposite rfl ?_ ?_ fun _ u hu =>
      List.eq_of_mem_map_const hu ▸ hv
    · cases n <;> simp [Ty.rows, Dim.toNat]
    · exact List.forall₂_iff_get.mpr ⟨by simp [Ty.rows], fun i _ _ => by simpa using hy⟩
  | _ => cases hty

lemma builds_diagonal (htakes : ConstructorKind.diagonal.Takes types ty)
    (hvs : List.Forall₂ Value.HasShape types vs) :
    ∃ w, Builds .diagonal types ty vs w := by
  obtain ⟨hty, rfl⟩ := htakes
  obtain ⟨v, _, hv, ⟨⟩, rfl⟩ := List.forall₂_cons_left_iff.mp hvs
  cases ty with
  | matrix t c r =>
    let w (i j : Nat) : Value := if i = j then v else .number (.matrix t c r) 0
    have hw (i j : Nat) : (w i j).IsScalar := by
      dsimp only [w]
      split
      · exact hv
      · exact ⟨_, rfl⟩
    refine ⟨w, hw, fun i _ j _ => ?_, fun {L s b σ arguments} htypes hvalues => ?_⟩
    · simp [ConstructorKind.cell?, w, apply_ite some]
    · obtain ⟨x, rfl⟩ := exists_single htypes
      obtain ⟨hx, -⟩ := List.forall₂_cons.mp hvalues
      refine L.ofBind (L.ofConvert hx) fun y _ _ _ hy =>
        L.ofBind (L.ofConstant (n := 0) hty) fun z _ _ hkept hz => ?_
      refine follows_matrixOf hw fun i _ j _ => ?_
      dsimp only [w]
      split
      · exact hkept hy
      · exact hz
  | _ => cases hty

lemma get?_matrix {t : Scalar} {c r : Dim} (hv : v.HasShape (.matrix t c r)) (i j : Nat) :
    (i < c.toNat ∧ j < r.toNat) ∧ (∃ u, v.get? [i, j] = some u ∧ u.IsScalar) ∨
    ¬ (i < c.toNat ∧ j < r.toNat) ∧ v.get? [i, j] = none := by
  obtain ⟨columns, rfl, hlength, hcolumns⟩ := hv
  rw [← hlength]
  by_cases hi : i < columns.length
  · obtain ⟨vs, hvs, hrows, hscalars⟩ := hcolumns _ (List.getElem_mem hi)
    rw [← hrows]
    by_cases hj : j < vs.length
    · exact .inl ⟨⟨hi, hj⟩, vs[j], by simp [Value.get?, hi, hvs, hj], hscalars _ (List.getElem_mem hj)⟩
    · exact .inr ⟨fun h => hj h.2, by simp [Value.get?, hi, hvs, hj]⟩
  · exact .inr ⟨fun h => hi h.1, by simp [Value.get?, hi]⟩

lemma builds_resize (htakes : ConstructorKind.resize.Takes types ty) (hvs : List.Forall₂ Value.HasShape types vs) :
    ∃ w, Builds .resize types ty vs w := by
  obtain ⟨hty, source, rfl, hsource, -⟩ := htakes
  obtain ⟨v, _, hv, ⟨⟩, rfl⟩ := List.forall₂_cons_left_iff.mp hvs
  cases ty with
  | matrix t c r => cases source with
    | matrix t' c' r' =>
      let w (i j : Nat) : Value := (v.get? [i, j]).getD (.number (.matrix t c r) (if i = j then 1 else 0))
      have hw (i j : Nat) : (w i j).IsScalar := by
        dsimp only [w]
        obtain ⟨-, u, hu, hscalar⟩ | ⟨-, hnone⟩ := get?_matrix hv i j
        · rwa [hu]
        · rw [hnone]
          exact ⟨_, rfl⟩
      refine ⟨w, hw, fun i _ j _ => ?_, fun {L s b σ arguments} htypes hvalues => ?_⟩
      · cases hget : v.get? [i, j] <;> simp [ConstructorKind.cell?, w, hget]
      obtain ⟨x, rfl⟩ := exists_single htypes
      obtain ⟨hx, -⟩ := List.forall₂_cons.mp hvalues
      let places := (List.range c.toNat).flatMap fun i => (List.range r.toNat).map fun j => (i, j)
      have hplaces : ∀ i < c.toNat, ∀ j < r.toNat, places[i * r.toNat + j]? = some (i, j) := by
        cases c <;> cases r <;> decide
      refine L.ofBind (L.ofConstant (n := 1) hty) fun one _ _ hkept1 hone => ?_
      refine L.ofBind (L.ofConstant (n := 0) hty) fun nought _ _ hkept2 hzero => ?_
      refine L.ofBind (follows_mapM (R := fun y u b σ => L.Has b σ y u)
        (l := places.map fun p => w p.1 p.2) (fun h => h) ?_)
        fun parts _ _ _ hparts => follows_matrixOf hw fun i hi j hj => ?_
      · refine List.forall₂_map_right_iff.mpr (List.forall₂_same.mpr fun ⟨i, j⟩ _ b' σ' hkept => ?_)
        dsimp only [w]
        obtain ⟨hin, u, hu, -⟩ | ⟨hout, hnone⟩ := get?_matrix hv i j
        · rw [if_pos (by rwa [Bool.and_eq_true, decide_eq_true_iff, decide_eq_true_iff]), hu]
          refine L.ofExtract (hkept (hkept2 (hkept1 hx))) hu ?_
          have hsmall : c'.toNat ≤ 4 ∧ r'.toNat ≤ 4 := by cases c' <;> cases r' <;> decide
          simp
          omega
        · rw [if_neg (by rwa [Bool.and_eq_true, decide_eq_true_iff, decide_eq_true_iff]), hnone]
          refine L.ofPure ?_
          split
          · exact hkept (hkept2 hone)
          · exact hkept hzero
      · obtain ⟨hlt, hplace⟩ := List.getElem?_eq_some_iff.mp (hplaces i hi j hj)
        have hlength := hparts.length_eq
        rw [List.length_map] at hlength
        have hhas := hparts.get (hlength ▸ hlt) (by simpa using hlt)
        rw [List.getD_eq_getElem?_getD, List.getElem?_eq_getElem (hlength ▸ hlt)]
        simp only [List.get_eq_getElem, List.getElem_map, hplace] at hhas
        exact hhas
    | _ => cases hsource
  | _ => cases hty

lemma exists_builds {kind : ConstructorKind} (hkind :
    kind ∈ [.compound, .splat, .diagonal, .resize]) (htakes : kind.Takes types ty)
    (hvs : List.Forall₂ Value.HasShape types vs) : (ty.isVector || ty.isMatrix) = true ∧
    ∃ w, Builds kind types ty vs w := by
  fin_cases hkind
  · exact ⟨Bool.or_eq_true_iff.mpr htakes.1, builds_compound htakes hvs⟩
  · exact ⟨by simp [htakes.1], builds_splat htakes hvs⟩
  · exact ⟨by simp [htakes.1], builds_diagonal htakes hvs⟩
  · exact ⟨by simp [htakes.1], builds_resize htakes hvs⟩

end Build
end Spirv
end Shading
