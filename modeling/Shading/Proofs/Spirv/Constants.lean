import Shading.Proofs.Spirv.Constructors

/-! What is made of constants is a constant. Its parts are known, so that taking it apart needs no
instruction, and no function is needed to compute it. -/
namespace Shading.Spirv

namespace Builder

/-- The id of a constant. -/
def constantAt (b : Builder) (x : Nat) : Bool := b.templates[x]?.any Template.isConstant

/-- The parts of a constant composite. -/
def partsAt (b : Builder) (x : Nat) : List Nat := (b.templates[x]?.map Template.constituents).getD []

/-- The id of a constant of which all parts of a value are known. -/
def Known (b : Builder) (x : Nat) (v : Value) : Prop :=
  ∀ path part, v.get? path = some part → ∃ y, Build.descend b.templates x path = (y, []) ∧ b.constantAt y = true

/-- The id of a constant of a type, of which vectors and matrices are known down to their
scalars. -/
def IsConstant (b : Builder) (ty : Ty) (x : Nat) : Prop := ∃ v : Value, v.HasShape ty ∧ b.Known x v

/-- A state that goes on from another one outside of functions. -/
structure Declares (b b' : Builder) : Prop where
  tabled : Tabled b'
  keeps : Keeps b b'
  body : b'.body = b.body

variable {b b' b'' : Builder} {x : Nat} {ty : Ty}

lemma Declares.refl (hb : Tabled b) : Declares b b := ⟨hb, .refl b, rfl⟩

lemma Declares.trans (h : Declares b b') (h' : Declares b' b'') : Declares b b'' :=
  ⟨h'.tabled, h.keeps.trans h'.keeps, h'.body.trans h.body⟩

lemma exists_of_constantAt (h : b.constantAt x = true) : ∃ t, b.templates[x]? = some t ∧ t.isConstant = true := by
  simpa [constantAt, Option.any_eq_true] using h

lemma Keeps.constantAt (h : Keeps b b') (hb : Tabled b) (hx : b.constantAt x = true) : b'.constantAt x = true := by
  obtain ⟨t, ht, hconstant⟩ := exists_of_constantAt hx
  simp [Builder.constantAt, h.templates hb ht, hconstant]

lemma Known.constantAt {v : Value} (h : b.Known x v) : b.constantAt x = true := by
  obtain ⟨y, hy, hconstant⟩ := h [] v rfl
  cases hy
  exact hconstant

lemma known_scalar {datum : Datum} (h : b.constantAt x = true) : b.Known x (.scalar datum) := by
  rintro (_ | _) part hpart
  · exact ⟨x, rfl, h⟩
  · cases hpart

lemma descend_of_keeps (h : Keeps b b') (hb : Tabled b) {path : List Nat} {y : Nat}
    (hy : Build.descend b.templates x path = (y, [])) :
    Build.descend b'.templates x path = (y, []) := by
  induction path generalizing x with
  | nil => exact hy
  | cons i rest ih =>
    unfold Build.descend at hy ⊢
    split at hy
    · rename_i part hpart
      obtain ⟨t, ht, hconstituent⟩ := Option.bind_eq_some_iff.mp hpart
      rw [h.templates hb ht, Option.bind_some, hconstituent]
      exact ih hy
    · cases hy

lemma Known.mono {v : Value} (hx : b.Known x v) (hb : Tabled b) (h : Keeps b b') : b'.Known x v :=
    fun path part hpart =>
  (hx path part hpart).imp fun _ hy => ⟨descend_of_keeps h hb hy.1, h.constantAt hb hy.2⟩

lemma IsConstant.mono (hx : b.IsConstant ty x) (hb : Tabled b) (h : Keeps b b') : b'.IsConstant ty x :=
  hx.imp fun _ hv => hv.imp_right (·.mono hb h)

lemma IsConstant.constantAt (h : b.IsConstant ty x) : b.constantAt x = true := h.choose_spec.2.constantAt

end Builder

namespace Build

open Builder (Tabled Keeps Declares IsConstant)

variable {α β : Type} {s : Setting} {b : Builder}

lemma exists_of_mem_forall₂ {R : α → β → Prop} {as : List α} {xs : List β} {x : β}
    (h : List.Forall₂ R as xs) (hx : x ∈ xs) :
    ∃ a ∈ as, R a x := by
  induction h with
  | nil => cases hx
  | cons hfirst _ ih =>
    obtain rfl | hx := List.mem_cons.mp hx
    · exact ⟨_, List.mem_cons_self, hfirst⟩
    · obtain ⟨a, ha, hax⟩ := ih hx
      exact ⟨a, List.mem_cons_of_mem _ ha, hax⟩

lemma exists_forall₂ {R : α → β → Prop} {as : List α} (h : ∀ a ∈ as, ∃ x, R a x) : ∃ xs, List.Forall₂ R as xs := by
  induction as with
  | nil => exact ⟨[], .nil⟩
  | cons a as ih =>
    rw [List.forall_mem_cons] at h
    obtain ⟨⟨x, hx⟩, h⟩ := h
    obtain ⟨xs, hxs⟩ := ih h
    exact ⟨x :: xs, .cons hx hxs⟩

/-- The step goes on outside of functions, and the answer has a property. -/
def Makes (m : Build α) (s : Setting) (b : Builder) (Q : α → Builder → Prop) : Prop :=
    Holds m s b fun a b' => Declares b b' ∧ Q a b'

namespace Makes

variable {m : Build α} {P Q : α → Builder → Prop} {R : β → Builder → Prop}

lemma pure {a : α} (hb : Tabled b) (h : Q a b) : Makes (pure a) s b Q := ⟨.refl hb, h⟩

lemma bind {f : α → Build β} (hm : Makes m s b P) (hf : ∀ a b', Declares b b' → P a b' → Makes (f a) s b' R) :
    Makes (m >>= f) s b R := by
  have hnext := hf (m s b).1 (m s b).2 hm.1 hm.2
  exact ⟨hm.1.trans hnext.1, hnext.2⟩

lemma weaken (hm : Makes m s b P) (h : ∀ a b', Declares b b' → P a b' → Q a b') : Makes m s b Q :=
    ⟨hm.1, h _ _ hm.1 hm.2⟩

lemma of_body (m : Build α) [hm : IsStraight m] (hb : Tabled b) (hbody : (m s b).2.body = b.body) :
    Makes m s b fun _ _ => True :=
  ⟨⟨(hm.straight s b).keeps.tabled hb, (hm.straight s b).keeps, hbody⟩, trivial⟩

lemma of_outside (m : Build α) [Composed Outside Span.Anywhere m] (hb : Tabled b) : Makes m s b fun _ _ => True :=
  .of_body m hb (Composed.body_eq m s b)

end Makes

lemma makes_global {t : Template} (hb : Tabled b) (ht : t.sharing ≠ .noResult)
    (hop : Instruction.isDeclaration { op := t.op } = true) :
    Makes (global t) s b fun x b' => b'.templates[x]? = some t := by
  have := IsStraight.global ht hop
  exact ⟨(Makes.of_body (s := s) (global t) hb (once_body (fun _ => rfl) s b).1).1, global_template hb ht⟩

/-! ### Constants -/

variable {ty : Ty}

lemma makes_constant {v : Literal} (hb : Tabled b) : Makes (constant v ty) s b fun x b' =>
    b'.constantAt x = true := by
  refine .bind (.of_outside (typeOf ty) hb) fun type b1 h1 _ => ?_
  have hglobal {t : Template} (ht : t.sharing = .shared)
    (hop : Instruction.isDeclaration { op := t.op } = true) (hconstant : t.isConstant = true) :
      Makes (global t) s b1 fun x b' => b'.constantAt x = true :=
    .weaken (makes_global h1.tabled (by simp [ht]) hop) fun x b' _ hx =>
      by simp [Builder.constantAt, hx, hconstant]
  split <;> exact hglobal rfl rfl rfl

variable {parts : List Nat}

lemma makes_constantComposite (hb : Tabled b) :
    Makes (constantComposite ty parts) s b fun x b' => b'.constantAt x = true ∧ b'.partsAt x = parts := by
  refine .bind (.of_outside (typeOf ty) hb) fun type b1 h1 _ => ?_
  refine .weaken (makes_global h1.tabled nofun rfl) fun x b' _ hx => ?_
  simp [Builder.constantAt, Builder.partsAt, hx, Template.isConstant, Template.constituents,
    Operand.ids, List.filterMap_map,
    Function.comp_def, Operand.id?]

lemma makes_composite (hb : Tabled b) (hparts : ∀ x ∈ parts, b.constantAt x = true) (hne : parts ≠ []) :
    Makes (composite ty parts) s b fun x b' => b'.constantAt x = true ∧ b'.partsAt x = parts := by
  have hconstants : parts.all (fun id => b.templates[id]?.any Template.isConstant) = true :=
    List.all_eq_true.mpr hparts
  have hcomposite : composite ty parts s b = constantComposite ty parts s b := by
    change (if !parts.isEmpty && parts.all (fun id => b.templates[id]?.any Template.isConstant)
      then constantComposite ty parts
      else apply .compositeConstruct ty parts : Build Nat) s b = _
    rw [hconstants, if_pos (by simpa using hne)]
  rw [Makes, Holds, hcomposite]
  exact makes_constantComposite hb

/-! ### Parts of constants -/

lemma bind_constituents (b : Builder) (x i : Nat) :
    (b.templates[x]?.bind fun t => t.constituents[i]?) = (b.partsAt x)[i]? := by
  unfold Builder.partsAt
  cases b.templates[x]? <;> simp

variable {x : Nat}

lemma extractAs_eq {type value : Nat} {indices : List Nat} : extractAs type value indices s b =
    (match descend b.templates value indices with
    | (part, []) => return part
    | (whole, rest) =>
      compute .compositeExtract type (.id whole :: Operand.numbers (rest.map UInt32.ofNat)) : Build Nat) s b := rfl

lemma makes_extract {y : Nat} {indices : List Nat} (hb : Tabled b)
    (hy : ∀ b', Keeps b b' → descend b'.templates x indices = (y, [])) :
    Makes (extract ty x indices) s b fun z _ => z = y := by
  refine .bind (.of_outside (typeOf ty) hb) fun type b1 h1 _ => ?_
  have hextract : extractAs type x indices s b1 = (y, b1) := by
    rw [extractAs_eq, hy b1 h1.keeps]
    rfl
  rw [Makes, Holds, hextract]
  exact ⟨.refl h1.tabled, rfl⟩

lemma descend_append {rest path : List Nat} {y : Nat} (hy : descend b.templates x path = (y, [])) :
    descend b.templates x (path ++ rest) = descend b.templates y rest := by
  induction path generalizing x with
  | nil =>
    cases hy
    rfl
  | cons i path ih =>
    rw [descend] at hy
    rw [List.cons_append, descend]
    split at hy
    · exact ih hy
    · cases hy

/-! ### Constructors -/

lemma global_ids {t : Template} (ht : t.sharing = .shared) : Holds (global t) s b fun x b' =>
    b'.ids[t]? = some x := by
  rw [Holds, global, once_eq]
  cases hfound : b.ids[t]? with
  | some id => exact hfound
  | none =>
    rw [write_eq (by simp [ht])]
    simp [ht]

lemma makes_sameType_scalar (t : Scalar) (hb : Tabled b) :
    Makes (sameType (.scalar t) (.scalar t)) s b fun same _ => same = true := by
  have htwice {t : Template} (ht : t.sharing = .shared) (b : Builder) :
      (global t s (global t s b).2).1 = (global t s b).1 := by
    have hfound : (global t s b).2.ids[t]? = some (global t s b).1 := global_ids ht
    rw [global, once_eq .globals t s (once .globals t s b).2]
    rw [global] at hfound
    rw [hfound]
  refine ⟨(Makes.of_outside (s := s) (sameType (.scalar t) (.scalar t)) hb).1, ?_⟩
  change ((scalarType t s b).1 == (scalarType t s (scalarType t s b).2).1) = true
  rw [beq_iff_eq]
  unfold scalarType
  cases t.kind <;> exact (htwice rfl b).symm

/-- Constants are followed without regard to functions. -/
def constants : Logic where
  Side := Unit
  Has b _ x v := b.Known x v
  Follows m s b _ Q := Tabled b → Makes m s b fun a b' => Q a b' ()
  ofPure h hb := .pure hb h
  ofBind hm hg hb := .bind (hm hb) fun _ b1 h1 ha => hg _ b1 () (fun hx => hx.mono hb h1.keeps) ha h1.tabled
  ofEq h hm hb := by
    rw [Makes, Holds, h]
    exact hm hb
  ofConstant _ hb := .weaken (makes_constant hb) fun _ _ _ => Builder.known_scalar
  ofConvert {t x v s b _} hx hb := by
    refine .bind (makes_sameType_scalar t hb) fun same b1 h1 hsame => ?_
    rw [hsame]
    exact .pure h1.tabled (hx.mono hb h1.keeps)
  ofExtract {ty x v part indices s b _} hx hpart _ hb := by
    obtain ⟨y, hy, -⟩ := hx indices part hpart
    refine .weaken (makes_extract hb fun b' h' => Builder.descend_of_keeps h' hb hy) fun z b' h' hz => ?_
    obtain rfl := hz
    refine Builder.Known.mono (fun path part' hpart' => ?_) hb h'.keeps
    rw [← descend_append hy]
    exact hx _ part' ((Value.get?_append hpart path).trans hpart')
  ofComposite {ty parts vs s b _} _ hne hparts _ hb := by
    have hconstant : ∀ x ∈ parts, b.constantAt x = true := fun x hx => by
      obtain ⟨v, -, hv⟩ := exists_of_mem_forall₂ hparts.flip hx
      exact Builder.Known.constantAt hv
    refine .weaken (makes_composite hb hconstant hne) fun x b' h' hx => ?_
    rintro (_ | ⟨i, rest⟩) part hpart
    · exact ⟨x, rfl, hx.1⟩
    · obtain ⟨u, hu, hpart⟩ := Option.bind_eq_some_iff.mp hpart
      obtain ⟨hi, rfl⟩ := List.getElem?_eq_some_iff.mp hu
      have hi' : i < parts.length := hparts.length_eq ▸ hi
      rw [descend, bind_constituents, hx.2, List.getElem?_eq_getElem hi']
      exact (hparts.get hi' hi).mono hb h'.keeps rest part hpart
  ofConstruct {ty parts vs s b _} _ hparts hall := by
    obtain ⟨x, hx, hnot⟩ := List.all_eq_false.mp hall
    obtain ⟨v, -, hv⟩ := exists_of_mem_forall₂ hparts.flip hx
    exact absurd (Builder.Known.constantAt hv) hnot

lemma makes_construct {kind : ConstructorKind} {arguments : List (Nat × Ty)} (hb : Tabled b)
    (hscalar : kind ≠ .scalarCast) (hcompound : kind ≠ .compoundCast) (hne : arguments ≠ [])
    (htakes : kind.Takes (arguments.map (·.2)) ty)
    (harguments : ∀ a ∈ arguments, b.IsConstant a.2 a.1) :
    Makes (construct kind arguments ty) s b fun x b' => b'.IsConstant ty x := by
  have hwhole (h : ty.isStruct || ty.isArray) :
    Makes (composite ty (arguments.map (·.1))) s b fun x b' => b'.IsConstant ty x := by
    refine .weaken (makes_composite hb (fun x hx => ?_) (by simpa using hne)) fun _ _ _ hx => ?_
    · obtain ⟨a, ha, rfl⟩ := List.mem_map.mp hx
      exact (harguments a ha).constantAt
    · refine ⟨.scalar (.truth false), ?_, Builder.known_scalar hx.1⟩
      cases ty <;> first | exact ⟨_, rfl⟩ | cases h
  obtain ⟨vs, hvs⟩ := exists_forall₂ harguments
  have hbuild (hkind : kind ∈ [.compound, .splat, .diagonal, .resize]) :
    Makes (construct kind arguments ty) s b fun x b' => b'.IsConstant ty x := by
    obtain ⟨hty, w, hw⟩ := exists_builds hkind htakes (List.forall₂_map_left_iff.mpr (hvs.imp fun _ _ h => h.1))
    have hmakes := hw.follows (L := constants) (σ := ()) (s := s) rfl
      (List.forall₂_map_left_iff.mpr (hvs.imp fun _ _ h => h.2)) hb
    exact .weaken hmakes fun x b' _ hx => ⟨_, Value.hasShape_ofEntries hty hw.scalars, hx⟩
  cases kind with
  | array =>
    obtain ⟨element, rfl, -⟩ := htakes
    obtain ⟨a, rest, rfl⟩ := List.exists_cons_of_ne_nil hne
    exact hwhole rfl
  | struct =>
    obtain ⟨id, name, fields, rfl, -⟩ := htakes
    obtain ⟨a, rest, rfl⟩ := List.exists_cons_of_ne_nil hne
    exact hwhole rfl
  | scalarCast => exact absurd rfl hscalar
  | compoundCast => exact absurd rfl hcompound
  | _ => exact hbuild (by simp)

/-! ### Trees -/

lemma isConstantTree_construct {kind : ConstructorKind} {as : List Expr} {span : Span} :
    isConstantTree (.construct kind as ty span) = true ↔ kind ≠ .scalarCast ∧ kind ≠ .compoundCast ∧
    areConstantTrees as = true := by
  unfold isConstantTree
  cases kind <;> simp

mutual
lemma makes_value {b : Builder} {d : Declared} (e : Expr) (hb : Tabled b) (he : e.WellTyped d)
    (hconstant : isConstantTree e = true) :
    Makes (value e) s b fun x b' => b'.IsConstant e.ty x := by
  obtain ⟨-, hrule, hparts⟩ := Expr.wellTyped_iff.mp he
  cases e with
  | literal v ty span =>
    obtain ⟨t, rfl, -⟩ := hrule
    unfold value
    exact .weaken (makes_constant hb) fun _ _ _ hx => ⟨.scalar (.truth false), ⟨_, rfl⟩, Builder.known_scalar hx⟩
  | construct kind as ty span =>
    obtain ⟨hscalar, hcompound, hconstant⟩ := isConstantTree_construct.mp hconstant
    obtain ⟨hne, htakes⟩ := hrule
    unfold value
    refine .bind (makes_values as [] hb nofun hparts hconstant) fun arguments b1 h1 ⟨htypes, harguments⟩ => ?_
    refine makes_construct h1.tabled hscalar hcompound ?_ ?_ harguments
    · rintro rfl
      exact hne (List.map_eq_nil_iff.mp htypes.symm)
    · rw [htypes]
      exact htakes
  | _ => cases hconstant
lemma makes_values {b : Builder} {d : Declared} (es : List Expr) (done : List (Nat × Ty))
    (hb : Tabled b) (hdone : ∀ a ∈ done, b.IsConstant a.2 a.1)
    (hes : ∀ e ∈ es, e.WellTyped d) (hconstant : areConstantTrees es = true) :
    Makes (values done es) s b fun arguments b' =>
      arguments.map (·.2) = done.reverse.map (·.2) ++ es.map Expr.ty ∧ ∀ a ∈ arguments, b'.IsConstant a.2 a.1 := by
  cases es with
  | nil =>
    unfold values
    exact .pure hb ⟨by simp, fun a ha => hdone a (List.mem_reverse.mp ha)⟩
  | cons e es =>
    rw [areConstantTrees, Bool.and_eq_true] at hconstant
    rw [List.forall_mem_cons] at hes
    unfold values
    refine .bind (makes_value e hb hes.1 hconstant.1) fun x b1 h1 hx => ?_
    have hdone : ∀ a ∈ (x, e.ty) :: done, b1.IsConstant a.2 a.1 :=
      List.forall_mem_cons.mpr ⟨hx, fun a ha => (hdone a ha).mono hb h1.keeps⟩
    refine .weaken (makes_values es _ h1.tabled hdone hes.2 hconstant.2)
      fun arguments b2 _ ⟨htypes, harguments⟩ => ⟨?_, harguments⟩
    rw [htypes, List.reverse_cons, List.map_append, List.append_assoc]
    rfl
end

end Build
end Shading.Spirv
