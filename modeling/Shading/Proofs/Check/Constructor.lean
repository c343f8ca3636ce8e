import Shading.Proofs.Check.Conversion

/-! A constructor gives a well-typed expression: what becomes of its arguments is what its kind
takes. -/
namespace Shading

variable {ty : Ty}

namespace Ty

lemma exists_component (h : ty.isVector = true ∨ ty.isMatrix = true) : ∃ s, ty.scalar? = some s := by
  obtain h | h := h <;> cases ty <;> simp_all [isVector, isMatrix, scalar?]

lemma slots_eq_rows (h : ty.isScalar = true ∨ ty.isVector = true) : ty.slots = ty.rows := by
  obtain h | h := h <;> cases ty <;> simp_all [isScalar, isVector, slots, rows]

lemma Dim.toNat_inj {a b : Dim} (h : a.toNat = b.toNat) : a = b := by
  cases a <;> cases b <;> first | rfl | cases h

lemma withComponent?_of_sameShape {a b : Ty} {s : Scalar} (hb : b.isProper = true) (hs : b.scalar? = some s)
    (hrows : a.rows = b.rows) (hcolumns : a.columns = b.columns)
    (hshape : (a.isVector = true ∧ b.isVector = true) ∨ (a.isMatrix = true ∧ b.isMatrix = true)) :
    a.withComponent? (.scalar s) = some b := by
  obtain ⟨ha, hb'⟩ | ⟨ha, hb'⟩ := hshape
  · cases a <;> cases b <;> simp_all [isVector, scalar?, rows, withComponent?]
    exact Dim.toNat_inj hrows
  · cases a <;> cases b <;> simp_all [isMatrix, scalar?, rows, columns, withComponent?, isProper, matrix?_eq]

end Ty

namespace Check

variable {o : View} {c : Context} {s : Scalar} {span : Span}

lemma castWhole_ensures {e : Expr} (he : e.Good o c.declared)
    (hs : ty.scalar? = some s) (hty : e.ty.withComponent? (.scalar s) = some ty) :
    Ensures o c (castWhole e ty span) fun e' d => e'.Good o d :=
  .bind (cast_ensures he hs hty) fun _ _ _ _ h => .pure h.1.withSpan

/-- A scalar or vector over a scalar type, as a compound takes its arguments. -/
def IsComponent (o : View) (d : Declared) (s : Scalar) (e : Expr) : Prop :=
  e.Good o d ∧ (e.ty.isScalar = true ∨ e.ty.isVector = true) ∧ e.ty.scalar? = some s

lemma IsComponent.mono {d d' : Declared} {e : Expr} (h : IsComponent o d s e) (hd : d ≤ d') :
    IsComponent o d' s e :=
  ⟨h.1.mono hd, h.2⟩

variable {es : List Expr}

/-- Components are cast one after the other, and their number is counted along. -/
lemma castComponents_ensures {done : List Expr} {count : Nat} (hs : ty.scalar? = some s)
    (hes : ∀ e ∈ es, e.Good o c.declared) (hdone : ∀ e ∈ done, IsComponent o c.declared s e)
    (hcount : (done.map (·.ty.slots)).sum = count) :
    Ensures o c (castComponents ty done count es) fun r d => ∃ es', r = some (es', (es'.map (·.ty.slots)).sum) ∧
      (∀ e ∈ es', IsComponent o d s e) ∧ es'.length = done.length + es.length := by
  induction es generalizing c done count with
  | nil =>
    unfold castComponents
    refine .pure ⟨done.reverse, ?_, by simpa using hdone, by simp⟩
    rw [List.map_reverse, List.sum_reverse, hcount]
  | cons e es ih =>
    rw [List.forall_mem_cons] at hes
    unfold castComponents
    refine .ite (fun _ => .report_bind) fun hshape => ?_
    simp only [Bool.not_eq_true', Bool.not_eq_false, Bool.or_eq_true] at hshape
    rw [Ty.component_of_scalar? hs]
    obtain ⟨target, htarget⟩ : ∃ target, e.ty.withComponent? (.scalar s) = some target := by
      obtain h | h := hshape <;> cases hty : e.ty <;> simp_all [Ty.isScalar, Ty.isVector, Ty.withComponent?]
    simp only [htarget]
    have hscalar := Ty.scalar?_withComponent? htarget
    obtain ⟨hisScalar, hisVector, -, -, -⟩ := Ty.sameShape_withComponent? htarget
    have htargetShape : target.isScalar = true ∨ target.isVector = true := by
      rw [hisScalar, hisVector]; exact hshape
    refine .bind (cast_ensures hes.1 hscalar htarget) fun e' c1 hd1 _ hpost => ?_
    obtain ⟨he', hty'⟩ := hpost
    have he'' : IsComponent o c1.declared s e' :=
      ⟨he', by rw [hty']; exact htargetShape, by rw [hty']; exact hscalar⟩
    have hdone' := List.forall_mem_cons.mpr ⟨he'', fun a ha => (hdone a ha).mono hd1⟩
    refine .weaken (ih (fun a ha => (hes.2 a ha).mono hd1) hdone' ?_) fun r d _ h => ?_
    · rw [List.map_cons, List.sum_cons, hcount, hty', Ty.slots_eq_rows htargetShape, Nat.add_comm]
    · obtain ⟨es', hr, hcomponents, hlength⟩ := h
      exact ⟨es', hr, hcomponents, by simp only [List.length_cons] at hlength ⊢; omega⟩

lemma compound_ensures (hproper : ty.isProper = true)
    (hty : ty.isVector = true ∨ ty.isMatrix = true) (hes : ∀ e ∈ es, e.Good o c.declared) (hne : es ≠ []) :
    Ensures o c (compound ty es span) fun e d => e.Good o d := by
  obtain ⟨s, hs⟩ := Ty.exists_component hty
  refine .bind_of (fun r => by split <;> infer_instance)
    (castComponents_ensures hs hes (by simp) rfl) fun r c1 hd1 _ hr => ?_
  obtain ⟨es', rfl, hes', hlength⟩ := hr
  refine .ite (fun hslots => ?_) fun _ => .report_bind
  have hcomponent := Ty.component_of_scalar? hs
  refine .pure (Expr.good_construct hproper ?_ ⟨hty, ?_, ?_⟩ (fun e he => (hes' e he).1) fun _ => by simp)
  · rintro rfl
    exact hne (List.length_eq_zero_iff.mp (by simpa using hlength.symm))
  · intro a ha
    obtain ⟨e, he, rfl⟩ := List.mem_map.mp ha
    exact ⟨(hes' e he).2.1, by rw [hcomponent, Ty.component_of_scalar? (hes' e he).2.2]⟩
  · rw [List.map_map]
    exact hslots

lemma fromSingle?_ensures {e : Expr} {m : Check Expr} (hproper : ty.isProper = true)
    (hty : ty.isVector = true ∨ ty.isMatrix = true) (he : e.Good o c.declared)
    (h : fromSingle? ty e span = some m) :
    Ensures o c m fun e d => e.Good o d := by
  obtain ⟨s, hs⟩ := Ty.exists_component hty
  have hcomponent := Ty.component_of_scalar? hs
  unfold fromSingle? at h
  dsimp only at h
  split at h
  · rename_i hscalar
    obtain rfl := Option.some.inj h
    have hcast : e.ty.withComponent? (.scalar s) = some (.scalar s) := by
      cases hety : e.ty <;> simp_all [Ty.isScalar, Ty.withComponent?]
    rw [hcomponent]
    refine .bind (cast_ensures he rfl hcast) fun e' c1 hd1 _ hpost => ?_
    obtain ⟨he', hty'⟩ := hpost
    refine .pure (Expr.good_construct hproper (by simp) ?_ (by simpa using he') fun _ => by split <;> simp)
    rw [List.map_singleton, hty', ← hcomponent]
    split
    · exact ⟨‹_›, rfl⟩
    · exact ⟨hty.resolve_right ‹_›, rfl⟩
  split at h
  · rename_i hmatrix
    rw [Bool.and_eq_true] at hmatrix
    split at h
    · rename_i hsame
      obtain rfl := Option.some.inj h
      exact castWhole_ensures he hs (Ty.withComponent?_of_sameShape hproper hs hsame.1 hsame.2 (.inr hmatrix.symm))
    · obtain rfl := Option.some.inj h
      have hfloat : s.isFloat = true := by
        cases ty <;> simp_all [Ty.isMatrix, Ty.scalar?, Ty.isProper]
      obtain ⟨target, htarget⟩ : ∃ target, e.ty.withComponent? (.scalar s) = some target := by
        cases hety : e.ty <;> simp_all [Ty.isMatrix, Ty.withComponent?, Ty.matrix?_eq]
      have hshape := Ty.sameShape_withComponent? htarget
      have hscalar := Ty.scalar?_withComponent? htarget
      rw [hcomponent]
      simp only [htarget]
      refine .bind (cast_ensures he hscalar htarget) fun e' c1 hd1 _ hpost => ?_
      obtain ⟨he', hty'⟩ := hpost
      refine .pure (Expr.good_construct hproper (by simp) ?_ (by simpa using he') fun _ => by simp)
      rw [List.map_singleton, hty']
      exact ⟨hmatrix.1, target, rfl,
        by rw [hshape.2.2.1]; exact hmatrix.2, by rw [hcomponent, Ty.component_of_scalar? hscalar]⟩
  split at h
  · rename_i hvector
    simp only [Bool.and_eq_true, decide_eq_true_eq] at hvector
    obtain ⟨⟨hvec, hvec'⟩, hsame⟩ := hvector
    obtain rfl := Option.some.inj h
    exact castWhole_ensures he hs (Ty.withComponent?_of_sameShape hproper hs hsame.1 hsame.2 (.inl ⟨hvec', hvec⟩))
  · cases h

lemma vectorOrMatrix_ensures (hproper : ty.isProper = true)
    (hty : ty.isVector = true ∨ ty.isMatrix = true) (hes : ∀ e ∈ es, e.Good o c.declared) (hne : es ≠ []) :
    Ensures o c (vectorOrMatrix ty es span) fun e d => e.Good o d := by
  have hcompound : Ensures o c (compound ty es span) fun e d => e.Good o d := compound_ensures hproper hty hes hne
  unfold vectorOrMatrix
  split
  · rename_i e
    cases h : fromSingle? ty e span with
    | none => exact hcompound
    | some m => exact fromSingle?_ensures hproper hty (hes e (by simp)) h
  · exact hcompound

lemma arrayOf_ensures {element : Ty} {size : Option Nat} :
    Ensures o c (arrayOf element size) fun ty _ => ty = .array element size :=
  .bind (Q := fun _ _ => True) (.modify (fun h => ⟨⟨h.variable_, h.base, h.items, h.scopes⟩, fun hv =>
    ⟨(h.regular hv).variable_, (h.regular hv).function, (h.regular hv).scopes⟩⟩) le_rfl trivial)
      fun _ _ _ _ _ => .pure rfl

lemma badArguments_ensures {fault : ArgumentFault} {Q : Expr → Declared → Prop} :
    Ensures o c (badArguments ty fault span) Q := .report_bind

lemma arrayConstructor_ensures {element : Ty} {size : Option Nat}
    (hty : element.Good o) (hes : ∀ e ∈ es, e.Good o c.declared) (hne : es ≠ []) :
    Ensures o c (arrayConstructor element size es span) fun e d => e.Good o d := by
  have hmake : Ensures o c (do
      let ty ← arrayOf element (some es.length)
      return Expr.construct .array (← es.mapM (coerce · element)) ty span) fun e d => e.Good o d := by
    refine .bind arrayOf_ensures fun ty c1 hd1 _ harray => ?_
    subst harray
    refine .bind (.mapM_typed (fun _ => element) fun e he c' hd =>
      coerce_ensures ((hes e he).mono (hd1.trans hd)) hty.1)
      fun es' c2 hd2 _ ⟨hes', htypes⟩ => ?_
    have hlength : es'.length = es.length := by simpa using congrArg List.length htypes
    refine .pure (Expr.good_construct hty.1 ?_ ⟨element, by simp [hlength], ?_⟩ hes' fun hv _ => hty.2 hv)
    · rintro rfl
      exact hne (List.length_eq_zero_iff.mp hlength.symm)
    · rw [htypes]
      simp
  unfold arrayConstructor
  split
  · exact .ite (fun _ => badArguments_ensures) fun _ => hmake
  · exact hmake

lemma structConstructor_ensures {id : Nat} {name : String} {fields : List (Field Ty)}
    (hty : (Ty.struct id name fields false).Good o) (hes : ∀ e ∈ es, e.Good o c.declared) (hne : es ≠ []) :
    Ensures o c (structConstructor (.struct id name fields false) fields es span) fun e d => e.Good o d := by
  unfold structConstructor
  refine .ite (fun _ => badArguments_ensures) fun hlength => ?_
  rw [ne_eq, not_not] at hlength
  have hzip : (es.zip fields).map (fun x => x.2.ty) = fields.map (·.ty) := by
    change List.map (Field.ty ∘ Prod.snd) _ = _
    rw [← List.map_map, List.map_snd_zip (by omega)]
  have hfields := Ty.areProper_iff.mp hty.1
  refine .bind (.mapM_typed (fun x => x.2.ty) ?_) fun es' c1 hd1 _ ⟨hes', htypes⟩ => ?_
  · rintro ⟨e, f⟩ hmem c' hd
    exact coerce_ensures ((hes e (List.of_mem_zip hmem).1).mono hd) (hfields f (List.of_mem_zip hmem).2)
  · refine .pure (Expr.good_construct hty.1 ?_ ⟨id, name, fields, rfl, by rw [htypes, hzip]⟩ hes'
      fun hv _ => hty.2 hv)
    rintro rfl
    rw [hzip, eq_comm, List.map_nil, List.map_eq_nil_iff] at htypes
    exact hne (List.length_eq_zero_iff.mp (by simpa [htypes] using hlength.symm))

lemma scalarConstructor_ensures (hes : ∀ e ∈ es, e.Good o c.declared) :
    Ensures o c (scalarConstructor (.scalar s) es span) fun e d => e.Good o d := by
  unfold scalarConstructor
  split
  · rename_i e
    refine .ite (fun hscalar => ?_) fun _ => badArguments_ensures
    refine castWhole_ensures (hes e (by simp)) rfl ?_
    cases hety : e.ty <;> simp_all [Ty.isScalar, Ty.withComponent?]
  · exact badArguments_ensures

lemma constructor_ensures (hty : ty.Good o)
    (hes : ∀ e ∈ es, e.Good o c.declared) : Ensures o c (constructor ty es span) fun e d => e.Good o d := by
  unfold constructor
  have hpoison : es.any Expr.isPoisoned = false := by
    rw [List.any_eq_false]
    exact fun e he => by simp [(hes e he).1.not_isPoisoned]
  simp only [hpoison, Bool.false_eq_true, if_false]
  refine .ite (fun _ => badArguments_ensures) fun hempty => ?_
  have hne : es ≠ [] := by simpa using hempty
  split
  · exact arrayConstructor_ensures ⟨by simpa [Ty.isProper] using hty.1, hty.2⟩ hes hne
  · exact structConstructor_ensures hty hes hne
  · exact scalarConstructor_ensures hes
  · exact vectorOrMatrix_ensures hty.1 (.inl rfl) hes hne
  · exact vectorOrMatrix_ensures hty.1 (.inr rfl) hes hne
  · exact .report_bind

end Check
end Shading
