import Shading.Proofs.Check.Ensures
import Shading.Proofs.Typing.Operands

/-! Conversions give well-typed expressions of the type they are asked for. -/
namespace Shading

variable {v : Literal} {s : Scalar} {o : View}

lemma Literal.Fits.isOf (h : v.Fits s) : v.isOf s.kind = true := by
  cases v <;> grind [Literal.Fits, Literal.isOf]

variable {e : Expr} {ty : Ty}

namespace Expr

variable {d : Declared}

lemma WellTyped.proper (h : e.WellTyped d) : e.ty.isProper = true := (wellTyped_iff.mp h).1

lemma WellTyped.typed (h : e.WellTyped d) : e.Typed d := (wellTyped_iff.mp h).2.1

lemma WellTyped.not_isPoisoned (h : e.WellTyped d) : e.isPoisoned = false := by
  have htype := Ty.isPoison_of_isProper h.proper
  have hrule := h.typed
  cases e <;> simp_all [isPoisoned, isPoison, Typed]

variable {span : Span}

lemma wellTyped_literal (h : v.isOf s.kind = true) :
    (Expr.literal v (.scalar s) span).WellTyped d :=
  wellTyped_iff.mpr ⟨rfl, ⟨s, rfl, h⟩, by simp [parts]⟩

lemma good_literal (h : v.Fits s) : (Expr.literal v (.scalar s) span).Good o d :=
  ⟨wellTyped_literal h.isOf, fun _ => ⟨s, rfl, h⟩⟩

lemma good_construct {kind : ConstructorKind} {as : List Expr} (hty : ty.isProper = true)
    (hne : as ≠ []) (hkind : kind.Takes (as.map Expr.ty) ty) (has : ∀ a ∈ as, a.Good o d)
    (hknown : o.isFull → kind = .struct ∨ kind = .array → ty.Known o.final) :
    (Expr.construct kind as ty span).Good o d :=
  ⟨wellTyped_iff.mpr ⟨hty, ⟨hne, hkind⟩, fun a ha => (has a ha).1⟩,
    fun hv => ⟨hknown hv, areRegular_iff.mpr fun a ha => (has a ha).2 hv⟩⟩

lemma wellTyped_withSpan : (e.withSpan span).WellTyped d ↔ e.WellTyped d := by
  rw [wellTyped_iff, wellTyped_iff, ty_withSpan]
  cases e <;> exact Iff.rfl

lemma Good.withSpan (h : e.Good o d) : (e.withSpan span).Good o d :=
  ⟨wellTyped_withSpan.mpr h.1, fun hv => regular_withSpan.mpr (h.2 hv)⟩

lemma retype?_eq_some {e' : Expr} (h : e.retype? ty = some e') :
    ∃ s, ty = .scalar s ∧ e'.Good o d ∧ e'.ty = ty := by
  unfold retype? at h
  split at h
  · rename_i v from_ span s
    simp only [Option.ite_none_left_eq_some, Option.map_eq_some_iff] at h
    obtain ⟨-, w, hw, rfl⟩ := h
    exact ⟨s, rfl, good_literal (Literal.fits_retype? hw), rfl⟩
  · cases h

lemma Good.getD_retype? (h : e.Good o d) : ((e.retype? ty).getD e).Good o d := by
  cases hr : e.retype? ty with
  | none => exact h
  | some e' =>
    obtain ⟨_, -, hgood, -⟩ := retype?_eq_some (o := o) (d := d) hr
    exact hgood

lemma WellTyped.literal? (h : e.WellTyped d) (hv : e.literal? = some v) :
    ∃ s, e.ty = .scalar s ∧ v.isOf s.kind = true := by
  cases e <;> simp only [Expr.literal?, reduceCtorEq, Option.some.injEq] at hv
  subst hv
  exact h.typed

end Expr

namespace Ty

lemma withComponent?_of_converts {a b : Ty} (ha : a.isProper = true) (hb : b.isProper = true) (hne : a ≠ b)
    (h : a.converts b = true) : ∃ s, b.scalar? = some s ∧ a.withComponent? (.scalar s) = some b := by
  have hplain : (plainCost? a b).isSome = true := by
    unfold converts cost? at h
    rw [if_neg hne] at h
    cases b <;> simp_all [isProper]
  simp only [plainCost?, if_neg hne, isPoison_of_isProper ha, isPoison_of_isProper hb] at hplain
  cases a <;> cases b <;> simp_all [isProper, scalar?, withComponent?, matrix?_eq]
  all_goals grind

end Ty

namespace Check

variable {c : Context}

lemma castLiteral_ensures {span : Span} :
    Ensures o c (castLiteral v (.scalar s) span) fun e d => e.Good o d ∧ e.ty = .scalar s := by
  unfold castLiteral
  simp only [Ty.scalar?]
  split
  · rename_i w hw
    exact .pure ⟨Expr.good_literal (Literal.fits_cast? hw), rfl⟩
  · exact .report_bind

lemma cast_ensures (he : e.Good o c.declared) (hs : ty.scalar? = some s)
    (hty : e.ty.withComponent? (.scalar s) = some ty) :
    Ensures o c (cast e ty) fun e' d => e'.Good o d ∧ e'.ty = ty := by
  have hproper := Ty.isProper_withComponent? hty
  have hcomponent := Ty.component_of_scalar? hs
  unfold cast
  refine .ite (fun h => ?_) fun h => ?_
  · simp only [he.1.not_isPoisoned, Bool.or_false, decide_eq_true_eq] at h
    exact .pure ⟨he, h⟩
  obtain ⟨t, hshape, rfl⟩ | ⟨t, n, hshape, rfl⟩ | ⟨t, cols, rows, hshape, hfloat, rfl⟩ :=
    Ty.withComponent?_cases hty
  · split
    · exact castLiteral_ensures
    · have hkind : ConstructorKind.scalarCast.Takes [e.ty] (.scalar s) := ⟨rfl, e.ty, rfl, by rw [hshape]; rfl⟩
      exact .pure ⟨Expr.good_construct hproper (by simp) hkind (by simpa using he) fun _ =>
        by simp [Ty.isScalar], rfl⟩
  all_goals
    split
    · rename_i hscalar
      cases hscalar
    · have hkind : ConstructorKind.compoundCast.Takes [e.ty] _ :=
        ⟨by simp [Ty.isVector, Ty.isMatrix], e.ty, rfl, hcomponent ▸ hty⟩
      exact .pure ⟨Expr.good_construct hproper (by simp) hkind (by simpa using he) fun _ =>
        by simp [Ty.isScalar], rfl⟩

lemma coerce_ensures (he : e.Good o c.declared) (hty : ty.isProper = true) :
    Ensures o c (coerce e ty) fun e' d => e'.Good o d ∧ e'.ty = ty := by
  unfold coerce
  refine .ite (fun h => ?_) fun h => ?_
  · simp only [he.1.not_isPoisoned, Ty.isPoison_of_isProper hty, Bool.or_false, decide_eq_true_eq] at h
    exact .pure ⟨he, h⟩
  split
  · rename_i e' hretype
    obtain ⟨s, rfl, hgood, hty'⟩ := Expr.retype?_eq_some (o := o) (d := c.declared) hretype
    exact .pure ⟨hgood, hty'⟩
  · refine .ite (fun hconverts => ?_) fun _ => .report_bind
    have hne : e.ty ≠ ty := by simp_all
    obtain ⟨s, hs, hcomponent⟩ := Ty.withComponent?_of_converts he.1.proper hty hne hconverts
    exact cast_ensures he hs hcomponent

/-- Expressions made one after the other, each of the type its origin asks for. -/
lemma Ensures.mapM_typed {α : Type} {f : α → Check Expr} (types : α → Ty) [∀ a, KeepsJournal (f a)] {as : List α}
    (h : ∀ a ∈ as, ∀ c', c.declared ≤ c'.declared → Ensures o c' (f a) fun e d => e.Good o d ∧ e.ty = types a) :
    Ensures o c (as.mapM f) fun es d => (∀ e ∈ es, e.Good o d) ∧ es.map Expr.ty = as.map types := by
  refine .weaken (.mapM (P := fun a e d => e.Good o d ∧ e.ty = types a)
    (fun hd he => he.imp_left (·.mono hd)) h) ?_
  intro es d _ hforall
  clear h
  induction hforall with
  | nil => exact ⟨by simp, rfl⟩
  | cons he _ ih => exact ⟨by simpa using ⟨he.1, ih.1⟩, by rw [List.map_cons, List.map_cons, he.2, ih.2]⟩

end Check
end Shading
