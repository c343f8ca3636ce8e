import Shading.Proofs.Glsl.Lexemes
import Shading.Proofs.Typing.Known

/-! How expressions are written: casts that leave no trace, calls in other words, and the names of
an accepted program. -/
namespace Shading.Glsl

lemma expressions_eq {t : Target} {allowed : Precedence} {es : List Expr} :
    expressions t allowed es = es.map (expression t allowed) := by
  induction es with
  | nil => rfl
  | cons e es ih => rw [expressions, ih, List.map_cons]

variable {t : Target} {e : Expr} {allowed : Precedence}

/-! ### Constructors that are not written -/

lemma exists_of_isNeedless {kind : ConstructorKind} {as : List Expr} {ty : Ty}
    (h : isNeedless kind as ty = true) : ∃ a, as = [a] := by
  unfold isNeedless at h
  split at h
  · exact ⟨_, rfl⟩
  · exact ⟨_, rfl⟩
  · cases h

lemma expression_needless {kind : ConstructorKind} {a : Expr} {ty : Ty} {span : Span}
    (h : isNeedless kind [a] ty = true) :
    expression t allowed (.construct kind [a] ty span) = expression t allowed a := by
  rw [expression, if_pos h, expressions, expressions, List.flatten_singleton]

lemma fieldOf?_of_fields? {ty : Ty} {fields : List (Field Ty)} {i : Nat} {f : Field Ty}
    (hfields : ty.fields? = some fields)
    (hf : fields[i]? = some f) : fieldOf? ty i = some f := by
  cases ty with
  | struct id name fs block =>
    cases hfields
    exact hf
  | _ => cases hfields

/-! ### Calls in other words -/

lemma expansion?_cases {f : Nat} {as : List Expr} {expansion : Expansion}
    (h : expansion? t f as.length = some expansion) :
    (expansion = .saturate ∧ ∃ a, as = [a]) ∨ (expansion = .fma ∧ ∃ a b c, as = [a, b, c]) := by
  unfold expansion? at h
  split at h
  · split at h
    · exact .inl ⟨(Option.some.inj h).symm, List.length_eq_one_iff.mp ‹_›⟩
    · cases h
  · split at h
    · rename_i hcount
      simp only [Bool.and_eq_true, decide_eq_true_eq] at hcount
      exact .inr ⟨(Option.some.inj h).symm, List.length_eq_three.mp hcount.1⟩
    · cases h
  · cases h

/-! ### Names of an accepted program -/

lemma isName_leaf {o : Context} {ty : Ty} (hclean : o.journal.Clean) (hknown : ty.Known o) :
    IsName ty.leaf.glslName := by
  have hgeneric : ∀ s ∈ Scalar.all, IsName (Ty.generic s).glslName := by decide +kernel
  fun_induction Ty.leaf ty with
  | case1 e n ih => exact ih hknown
  | case2 ty hne =>
    cases ty with
    | array e n => exact (hne e n rfl).elim
    | void => decide +kernel
    | struct id name fields block => exact hknown.2.1 hclean
    | scalar s => exact isName_of_scalar? rfl
    | vector s n => exact isName_of_scalar? rfl
    | matrix s c r => exact isName_of_scalar? rfl
    | generic s => exact hgeneric s (by cases s <;> decide)
    | poison | invalid => exact absurd hclean hknown

lemma isName_functionName {p : Program} {o : Context} (hp : p.Regular o) (hs : p.Sound)
    (ht : t.program = p) {n : Nat} {f : Function}
    (hf : p.functions.get? n = some f) : IsName (t.functionName n) := by
  have hname : IsName f.name := by
    obtain hintrinsic | hregular := hp.function hs hf
    · obtain ⟨i, hi⟩ := exists_intrinsic hintrinsic
      exact hi ▸ isName_intrinsic i
    · exact hregular.name hp.clean
  have hat : t.program.functionAt n = f := by rw [ht, Program.functionAt, hf, Option.getD_some]
  unfold Target.functionName
  simp only [hat]
  split
  · exact hname
  · exact isName_numbered hname _

end Shading.Glsl
