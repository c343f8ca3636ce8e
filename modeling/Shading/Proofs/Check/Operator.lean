import Shading.Proofs.Check.Conversion

/-! Operators give well-typed expressions, whether they are computed on the spot or left for the
program. -/
namespace Shading

variable {op : Operator}

namespace Literal

/-- A computed value has the kind of its operands after arithmetic and is a truth value
otherwise. -/
lemma isOf_binary {s t : Scalar} {l r v : Literal} (hl : l.isOf s.kind = true) (hr : r.isOf t.kind = true)
    (h : binary op s l r = .value v) : v.isOf (if op.isArithmetic then s.kind else .boolean) = true := by
  cases l <;> cases r <;> simp only [binary, reduceCtorEq] at h
  case bool.bool =>
    cases op <;> simp only [binaryBool, Folded.value.injEq, reduceCtorEq] at h <;> subst h <;> rfl
  case int.int =>
    have hkind : ∀ i : Int, isOf (.int i) s.kind = true := fun i => by revert hl; cases s.kind <;> simp [isOf]
    cases op <;> simp only [binaryInt, Folded.value.injEq, reduceCtorEq] at h
    case div | rem | shl | shr =>
      split at h <;> simp only [Folded.value.injEq, reduceCtorEq] at h
      subst h
      exact hkind _
    all_goals subst h
    all_goals first | exact hkind _ | rfl
  case float.float =>
    have hkind : ∀ x, isOf (.float x) s.kind = true := fun x => by revert hl; cases s.kind <;> simp [isOf]
    have hheld {x : Float} (h : held s x = .value v) : v.isOf s.kind = true := by
      unfold held at h
      split at h <;> simp only [Folded.value.injEq, reduceCtorEq] at h
      subst h
      exact hkind _
    cases op <;> simp only [binaryFloat, Folded.value.injEq, reduceCtorEq] at h
    case add | sub | mul => exact hheld h
    case div =>
      split at h
      · cases h
      · exact hheld h
    all_goals subst h
    all_goals rfl

lemma isOf_unary? {s : Scalar} {v w : Literal} (hv : v.isOf s.kind = true) (h : unary? op s v = some w) :
    w.isOf s.kind = true := by
  cases v <;> revert hv <;> cases s.kind <;> cases op <;>
    simp only [unary?, Option.some.injEq, reduceCtorEq, isOf, Bool.false_eq_true,
      false_implies] at h ⊢ <;> subst h <;> simp

end Literal

namespace Check

variable {o : View} {c : Context} {e : Expr}

lemma assignable_ensures : Ensures o c (assignable e) fun b _ => b = true := by
  refine .get_bind fun _ => ?_
  split
  · exact .report_bind
  · exact .pure rfl

variable {l r : Expr} {span : Span}

lemma foldBinary_ensures {result : Ty} (hl : l.Good o c.declared)
    (hr : r.Good o c.declared) (hop : op.isAssignment = false)
    (htypes : op.operands? l.ty r.ty = some ⟨l.ty, r.ty, result⟩) :
    Ensures o c (foldBinary op l r result span) fun folded d => ∀ e ∈ folded, e.Good o d := by
  unfold foldBinary
  split
  · rename_i v s _ w t _
    split
    · rename_i u hfold
      have hcomma : op ≠ .comma := by
        rintro rfl
        cases v <;> cases w <;> cases hfold
      have hresult := Operands.simple?_scalars (Operator.operands?_of_not_isAssignment hcomma hop _ _ ▸ htypes)
      refine .pure fun e he => ?_
      obtain rfl := Option.some.inj he
      rw [hresult]
      constructor
      · obtain ⟨s', hs, hv⟩ := hl.1.typed
        obtain ⟨t', ht, hw⟩ := hr.1.typed
        obtain rfl := Ty.scalar.inj hs
        have hu := Literal.isOf_binary hv hw hfold
        split
        · rw [if_pos ‹_›] at hu
          exact Expr.wellTyped_literal hu
        · rw [if_neg ‹_›] at hu
          exact Expr.wellTyped_literal hu
      · intro hfull
        obtain ⟨s', hs, hv⟩ := hl.2 hfull
        obtain ⟨t', -, hw⟩ := hr.2 hfull
        obtain rfl := Ty.scalar.inj hs
        refine ⟨_, ?_, Literal.fits_binary hv hw hfold⟩
        split <;> rfl
    · exact .pure (by simp)
    · exact .report_bind
  · exact .pure (by simp)

variable {d : Declared}

lemma good_adaptLiterals (hl : l.Good o d) (hr : r.Good o d) :
    (adaptLiterals op l r).1.Good o d ∧ (adaptLiterals op l r).2.Good o d := by
  have hadapt {e : Expr} (he : e.Good o d) (b : Bool) (ty : Ty) :
    (if b then e else (e.retype? ty).getD e).Good o d := by
    split
    · exact he
    · exact he.getD_retype?
  unfold adaptLiterals
  split
  · exact ⟨hl, hr⟩
  · exact ⟨hadapt hl _ _, hadapt hr _ _⟩

lemma good_binary {ty : Ty} (hl : l.Good o d)
    (hr : r.Good o d) (htypes : op.operands? l.ty r.ty = some ⟨l.ty, r.ty, ty⟩) :
    (Expr.binary op l r ty span).Good o d := by
  refine ⟨Expr.wellTyped_iff.mpr ⟨(Operator.isProper_operands? hl.1.proper hr.1.proper htypes).2.2,
    ⟨htypes, fun hop => ?_⟩, ?_⟩,
    fun hv => ⟨hl.2 hv, hr.2 hv⟩⟩
  · exact (Operator.operands?_of_isAssignment hop htypes).2.symm
  · simpa [Expr.parts] using ⟨hl.1, hr.1⟩

lemma binary_ensures (hl : l.Good o c.declared) (hr : r.Good o c.declared) :
    Ensures o c (binary l op r) fun e d => e.Good o d := by
  obtain ⟨hl', hr'⟩ : (adaptLiterals op l r).1.Good o c.declared ∧ (adaptLiterals op l r).2.Good o c.declared :=
    good_adaptLiterals hl hr
  unfold binary
  cases hop : op.isAssignment
  · simp only [hl.1.not_isPoisoned, hr.1.not_isPoisoned, Bool.or_false, Bool.false_eq_true, if_false]
    split
    · exact .report_bind
    rename_i types htypes
    obtain ⟨hleft, hright, -⟩ := Operator.isProper_operands? hl'.1.proper hr'.1.proper htypes
    have hagain := Operator.operands?_again htypes
    refine .bind (coerce_ensures hl' hleft) fun l' c1 hd1 _ hpost => ?_
    obtain ⟨hl1, hlty⟩ := hpost
    refine .bind (coerce_ensures (hr'.mono hd1) hright) fun r' c2 hd2 _ hpost => ?_
    obtain ⟨hr2, hrty⟩ := hpost
    have htypes' : op.operands? l'.ty r'.ty = some ⟨l'.ty, r'.ty, types.result⟩ := by rw [hlty, hrty]; exact hagain
    refine .bind (foldBinary_ensures (hl1.mono hd2) hr2 hop htypes') fun folded c3 hd3 _ hfolded => ?_
    cases folded with
    | some e => exact .pure (hfolded e rfl)
    | none => exact .pure (good_binary (hl1.mono (hd2.trans hd3)) (hr2.mono hd3) htypes')
  · simp only [hl.1.not_isPoisoned, hr.1.not_isPoisoned, Bool.or_false, Bool.false_eq_true, if_false, if_true]
    refine .bind_of (fun _ => by repeat' first | infer_instance | split) assignable_ensures fun b c1 hd1 _ hb => ?_
    simp only [hb, Bool.not_true, Bool.false_eq_true, if_false]
    split
    · exact .report_bind
    rename_i types htypes
    obtain ⟨-, hright, -⟩ := Operator.isProper_operands? hl'.1.proper hr'.1.proper htypes
    have hagain := Operator.operands?_again htypes
    obtain ⟨hleft, -⟩ := Operator.operands?_of_isAssignment hop htypes
    refine .bind (Q := fun l' _ => l' = (adaptLiterals op l r).1) (.pure rfl) fun l' c2 hd2 _ hl2 => ?_
    subst hl2
    refine .bind (coerce_ensures (hr'.mono (hd1.trans hd2)) hright) fun r' c3 hd3 _ hpost => ?_
    obtain ⟨hr3, hrty⟩ := hpost
    refine .bind (Q := fun folded _ => folded = none) (.pure rfl) fun folded c4 hd4 _ hfolded => ?_
    subst hfolded
    refine .pure (good_binary (hl'.mono (((hd1.trans hd2).trans hd3).trans hd4)) (hr3.mono hd4) ?_)
    rw [hrty, ← hleft]
    exact hagain

lemma good_foldUnary? {e' : Expr} (he : e.Good o d)
    (h : foldUnary? op e span = some e') : e'.Good o d := by
  unfold foldUnary? at h
  split at h
  · obtain ⟨w, hw, rfl⟩ := Option.map_eq_some_iff.mp h
    constructor
    · obtain ⟨s, hs, hv⟩ := he.1.typed
      obtain rfl := Ty.scalar.inj hs
      exact Expr.wellTyped_literal (Literal.isOf_unary? hv hw)
    · intro hfull
      obtain ⟨s, hs, hv⟩ := he.2 hfull
      obtain rfl := Ty.scalar.inj hs
      exact ⟨_, rfl, Literal.fits_unary? hv hw⟩
  · cases h

lemma good_unary (he : e.Good o d)
    (hop : takesUnary op e.ty = true) : ((foldUnary? op e span).getD (.unary op e e.ty span)).Good o d := by
  cases hfold : foldUnary? op e span with
  | some e' => exact good_foldUnary? he hfold
  | none => exact ⟨Expr.wellTyped_iff.mpr ⟨he.1.proper, ⟨rfl, hop⟩, by simpa [Expr.parts] using he.1⟩, he.2⟩

lemma unary_ensures (he : e.Good o c.declared) :
    Ensures o c (unary op e span) fun e d => e.Good o d := by
  unfold unary
  simp only [he.1.not_isPoisoned, Bool.false_eq_true, if_false]
  refine .ite (fun _ => .report_bind) fun hop => ?_
  have hop : takesUnary op e.ty = true := by simpa using hop
  refine .ite (fun _ => ?_) fun _ => .pure (good_unary he hop)
  refine .bind assignable_ensures fun b c1 hd1 _ hb => ?_
  simp only [hb, Bool.not_true, Bool.false_eq_true, if_false]
  exact .pure (good_unary (he.mono hd1) hop)

lemma step_ensures (hstep : op.isStep = true) (he : e.Good o c.declared) :
    Ensures o c (step op e span) fun e d => e.Good o d := by
  unfold step
  simp only [he.1.not_isPoisoned, Bool.false_eq_true, if_false]
  refine .ite (fun _ => .report_bind) fun hop => ?_
  refine .bind assignable_ensures fun b c1 hd1 _ hb => ?_
  simp only [hb, Bool.not_true, Bool.false_eq_true, if_false]
  refine .pure ⟨Expr.wellTyped_iff.mpr ⟨he.1.proper, ⟨hstep, rfl, by simpa using hop⟩, ?_⟩, he.2⟩
  simpa [Expr.parts] using (he.mono hd1).1

lemma good_adaptBranches {t f : Expr} (ht : t.Good o d) (hf : f.Good o d) :
    (adaptBranches t f).1.Good o d ∧ (adaptBranches t f).2.Good o d := by
  unfold adaptBranches
  split
  · exact ⟨ht, hf⟩
  split
  · rename_i hretype
    obtain ⟨_, -, hgood, -⟩ := Expr.retype?_eq_some (o := o) (d := d) hretype
    exact ⟨hgood, hf⟩
  · rename_i hretype
    obtain ⟨_, -, hgood, -⟩ := Expr.retype?_eq_some (o := o) (d := d) hretype
    exact ⟨ht, hgood⟩
  · exact ⟨ht, hf⟩

lemma keepsJournal_choice (e t f : Expr) (ty : Ty) (span : Span) : KeepsJournal (match e.constantBool? with
    | some true => pure t
    | some false => pure f
    | none => pure (.conditional e t f ty span) : Check Expr) := by
  split <;> infer_instance

lemma conditional_ensures {t f : Expr} (he : e.Good o c.declared) (ht : t.Good o c.declared)
    (hf : f.Good o c.declared) : Ensures o c (conditional e t f) fun e d => e.Good o d := by
  have hchoice := keepsJournal_choice
  unfold conditional
  refine .bind_of (fun _ => by repeat' first | infer_instance | split) (coerce_ensures he rfl)
    fun e' c1 hd1 _ hpost => ?_
  obtain ⟨he1, hety⟩ := hpost
  simp only [he1.1.not_isPoisoned, ht.1.not_isPoisoned, hf.1.not_isPoisoned, Bool.or_false,
    Bool.false_eq_true, if_false]
  obtain ⟨ht', hf'⟩ := good_adaptBranches ht hf
  split
  · exact .report_bind
  rename_i ty hty
  have hproper := Ty.isProper_common? ht'.1.proper hf'.1.proper hty
  refine .bind (coerce_ensures (ht'.mono hd1) hproper) fun t' c2 hd2 _ hpost => ?_
  obtain ⟨ht2, htty⟩ := hpost
  refine .bind (coerce_ensures (hf'.mono (hd1.trans hd2)) hproper) fun f' c3 hd3 _ hpost => ?_
  obtain ⟨hf3, hfty⟩ := hpost
  split
  · exact .pure (ht2.mono hd3)
  · exact .pure hf3
  · refine .pure ⟨Expr.wellTyped_iff.mpr ⟨hproper, ⟨hety, htty, hfty⟩, ?_⟩, fun hv =>
      ⟨he1.2 hv, ht2.2 hv, hf3.2 hv⟩⟩
    simpa [Expr.parts] using ⟨he1.1.mono (hd2.trans hd3), ht2.1.mono hd3, hf3.1⟩

end Check
end Shading
