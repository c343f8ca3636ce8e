import Shading.Proofs.Typing.Judgement

/-! Operand types settle at once: an operator asks nothing further of operands that already have the
types it asks for. So the types written into a node after its operands have been converted are the
ones the operator assigns to the converted operands. -/
namespace Shading

variable {s : Scalar}

namespace Ty

variable {ty : Ty}

lemma component_of_scalar? (h : ty.scalar? = some s) : ty.component = .scalar s := by
  cases ty <;> simp_all [scalar?, component]

lemma exists_scalar_of_isNumeric (h : ty.isNumeric = true) :
    ∃ s, ty.scalar? = some s ∧ s.isNumeric = true := by
  simpa [isNumeric, Option.any_eq_true] using h

lemma common?_eq_or {a b c : Ty} (h : a.common? b = some c) : c = a ∨ c = b := by
  unfold common? at h
  split at h
  · exact .inr (Option.some.inj h).symm
  · split at h
    · exact .inl (Option.some.inj h).symm
    · cases h

lemma isProper_common? {a b c : Ty} (ha : a.isProper = true) (hb : b.isProper = true) (h : a.common? b = some c) :
    c.isProper = true := by
  obtain rfl | rfl := common?_eq_or h <;> assumption

lemma matrix?_eq {c r : Dim} : matrix? (.scalar s) c.toNat r.toNat =
    if s.isFloat then some (.matrix s c r) else none := by
  simp [matrix?]

lemma vector?_eq {n : Dim} : vector? (.scalar s) n.toNat = some (.vector s n) := by
  cases n <;> rfl

/-- The same entries in the same arrangement. -/
def SameShape (a b : Ty) : Prop :=
  a.isScalar = b.isScalar ∧ a.isVector = b.isVector ∧ a.isMatrix = b.isMatrix ∧ a.rows = b.rows ∧
    a.columns = b.columns

variable {shape : Ty}

lemma withComponent?_cases (h : shape.withComponent? (.scalar s) = some ty) :
    (∃ t, shape = .scalar t ∧ ty = .scalar s) ∨ (∃ t n, shape = .vector t n ∧ ty = .vector s n) ∨
      ∃ t c r, shape = .matrix t c r ∧ s.isFloat = true ∧ ty = .matrix s c r := by
  cases shape with
  | scalar t => exact .inl ⟨t, rfl, (Option.some.inj h).symm⟩
  | vector t n => exact .inr (.inl ⟨t, n, rfl, (Option.some.inj h).symm⟩)
  | matrix t c r =>
    simp only [withComponent?, matrix?_eq, Option.ite_none_right_eq_some, Option.some.injEq] at h
    exact .inr (.inr ⟨t, c, r, rfl, h.1, h.2.symm⟩)
  | _ => cases h

lemma sameShape_withComponent? (h : shape.withComponent? (.scalar s) = some ty) :
    SameShape ty shape := by
  obtain ⟨t, rfl, rfl⟩ | ⟨t, n, rfl, rfl⟩ | ⟨t, c, r, rfl, -, rfl⟩ := withComponent?_cases h <;>
    exact ⟨rfl, rfl, rfl, rfl, rfl⟩

lemma scalar?_withComponent? (h : shape.withComponent? (.scalar s) = some ty) :
    ty.scalar? = some s := by
  obtain ⟨t, rfl, rfl⟩ | ⟨t, n, rfl, rfl⟩ | ⟨t, c, r, rfl, -, rfl⟩ := withComponent?_cases h <;> rfl

lemma withComponent?_again (h : shape.withComponent? (.scalar s) = some ty) :
    ty.withComponent? (.scalar s) = some ty := by
  obtain ⟨t, rfl, rfl⟩ | ⟨t, n, rfl, rfl⟩ | ⟨t, c, r, rfl, hs, rfl⟩ := withComponent?_cases h
  · rfl
  · rfl
  · simp [withComponent?, matrix?_eq, hs]

lemma isProper_withComponent? (h : shape.withComponent? (.scalar s) = some ty) :
    ty.isProper = true := by
  obtain ⟨t, rfl, rfl⟩ | ⟨t, n, rfl, rfl⟩ | ⟨t, c, r, rfl, hs, rfl⟩ :=
    withComponent?_cases h <;> simp_all [isProper]

end Ty

variable {l r : Ty} {t : Operands} {op : Operator}

namespace Operands

lemma shaped?_eq_some {result : Ty → Ty → Option Ty} :
    shaped? (.scalar s) l r result = some t ↔ l.withComponent? (.scalar s) = some t.left ∧
      r.withComponent? (.scalar s) = some t.right ∧ result t.left t.right = some t.result := by
  cases t
  simp only [shaped?, Option.bind_eq_bind, Option.bind_eq_some_iff, Option.pure_def, Option.some.injEq, mk.injEq]
  grind

/-- The types a product or a componentwise operator asks for have the common component and the
shapes of the operands, and the result has the common component too. -/
lemma shaped_of_arithmetic
    (h : product? (.scalar s) l r = some t ∨ componentwise? (.scalar s) l r = some t) :
    l.withComponent? (.scalar s) = some t.left ∧ r.withComponent? (.scalar s) = some t.right ∧
    t.result.scalar? = some s ∧
      t.result.isProper = true := by
  rcases h with h | h
  · unfold product? at h
    split at h
    all_goals first | cases h | (split at h <;> [skip; cases h])
    all_goals
      obtain ⟨hl, hr, hresult⟩ := shaped?_eq_some.mp h
      simp only [Ty.matrix?_eq, Ty.vector?_eq, Option.ite_none_right_eq_some, Option.some.injEq] at hresult
    · obtain ⟨hs, hresult⟩ := hresult
      exact ⟨hl, hr, by rw [← hresult]; rfl, by simpa [← hresult, Ty.isProper] using hs⟩
    all_goals exact ⟨hl, hr, by rw [← hresult]; rfl, by rw [← hresult]; rfl⟩
  · obtain ⟨hl, hr, hresult⟩ := shaped?_eq_some.mp h
    have hleft := And.intro (Ty.scalar?_withComponent? hl) (Ty.isProper_withComponent? hl)
    have hright := And.intro (Ty.scalar?_withComponent? hr) (Ty.isProper_withComponent? hr)
    refine ⟨hl, hr, ?_⟩
    split_ifs at hresult <;> simp only [Option.some.injEq] at hresult <;> rw [← hresult] <;> assumption

lemma product?_again (h : product? (.scalar s) l r = some t) :
    product? (.scalar s) t.left t.right = some t := by
  obtain ⟨hl, hr, -⟩ := shaped_of_arithmetic (.inl h)
  have hl' := Ty.withComponent?_again hl
  have hr' := Ty.withComponent?_again hr
  obtain ⟨_, rfl, h1⟩ | ⟨_, _, rfl, h1⟩ | ⟨_, _, _, rfl, -, h1⟩ := Ty.withComponent?_cases hl <;>
  obtain ⟨_, rfl, h2⟩ | ⟨_, _, rfl, h2⟩ | ⟨_, _, _, rfl, -, h2⟩ := Ty.withComponent?_cases hr <;>
  simp only [product?, Option.ite_none_right_eq_some, shaped?_eq_some, reduceCtorEq] at h <;>
  simp_all [product?, shaped?_eq_some]

lemma componentwise?_again (h : componentwise? (.scalar s) l r = some t) :
    componentwise? (.scalar s) t.left t.right = some t := by
  obtain ⟨hl, hr, hresult⟩ := shaped?_eq_some.mp h
  obtain ⟨hs, -, -, hrows, hcolumns⟩ := Ty.sameShape_withComponent? hl
  obtain ⟨hs', -, -, hrows', hcolumns'⟩ := Ty.sameShape_withComponent? hr
  refine shaped?_eq_some.mpr ⟨Ty.withComponent?_again hl, Ty.withComponent?_again hr, ?_⟩
  rw [hs, hs', hrows, hrows', hcolumns, hcolumns']
  exact hresult

lemma arithmetic?_cases (h : arithmetic? op l r = some t) :
    ∃ a b, l.scalar? = some a ∧ r.scalar? = some b ∧ a.isNumeric = true ∧ b.isNumeric = true ∧
      (integersOnly op = true → a.isInteger = true ∧ b.isInteger = true) ∧
      (((op = .shl ∨ op = .shr) ∧ t = ⟨l, r, l⟩) ∨
        (¬ (op = .shl ∨ op = .shr) ∧ ∃ s, (Ty.scalar a).common? (.scalar b) = some (.scalar s) ∧
          (l.withComponent? (.scalar s) = some t.left ∧
          r.withComponent? (.scalar s) = some t.right ∧ t.result.scalar? = some s ∧
            t.result.isProper = true) ∧
          (if op = .mul ∧ isProduct l r = true then product? (.scalar s) l r else componentwise?
          (.scalar s) l r) = some t)) := by
  unfold arithmetic? at h
  split at h
  · cases h
  rename_i hnumeric
  simp only [Bool.not_eq_true', Bool.not_eq_false, Bool.and_eq_true] at hnumeric
  obtain ⟨a, ha, ha'⟩ := Ty.exists_scalar_of_isNumeric hnumeric.1
  obtain ⟨b, hb, hb'⟩ := Ty.exists_scalar_of_isNumeric hnumeric.2
  split at h
  · cases h
  rename_i hinteger
  refine ⟨a, b, ha, hb, ha', hb', ?_, ?_⟩
  · simpa [Ty.isInteger, ha, hb] using hinteger
  split at h
  · simp only [shift?, Option.ite_none_right_eq_some, Option.some.injEq] at h
    exact .inl ⟨‹_›, h.2.symm⟩
  · rw [Ty.component_of_scalar? ha, Ty.component_of_scalar? hb] at h
    obtain ⟨component, hcommon, h⟩ := Option.bind_eq_some_iff.mp h
    obtain ⟨s, rfl⟩ : ∃ s, component = .scalar s := by
      obtain rfl | rfl := Ty.common?_eq_or hcommon <;> exact ⟨_, rfl⟩
    refine .inr ⟨‹_›, s, hcommon, shaped_of_arithmetic ?_, h⟩
    split at h
    · exact .inl h
    · exact .inr h

lemma isProduct_congr {l' r' : Ty} (hl : Ty.SameShape l' l) (hr : Ty.SameShape r' r) :
    isProduct l' r' = isProduct l r := by
  obtain ⟨-, hlv, hlm, -, -⟩ := hl
  obtain ⟨-, hrv, hrm, -, -⟩ := hr
  rw [isProduct, isProduct, hlv, hlm, hrv, hrm]

lemma arithmetic?_again (h : arithmetic? op l r = some t) :
    arithmetic? op t.left t.right = some t := by
  have horiginal := h
  obtain ⟨a, b, ha, hb, ha', hb', hinteger, ⟨hshift, rfl⟩ | ⟨hshift, s, hs, ⟨hleft, hright, -⟩,
    h⟩⟩ := arithmetic?_cases h
  · exact horiginal
  · have hl := Ty.scalar?_withComponent? hleft
    have hr := Ty.scalar?_withComponent? hright
    have hproduct := isProduct_congr (Ty.sameShape_withComponent? hleft) (Ty.sameShape_withComponent? hright)
    have hnumeric : s.isNumeric = true := by obtain ⟨⟨⟩⟩ | ⟨⟨⟩⟩ := Ty.common?_eq_or hs <;> assumption
    have hinteger' : integersOnly op = true → s.isInteger = true := by
      obtain ⟨⟨⟩⟩ | ⟨⟨⟩⟩ := Ty.common?_eq_or hs <;> grind
    have hagain : (if op = .mul ∧ isProduct t.left t.right = true then product? (.scalar s) t.left t.right
        else componentwise? (.scalar s) t.left t.right) = some t := by
      rw [hproduct]
      split at h
      · rw [if_pos ‹_›]; exact product?_again h
      · rw [if_neg ‹_›]; exact componentwise?_again h
    simp only [arithmetic?, Ty.isNumeric, Ty.isInteger, hl, hr, Option.any_some, hnumeric,
      Ty.component_of_scalar? hl,
      Ty.component_of_scalar? hr, Ty.common?_self, Option.bind_eq_bind, Option.bind_some, hagain, if_neg hshift]
    simpa using hinteger'

lemma isProper_arithmetic? (hl : l.isProper = true) (hr : r.isProper = true)
    (h : arithmetic? op l r = some t) :
    t.left.isProper = true ∧ t.right.isProper = true ∧ t.result.isProper = true := by
  obtain ⟨a, b, -, -, -, -, -, ⟨-, rfl⟩ | ⟨-, s, -, ⟨hleft, hright, -, hresult⟩, -⟩⟩ := arithmetic?_cases h
  · exact ⟨hl, hr, hl⟩
  · exact ⟨Ty.isProper_withComponent? hleft, Ty.isProper_withComponent? hright, hresult⟩

lemma eq_both_of_logical? (h : logical? l r = some t) : t = both .bool .bool := by
  simp only [logical?, Option.ite_none_right_eq_some, Option.some.injEq] at h
  exact h.2.symm

lemma equality?_cases (h : equality? l r = some t) :
    ((l.isArray || l.isStruct) = true ∧ l = r ∧ t = ⟨l, r, .bool⟩) ∨
      ∃ c, l.common? r = some c ∧ c.scalar?.isSome = true ∧ t = both c .bool := by
  unfold equality? at h
  split at h
  · simp only [Option.ite_none_right_eq_some, Option.some.injEq] at h
    exact .inl ⟨‹_›, h.1, h.2.symm⟩
  · obtain ⟨c, hc, h⟩ := Option.bind_eq_some_iff.mp h
    simp only [Option.ite_none_right_eq_some, Option.some.injEq] at h
    exact .inr ⟨c, hc, h.1, h.2.symm⟩

lemma order?_cases (h : order? l r = some t) :
    ∃ c, l.isScalar = true ∧ r.isScalar = true ∧ l.common? r = some c ∧ c.isNumeric = true ∧
    t = both c .bool := by
  simp only [order?, Option.ite_none_right_eq_some, Bool.and_eq_true] at h
  obtain ⟨c, hc, h'⟩ := Option.bind_eq_some_iff.mp h.2
  simp only [Option.ite_none_right_eq_some, Option.some.injEq] at h'
  exact ⟨c, h.1.1, h.1.2, hc, h'.1, h'.2.symm⟩

/-- Every operator without an assignment asks the same of the types it has asked for. -/
lemma simple?_again (h : simple? op l r = some t) :
    simple? op t.left t.right = some t := by
  have hlogical (h : logical? l r = some t) : logical? t.left t.right = some t := by
    rw [eq_both_of_logical? h]; rfl
  have hequality (h : equality? l r = some t) : equality? t.left t.right = some t := by
    obtain ⟨_, rfl, rfl⟩ | ⟨c, -, hc, rfl⟩ := equality?_cases h
    · exact h
    · cases c <;> simp_all [equality?, both, Ty.isArray, Ty.isStruct, Ty.scalar?]
  have horder (h : order? l r = some t) : order? t.left t.right = some t := by
    obtain ⟨c, hl, hr, hcommon, hc, rfl⟩ := order?_cases h
    have hscalar : c.isScalar = true := by obtain rfl | rfl := Ty.common?_eq_or hcommon <;> assumption
    simp [order?, both, hscalar, hc]
  cases op <;> simp only [simple?, reduceCtorEq] at h ⊢ <;>
    first | exact hlogical h | exact hequality h | exact horder h | exact arithmetic?_again h

lemma isProper_simple? (hl : l.isProper = true) (hr : r.isProper = true)
    (h : simple? op l r = some t) :
    t.left.isProper = true ∧ t.right.isProper = true ∧ t.result.isProper = true := by
  have hboth {c : Ty} (hc : l.common? r = some c) :
      (both c .bool).left.isProper = true ∧ (both c .bool).right.isProper = true ∧
        (both c .bool).result.isProper = true :=
    ⟨Ty.isProper_common? hl hr hc, Ty.isProper_common? hl hr hc, rfl⟩
  cases op <;> simp only [simple?, reduceCtorEq] at h
  case logicalAnd | logicalOr | logicalXor => rw [eq_both_of_logical? h]; exact ⟨rfl, rfl, rfl⟩
  case eq | ne =>
    obtain ⟨_, rfl, rfl⟩ | ⟨c, hc, -, rfl⟩ := equality?_cases h
    · exact ⟨hl, hr, rfl⟩
    · exact hboth hc
  case lt | gt | le | ge =>
    obtain ⟨c, -, -, hc, -, rfl⟩ := order?_cases h
    exact hboth hc
  all_goals exact isProper_arithmetic? hl hr h

/-- Between scalars that need no conversion, arithmetic keeps the type and everything else gives a
truth value. -/
lemma simple?_scalars {a b : Scalar} {result : Ty}
    (h : simple? op (.scalar a) (.scalar b) = some ⟨.scalar a, .scalar b, result⟩) :
    result = if op.isArithmetic then .scalar a else .bool := by
  have harithmetic (h : arithmetic? op (.scalar a) (.scalar b) =
    some ⟨.scalar a, .scalar b, result⟩) : result = .scalar a := by
    obtain ⟨_, _, -, -, -, -, -, ⟨-, h⟩ | ⟨-, s, -, -, h⟩⟩ := arithmetic?_cases h
    · exact congrArg Operands.result h
    · split at h
      · cases h
      · obtain ⟨hl, hr, hresult⟩ := shaped?_eq_some.mp h
        simp_all [Ty.withComponent?, Ty.isScalar]
  cases op <;> simp only [simple?, reduceCtorEq] at h
  case logicalAnd | logicalOr | logicalXor => exact congrArg Operands.result (eq_both_of_logical? h)
  case eq | ne =>
    obtain ⟨-, -, ht⟩ | ⟨c, -, -, ht⟩ := equality?_cases h <;> exact congrArg Operands.result ht
  case lt | gt | le | ge =>
    obtain ⟨c, -, -, -, -, ht⟩ := order?_cases h
    exact congrArg Operands.result ht
  all_goals exact harithmetic h

end Operands

namespace Operator

lemma operands?_again (h : op.operands? l r = some t) :
    op.operands? t.left t.right = some t := by
  unfold operands? at h
  split at h
  · obtain rfl := Option.some.inj h
    simp_all [operands?]
  split at h
  · simp only [Option.ite_none_right_eq_some, Option.some.injEq] at h
    obtain ⟨-, rfl⟩ := h
    simp_all [operands?, Operands.both]
  split at h
  · obtain ⟨u, hu, h⟩ := Option.bind_eq_some_iff.mp h
    simp only [Option.ite_none_right_eq_some, Option.some.injEq] at h
    obtain ⟨⟨rfl, hresult⟩, rfl⟩ := h
    have hagain := Operands.simple?_again hu
    simp_all [operands?]
  · have hagain := Operands.simple?_again h
    simp_all [operands?]

lemma isProper_operands? (hl : l.isProper = true) (hr : r.isProper = true)
    (h : op.operands? l r = some t) :
    t.left.isProper = true ∧ t.right.isProper = true ∧ t.result.isProper = true := by
  unfold operands? at h
  split at h
  · obtain rfl := Option.some.inj h
    exact ⟨hl, hr, hr⟩
  split at h
  · simp only [Option.ite_none_right_eq_some, Option.some.injEq] at h
    obtain ⟨-, rfl⟩ := h
    exact ⟨hl, hl, hl⟩
  split at h
  · obtain ⟨u, hu, h⟩ := Option.bind_eq_some_iff.mp h
    simp only [Option.ite_none_right_eq_some, Option.some.injEq] at h
    obtain ⟨-, rfl⟩ := h
    exact ⟨hl, (Operands.isProper_simple? hl hr hu).2.1, hl⟩
  · exact Operands.isProper_simple? hl hr h

/-- An assignment leaves its left side as it is, and its value has that type. -/
lemma operands?_of_isAssignment (hop : op.isAssignment = true)
    (h : op.operands? l r = some t) : t.left = l ∧ t.result = l := by
  unfold operands? at h
  split at h
  · subst op; cases hop
  split at h
  · simp only [Option.ite_none_right_eq_some, Option.some.injEq] at h
    obtain ⟨-, rfl⟩ := h
    exact ⟨rfl, rfl⟩
  · obtain ⟨u, -, h⟩ := Option.bind_eq_some_iff.mp h
    simp only [Option.ite_none_right_eq_some, Option.some.injEq] at h
    obtain ⟨-, rfl⟩ := h
    exact ⟨rfl, rfl⟩

lemma operands?_of_not_isAssignment (hcomma : op ≠ .comma) (hop : op.isAssignment = false) (l r : Ty) :
    op.operands? l r = Operands.simple? op l r := by
  have hassign : op ≠ .assign := by rintro rfl; cases hop
  simp [operands?, hcomma, hassign, hop]

end Operator
end Shading
