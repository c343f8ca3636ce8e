import Shading.Proofs.Check.Operator

/-! The types that an operator asks for fit its operands. Each operand converts to what is asked of
it, so a conversion that is made for an operator is never refused; and an operator whose sides can
be exchanged asks the same of them in both orders. -/
namespace Shading

lemma Scalar.rank_le_of_cost? {a b : Scalar} (h : (a.cost? b).isSome = true) : a.rank ≤ b.rank := by
  unfold cost? at h
  split at h
  · subst b
    exact Nat.le_refl _
  · split at h
    · rename_i hladder
      simp only [Bool.and_eq_true, decide_eq_true_eq] at hladder
      exact hladder.2
    · cases h

namespace Ty

variable {a b c : Ty} {s t : Scalar}

/-- Neither poison nor a generic type. -/
def isConcrete (ty : Ty) : Bool := !ty.isPoison && !ty.isGeneric

/-- The place of the components on the ladder of conversions; zero without components. -/
def rank (ty : Ty) : Nat := (ty.scalar?.map Scalar.rank).getD 0

lemma isPoison_of_isConcrete (h : a.isConcrete = true) : a.isPoison = false := by
  simp only [isConcrete, Bool.and_eq_true, Bool.not_eq_true'] at h
  exact h.1

lemma rank_eq (h : a.scalar? = some s) : a.rank = s.rank := by
  simp [rank, h]

/-! ### Conversions -/

lemma eq_of_dimensions (ha : a.scalar? = some s) (hb : b.scalar? = some s) (hscalar : a.isScalar = b.isScalar)
    (hrows : a.rows = b.rows) (hcolumns : a.columns = b.columns) : a = b := by
  have hdim {m n : Dim} (h : m.toNat = n.toNat) : m = n := by
    simpa using congrArg Dim.ofNat? h
  have hone (n : Dim) : 1 ≠ n.toNat := by cases n <;> decide
  cases a <;> cases b <;>
    simp only [scalar?, isScalar, rows, columns, Option.some.injEq, reduceCtorEq] at ha hb hscalar hrows hcolumns
  case scalar.scalar => rw [ha, hb]
  case vector.vector => rw [ha, hb, hdim hrows]
  case vector.matrix => exact absurd hcolumns (hone _)
  case matrix.vector => exact absurd hcolumns.symm (hone _)
  case matrix.matrix => rw [ha, hb, hdim hrows, hdim hcolumns]

/-- A type that converts to another one has its shape and stands no higher on the ladder. -/
lemma converts_cases (ha : a.isPoison = false) (hb : b.isConcrete = true) (h : a.converts b = true) :
    a = b ∨ ∃ s t, a.scalar? = some s ∧ b.scalar? = some t ∧ (s.cost? t).isSome = true ∧ SameShape a b := by
  simp only [isConcrete, Bool.and_eq_true, Bool.not_eq_true'] at hb
  by_cases heq : a = b
  · exact .inl heq
  · right
    have hplain : (plainCost? a b).isSome = true := by
      unfold converts cost? at h
      rw [if_neg heq] at h
      cases b with
      | generic u => cases hb.2
      | _ => exact h
    unfold plainCost? at hplain
    rw [if_neg heq, ha, hb.1, Bool.or_false, if_neg Bool.false_ne_true] at hplain
    split at hplain
    · exact ⟨_, _, rfl, rfl, hplain, rfl, rfl, rfl, rfl, rfl⟩
    · split at hplain
      · subst_vars
        exact ⟨_, _, rfl, rfl, hplain, rfl, rfl, rfl, rfl, rfl⟩
      · cases hplain
    · split at hplain
      · rename_i hsame
        obtain ⟨rfl, rfl⟩ := hsame
        exact ⟨_, _, rfl, rfl, hplain, rfl, rfl, rfl, rfl, rfl⟩
      · cases hplain
    · cases hplain

lemma converts_antisymm (ha : a.isConcrete = true) (hb : b.isConcrete = true) (hab : a.converts b = true)
    (hba : b.converts a = true) : a = b := by
  obtain heq | ⟨s, t, hs, ht, hcost, hscalar, -, -, hrows, hcolumns⟩ :=
    converts_cases (isPoison_of_isConcrete ha) hb hab
  · exact heq
  obtain heq | ⟨t', s', ht', hs', hcost', -⟩ := converts_cases (isPoison_of_isConcrete hb) ha hba
  · exact heq.symm
  obtain rfl : t = t' := Option.some.inj (ht.symm.trans ht')
  obtain rfl : s = s' := Option.some.inj (hs.symm.trans hs')
  obtain rfl : s = t := Scalar.rank_injective
    (Nat.le_antisymm (Scalar.rank_le_of_cost? hcost) (Scalar.rank_le_of_cost? hcost'))
  exact eq_of_dimensions hs ht hscalar hrows hcolumns

lemma common?_comm (ha : a.isConcrete = true) (hb : b.isConcrete = true) : a.common? b = b.common? a := by
  unfold common?
  by_cases hab : a.converts b = true
  · by_cases hba : b.converts a = true
    · rw [converts_antisymm ha hb hab hba]
    · rw [if_pos hab, if_neg hba, if_pos hab]
  · by_cases hba : b.converts a = true
    · rw [if_neg hab, if_pos hba, if_pos hba]
    · rw [if_neg hab, if_neg hba, if_neg hba, if_neg hab]

lemma converts_of_common? (h : a.common? b = some c) : a.converts c = true ∧ b.converts c = true := by
  unfold common? at h
  split at h
  · obtain rfl := Option.some.inj h
    exact ⟨‹_›, converts_self b⟩
  · split at h
    · obtain rfl := Option.some.inj h
      exact ⟨converts_self a, ‹_›⟩
    · cases h

lemma converts_scalar : (Ty.scalar s).converts (.scalar t) = (s.cost? t).isSome := by
  by_cases h : s = t
  · simp [h]
  · simp [converts, cost?, plainCost?, isPoison, h]

/-- A type converts to its shape over another component if its own component converts to that
one. -/
lemma converts_withComponent? (ha : a.scalar? = some s) (hs : (Ty.scalar s).converts (.scalar t) = true)
    (h : a.withComponent? (.scalar t) = some b) : a.converts b = true := by
  rw [converts_scalar] at hs
  by_cases heq : a = b
  · rw [heq]
    exact converts_self b
  · obtain ⟨_, rfl, rfl⟩ | ⟨_, n, rfl, rfl⟩ | ⟨_, m, n, rfl, -, rfl⟩ := withComponent?_cases h <;> cases ha
    · rw [converts_scalar]
      exact hs
    · simpa [converts, cost?, plainCost?, heq, isPoison] using hs
    · simpa [converts, cost?, plainCost?, heq, isPoison] using hs

end Ty

namespace Operands

variable {l r : Ty} {t : Operands} {s : Scalar} {op : Operator}

/-- The same types with the sides exchanged. -/
def swap (t : Operands) : Operands := ⟨t.right, t.left, t.result⟩

/-! ### Operands convert to the types that are asked for -/

lemma converts_arithmetic? (h : arithmetic? op l r = some t) : l.converts t.left = true ∧
    r.converts t.right = true := by
  obtain ⟨a, b, ha, hb, -, -, -, ⟨-, rfl⟩ | ⟨-, s, hs, ⟨hl, hr, -⟩, -⟩⟩ := arithmetic?_cases h
  · exact ⟨Ty.converts_self l, Ty.converts_self r⟩
  · obtain ⟨hleft, hright⟩ := Ty.converts_of_common? hs
    exact ⟨Ty.converts_withComponent? ha hleft hl, Ty.converts_withComponent? hb hright hr⟩

lemma converts_simple? (h : simple? op l r = some t) : l.converts t.left = true ∧ r.converts t.right = true := by
  cases op <;> simp only [simple?, reduceCtorEq] at h
  case logicalAnd | logicalOr | logicalXor =>
    simp only [logical?, Option.ite_none_right_eq_some, Option.some.injEq] at h
    obtain ⟨⟨rfl, rfl⟩, rfl⟩ := h
    exact ⟨Ty.converts_self _, Ty.converts_self _⟩
  case eq | ne =>
    obtain ⟨_, rfl, rfl⟩ | ⟨c, hc, -, rfl⟩ := equality?_cases h
    · exact ⟨Ty.converts_self l, Ty.converts_self l⟩
    · exact Ty.converts_of_common? hc
  case lt | gt | le | ge =>
    obtain ⟨c, -, -, hc, -, rfl⟩ := order?_cases h
    exact Ty.converts_of_common? hc
  all_goals exact converts_arithmetic? h

/-! ### Exchanging the sides -/

lemma componentwise?_comm : componentwise? (.scalar s) r l = (componentwise? (.scalar s) l r).map swap := by
  unfold componentwise? shaped?
  cases hl : l.withComponent? (.scalar s) with
  | none => cases r.withComponent? (.scalar s) <;> rfl
  | some l' =>
    cases hr : r.withComponent? (.scalar s) with
    | none => rfl
    | some r' =>
      obtain ⟨hl1, -, -, hl2, hl3⟩ := Ty.sameShape_withComponent? hl
      obtain ⟨hr1, -, -, hr2, hr3⟩ := Ty.sameShape_withComponent? hr
      have heq (hscalar : l.isScalar = r.isScalar) (hrows : l.rows = r.rows)
        (hcolumns : l.columns = r.columns) : l' = r' := by
        refine Ty.eq_of_dimensions (Ty.scalar?_withComponent? hl) (Ty.scalar?_withComponent? hr) ?_ ?_ ?_
        · rw [hl1, hr1, hscalar]
        · rw [hl2, hr2, hrows]
        · rw [hl3, hr3, hcolumns]
      have hone {ty : Ty} (h : ty.isScalar = true) : ty.rows = 1 ∧ ty.columns = 1 := by
        cases ty with
        | scalar => exact ⟨rfl, rfl⟩
        | _ => cases h
      simp only [Option.bind_eq_bind, Option.bind_some, Option.pure_def]
      cases hls : l.isScalar <;> cases hrs : r.isScalar
      · by_cases hdim : l.rows = r.rows ∧ l.columns = r.columns
        · have hdim' : r.rows = l.rows ∧ r.columns = l.columns := ⟨hdim.1.symm, hdim.2.symm⟩
          simp [if_pos hdim, if_pos hdim', swap, heq (hls.trans hrs.symm) hdim.1 hdim.2]
        · have hdim' : ¬ (r.rows = l.rows ∧ r.columns = l.columns) := fun h => hdim ⟨h.1.symm, h.2.symm⟩
          simp [if_neg hdim, if_neg hdim']
      · simp [swap]
      · simp [swap]
      · obtain ⟨hlrows, hlcolumns⟩ := hone hls
        obtain ⟨hrrows, hrcolumns⟩ := hone hrs
        simp [swap, heq (hls.trans hrs.symm) (hlrows.trans hrrows.symm) (hlcolumns.trans hrcolumns.symm)]

lemma arithmetic?_comm (hshift : ¬ (op = .shl ∨ op = .shr))
    (hmul : op = .mul → l.isMatrix = false ∧ r.isMatrix = false) :
    arithmetic? op r l = (arithmetic? op l r).map swap := by
  have hproduct {x y : Ty} (hmatrices : op = .mul → x.isMatrix = false ∧ y.isMatrix = false) :
      ¬ (op = .mul ∧ isProduct x y = true) := by
    rintro ⟨hop, h⟩
    simp [isProduct, hmatrices hop] at h
  unfold arithmetic?
  rw [Bool.and_comm r.isNumeric, Bool.and_comm r.isInteger]
  split
  · rfl
  rename_i hnumeric
  split
  · rfl
  simp only [Bool.not_eq_true', Bool.not_eq_false, Bool.and_eq_true] at hnumeric
  obtain ⟨a, ha, -⟩ := Ty.exists_scalar_of_isNumeric hnumeric.1
  obtain ⟨b, hb, -⟩ := Ty.exists_scalar_of_isNumeric hnumeric.2
  have hcomm : (Ty.scalar b).common? (.scalar a) = (Ty.scalar a).common? (.scalar b) := Ty.common?_comm rfl rfl
  rw [Ty.component_of_scalar? ha, Ty.component_of_scalar? hb, hcomm]
  simp only [if_neg (hproduct hmul), if_neg (hproduct fun hop => (hmul hop).symm)]
  cases hc : (Ty.scalar a).common? (.scalar b) with
  | none => rfl
  | some c =>
    obtain rfl | rfl := Ty.common?_eq_or hc <;> exact componentwise?_comm

/-- Arrays and structs are compared with their own type only, in both orders. -/
lemma equality?_of_ne (hl : l.isConcrete = true) (hr : r.isConcrete = true)
    (hcompound : (r.isArray || r.isStruct) = true)
    (hne : l ≠ r) : equality? l r = none := by
  have hscalar : r.scalar? = none := by cases r <;> first | rfl | cases hcompound
  have hcommon : l.common? r = none := by
    unfold Ty.common?
    rw [if_neg, if_neg]
    all_goals
      intro h
      obtain heq | ⟨s, t, hs, ht, -⟩ := Ty.converts_cases (Ty.isPoison_of_isConcrete ‹_›) ‹_› h <;> simp_all
  unfold equality?
  rw [if_neg hne, hcommon]
  split <;> rfl

lemma equality?_comm (hl : l.isConcrete = true) (hr : r.isConcrete = true) :
    equality? r l = (equality? l r).map swap := by
  by_cases heq : l = r
  · subst heq
    cases h : equality? l l with
    | none => rfl
    | some t =>
      obtain ⟨-, -, rfl⟩ | ⟨c, -, -, rfl⟩ := equality?_cases h <;> rfl
  by_cases hlc : (l.isArray || l.isStruct) = true
  · rw [equality?_of_ne hr hl hlc (Ne.symm heq)]
    simp [equality?, hlc, heq]
  by_cases hrc : (r.isArray || r.isStruct) = true
  · rw [equality?_of_ne hl hr hrc heq]
    simp [equality?, hrc, Ne.symm heq]
  unfold equality?
  rw [if_neg hlc, if_neg hrc, Ty.common?_comm hr hl]
  cases l.common? r with
  | none => rfl
  | some c =>
    simp only [Option.bind_eq_bind, Option.bind_some]
    split <;> rfl

end Operands

/-- The operators whose sides can be exchanged; products of matrices are not among them. -/
def Operator.isSymmetric : Operator → Bool
  | add | mul | eq | ne | bitAnd | bitOr | bitXor | logicalAnd | logicalOr | logicalXor => true
  | _ => false

namespace Operator

variable {op : Operator} {l r : Ty} {t : Operands}

lemma converts_operands? (h : op.operands? l r = some t) : l.converts t.left = true ∧
    r.converts t.right = true := by
  unfold operands? at h
  split at h
  · obtain rfl := Option.some.inj h
    exact ⟨Ty.converts_self l, Ty.converts_self r⟩
  split at h
  · simp only [Option.ite_none_right_eq_some, Option.some.injEq] at h
    obtain ⟨hconverts, rfl⟩ := h
    exact ⟨Ty.converts_self l, hconverts⟩
  split at h
  · obtain ⟨u, hu, h⟩ := Option.bind_eq_some_iff.mp h
    simp only [Option.ite_none_right_eq_some, Option.some.injEq] at h
    obtain ⟨-, rfl⟩ := h
    exact ⟨Ty.converts_self l, (Operands.converts_simple? hu).2⟩
  · exact Operands.converts_simple? h

lemma operands?_of_isSymmetric (h : op.isSymmetric = true) (l r : Ty) :
    op.operands? l r = Operands.simple? op l r := by
  refine operands?_of_not_isAssignment ?_ ?_ l r
  · rintro rfl
    cases h
  · cases op <;> first | rfl | cases h

lemma operands?_swap (hop : op.isSymmetric = true) (hl : l.isConcrete = true) (hr : r.isConcrete = true)
    (hmul : op = .mul → l.isMatrix = false ∧ r.isMatrix = false) :
    op.operands? r l = (op.operands? l r).map Operands.swap := by
  rw [operands?_of_isSymmetric hop, operands?_of_isSymmetric hop]
  have hlogical : Operands.logical? r l = (Operands.logical? l r).map Operands.swap := by
    unfold Operands.logical?
    by_cases h : l = .bool ∧ r = .bool
    · rw [if_pos h, if_pos h.symm]
      rfl
    · rw [if_neg h, if_neg (mt And.symm h)]
      rfl
  cases op <;> simp only [isSymmetric, Bool.false_eq_true] at hop <;> simp only [Operands.simple?]
  case logicalAnd | logicalOr | logicalXor => exact hlogical
  case eq | ne => exact Operands.equality?_comm hl hr
  all_goals exact Operands.arithmetic?_comm (by decide) hmul

/-- The result of arithmetic stands no lower on the ladder than an operand. -/
lemma rank_le_operands? (hop : op.isSymmetric = true) (harithmetic : op.isArithmetic = true)
    (h : op.operands? l r = some t) :
    l.rank ≤ t.result.rank ∧ r.rank ≤ t.result.rank := by
  rw [operands?_of_isSymmetric hop] at h
  have h : Operands.arithmetic? op l r = some t := by cases op <;> first | exact h | cases harithmetic
  obtain ⟨a, b, ha, hb, -, -, -, ⟨hshift, -⟩ | ⟨-, s, hs, ⟨-, -, hscalar, -⟩, -⟩⟩ := Operands.arithmetic?_cases h
  · obtain rfl | rfl := hshift <;> cases hop
  obtain ⟨hleft, hright⟩ := Ty.converts_of_common? hs
  rw [Ty.converts_scalar] at hleft hright
  rw [Ty.rank_eq ha, Ty.rank_eq hb, Ty.rank_eq hscalar]
  exact ⟨Scalar.rank_le_of_cost? hleft, Scalar.rank_le_of_cost? hright⟩

end Operator

/-! ### No conversion is refused -/

namespace Check

variable {α β : Type}

/-- The step does not report a value whose type does not convert. -/
def NeverRefuses (m : Check α) : Prop :=
  ∀ c : Context, ∃ found, (m c).2.journal = found ++ c.journal ∧
    ∀ r, .problemFound r ∈ found → ∀ expected actual, r.problem ≠ .typeMismatch expected actual

namespace NeverRefuses

variable {m : Check α} {f : α → Check β}

lemma pure (a : α) : NeverRefuses (pure a : Check α) := fun _ => ⟨[], rfl, by simp⟩

lemma bind (hm : NeverRefuses m) (hf : ∀ a, NeverRefuses (f a)) : NeverRefuses (m >>= f) := by
  intro c
  obtain ⟨found, hjournal, hfound⟩ := hm c
  obtain ⟨later, hjournal', hlater⟩ := hf (m c).1 (m c).2
  refine ⟨later ++ found, ?_, fun r hr => ?_⟩
  · rw [List.append_assoc, ← hjournal]
    exact hjournal'
  · exact (List.mem_append.mp hr).elim (hlater r) (hfound r)

lemma get_bind {f : Context → Check β} (hf : ∀ c, NeverRefuses (f c)) : NeverRefuses (get >>= f) :=
    fun c => hf c c

lemma report {p : Problem} {span : Span} (h : ∀ expected actual, p ≠ .typeMismatch expected actual) :
    NeverRefuses (report p span) := by
  refine fun c => ⟨[.problemFound ⟨p, span⟩], rfl, fun r hr => ?_⟩
  cases List.mem_singleton.mp hr
  exact h

lemma ite {p : Prop} [Decidable p] {n : Check α} (hm : p → NeverRefuses m) (hn : ¬ p → NeverRefuses n) :
    NeverRefuses (if p then m else n) := by
  split
  · exact hm ‹_›
  · exact hn ‹_›

end NeverRefuses

lemma castLiteral_neverRefuses {v : Literal} {target : Ty} {span : Span} :
    NeverRefuses (castLiteral v target span) := by
  unfold castLiteral
  split
  · exact .pure _
  · split
    · exact .pure _
    · exact .bind (.report (by simp)) fun _ => .pure _

lemma coerce_neverRefuses {e : Expr} {target : Ty}
    (h : e.ty.converts target = true ∨ (e.retype? target).isSome = true) :
    NeverRefuses (coerce e target) := by
  unfold coerce
  refine .ite (fun _ => .pure _) fun _ => ?_
  split
  · exact .pure _
  · rename_i hretype
    refine .ite (fun _ => ?_) fun hconverts => ?_
    · unfold cast
      refine .ite (fun _ => .pure _) fun _ => ?_
      split
      · exact castLiteral_neverRefuses
      · exact .pure _
    · simp [hretype, hconverts] at h

lemma obstacle_ne_typeMismatch {declared : Nat → Option Variable} {e : Expr} {r : Report}
    (h : e.obstacle? declared = some r)
    (expected actual : Ty) : r.problem ≠ .typeMismatch expected actual := by
  fun_induction Expr.obstacle? declared e with
  | case1 => cases h
  | case2 n ty span v hv =>
    obtain ⟨why, -, rfl⟩ := Option.map_eq_some_iff.mp h
    simp
  | case4 _ _ _ _ _ ih | case5 _ _ _ _ ih | case6 _ _ _ _ _ ih => exact ih h
  | _ =>
    cases h
    simp

lemma assignable_neverRefuses {e : Expr} : NeverRefuses (assignable e) := by
  refine .get_bind fun c => ?_
  split
  · exact .bind (.report (obstacle_ne_typeMismatch ‹_›)) fun _ => .pure _
  · exact .pure _

lemma foldBinary_neverRefuses {op : Operator} {l r : Expr} {ty : Ty} {span : Span} :
    NeverRefuses (foldBinary op l r ty span) := by
  unfold foldBinary
  split
  · split
    · exact .pure _
    · exact .pure _
    · exact .bind (.report (by simp)) fun _ => .pure _
  · exact .pure _

/-- The operands of an operator are converted without a mismatch, if the operator can stand between
them. -/
lemma binary_neverRefuses {l r : Expr} {op : Operator} : NeverRefuses (binary l op r) := by
  unfold binary
  refine .ite (fun _ => .pure _) fun _ => .ite
    (fun _ => .bind assignable_neverRefuses fun _ => .ite (fun _ => .pure _) fun _ => ?_)
    fun _ => ?_
  -- With or without an assignment, the types come from the operator and the operands convert to them.
  all_goals
    dsimp only
    split
    · exact .bind (.report (by simp)) fun _ => .pure _
    · rename_i types htypes
      obtain ⟨hl, hr⟩ := Operator.converts_operands? htypes
      refine .ite (fun _ => .bind (.pure _) fun l' => ?_) fun _ =>
        .bind (coerce_neverRefuses (.inl hl)) fun l' => ?_
      all_goals
        refine .bind (coerce_neverRefuses (.inl hr)) fun r' =>
          .ite (fun _ => .bind (.pure _) fun _ => .pure _) fun _ => ?_
        exact .bind foldBinary_neverRefuses fun _ => .pure _

end Check

/-- Operand types are coherent, whatever types a program declares. Operands convert to the types
that are asked for, so their conversion is never refused; an assignment leaves its left side as it
is; the types that are asked for are settled at once. Where the sides of an operator can be
exchanged, so can the types that it asks for, and the result of arithmetic stands no lower on the
ladder than its operands. -/
theorem Operator.operands_coherent (op : Operator) (left right : Ty)
    (hleft : left.isConcrete = true) (hright : right.isConcrete = true) :
    (∀ types, op.operands? left right = some types →
      (left.converts types.left = true ∧ right.converts types.right = true) ∧
      (op.isAssignment = true → types.left = left ∧ types.result = left) ∧
      op.operands? types.left types.right = some types) ∧
    (∀ l r : Expr, l.ty = left → r.ty = right → (Check.binary l op r).NeverRefuses) ∧
    (op.isSymmetric = true → (op = .mul → left.isMatrix = false ∧ right.isMatrix = false) →
      op.operands? right left = (op.operands? left right).map Operands.swap ∧
      (op.isArithmetic = true → ∀ types, op.operands? left right = some types →
        left.rank ≤ types.result.rank ∧ right.rank ≤ types.result.rank)) := by
  refine ⟨fun types h => ⟨converts_operands? h, fun hop => operands?_of_isAssignment hop h, operands?_again h⟩,
    fun l r _ _ => Check.binary_neverRefuses, fun hop hmul =>
      ⟨operands?_swap hop hleft hright hmul, fun harithmetic types h => ?_⟩⟩
  exact rank_le_operands? hop harithmetic h

/-- A number goes with every component of a vector, from either side. -/
theorem Operator.operands_coherent_broadcast :
    ((Ty.vector .int .three).isConcrete = true ∧ Ty.float.isConcrete = true) ∧
      Operator.add.operands? (.vector .int .three) .float =
      some ⟨.vector .float .three, .float, .vector .float .three⟩ ∧
      Operator.add.operands? .float (.vector .int .three) =
      some ⟨.float, .vector .float .three, .vector .float .three⟩ ∧
      (Ty.vector .int .three).converts (.vector .float .three) = true ∧
      (Ty.vector .int .three).rank ≤ (Ty.vector .float .three).rank := by
  obtain ⟨hsettled, -, hsymmetric⟩ := operands_coherent .add (.vector .int .three) .float rfl rfl
  obtain ⟨hswap, hrank⟩ := hsymmetric rfl nofun
  have htypes : Operator.add.operands? (.vector .int .three) .float =
    some ⟨.vector .float .three, .float, .vector .float .three⟩ := by
    decide
  rw [htypes] at hswap
  exact ⟨⟨rfl, rfl⟩, htypes, hswap, (hsettled _ htypes).1.1, (hrank rfl _ htypes).1⟩

end Shading
