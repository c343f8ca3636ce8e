import Shading.Proofs.Grammar.Source
import Shading.Proofs.Memory.Alignment

/-! The structs in the types of expressions are the ones in the tables of the program, so their
names and the names of their fields are known. -/
namespace Shading

namespace Operands

lemma scalar?_arithmetic? {op : Operator} {l r : Ty} {t : Operands} (h : arithmetic? op l r = some t) :
    ∃ s, t.result.scalar? = some s := by
  obtain ⟨a, b, ha, -, -, -, -, ⟨-, rfl⟩ | ⟨-, s, -, ⟨-, -, hs, -⟩, -⟩⟩ := arithmetic?_cases h
  · exact ⟨a, ha⟩
  · exact ⟨s, hs⟩

lemma scalar?_simple? {op : Operator} {l r : Ty} {t : Operands} (h : simple? op l r = some t) : ∃ s,
    t.result.scalar? = some s := by
  cases op <;> simp only [simple?, reduceCtorEq] at h
  case logicalAnd | logicalOr | logicalXor => rw [eq_both_of_logical? h]; exact ⟨_, rfl⟩
  case eq | ne => obtain ⟨_, rfl, rfl⟩ | ⟨c, hc, -, rfl⟩ := equality?_cases h <;> exact ⟨_, rfl⟩
  case lt | gt | le | ge => obtain ⟨c, -, -, hc, -, rfl⟩ := order?_cases h; exact ⟨_, rfl⟩
  all_goals exact scalar?_arithmetic? h

end Operands

lemma Operator.result_operands? {op : Operator} {l r : Ty} {t : Operands} (h : op.operands? l r = some t) :
    t.result = l ∨ t.result = r ∨ ∃ s, t.result.scalar? = some s := by
  by_cases hcomma : op = .comma
  · subst hcomma
    cases h
    exact .inr (.inl rfl)
  cases hop : op.isAssignment with
  | true => exact .inl (operands?_of_isAssignment hop h).2
  | false =>
    rw [operands?_of_not_isAssignment hcomma hop] at h
    exact .inr (.inr (Operands.scalar?_simple? h))

namespace Ty

variable {o : Context} {ty : Ty}

lemma known_of_scalar? {s : Scalar} (h : ty.scalar? = some s) : ty.Known o := by
  cases ty with
  | scalar | vector | matrix => trivial
  | _ => cases h

lemma Known.elements? (h : ty.Known o) {e : Ty} {count : Option Nat}
    (he : Check.elements? ty = some (e, count)) : e.Known o := by
  cases ty <;> cases he
  · trivial
  · trivial
  · exact h

lemma Known.leaf (h : ty.Known o) : ty.leaf.Known o := by
  fun_induction Ty.leaf ty with
  | case1 e n ih => exact ih h
  | case2 ty hne => exact h

lemma Known.field (h : ty.Known o) {fields : List (Field Ty)} (hfields : ty.fields? = some fields)
    {i : Nat} {f : Field Ty}
    (hf : fields[i]? = some f) : o.Names f.name ∧ f.ty.Known o ∧ f.modifiers.layout.FitsWords := by
  cases ty <;> cases hfields
  exact h.fields f (List.mem_of_getElem? hf)

lemma Known.part (h : ty.Known o) {u : Ty} (hu : u ∈ ty.parts) : u.Known o := by
  cases ty with
  | array e n =>
    obtain rfl := List.mem_singleton.mp hu
    exact h
  | struct id name fields block =>
    obtain ⟨f, hf, rfl⟩ := List.mem_map.mp hu
    exact (h.fields f hf).2.1
  | _ => cases hu

lemma Known.nested (h : ty.Known o) {u : Ty} (hu : u ∈ ty.nested) : u.Known o := by
  induction ty using of_parts with
  | _ ty ih =>
    obtain rfl | ⟨x, hx, hu⟩ := mem_nested.mp hu
    · exact h
    · exact ih x hx (h.part hx) hu

lemma bindGeneric_cases {choice : Nat} {result : Ty} (h : Overload.bindGeneric choice ty = some result) :
    (ty.isGeneric = false ∧ result = ty) ∨ ∃ s, result.scalar? = some s := by
  have hchoices (s : Scalar) : ∀ ty ∈ choices s, ty.scalar? = some s := by
    simp [choices, Dim.all, scalar?]
  cases ty with
  | generic s => exact .inr ⟨s, hchoices s _ (List.mem_of_getElem? h)⟩
  | _ => exact .inl ⟨rfl, (Option.some.inj h).symm⟩

lemma known_vector? {s : Scalar} {n : Nat} (h : vector? (.scalar s) n = some ty) : ty.Known o := by
  unfold vector? at h
  split at h
  · cases h
    trivial
  split at h
  · cases h
    trivial
  · cases h

end Ty

namespace Expr

mutual
/-- Induction over a tree: what holds of a node if it holds of the expressions right below it holds
of all. -/
lemma of_parts {P : Expr → Prop} (h : ∀ e, (∀ x ∈ e.parts, P x) → P e) (e : Expr) : P e := by
  refine h e ?_
  cases e with
  | literal v ty span => exact List.forall_mem_nil _
  | variable_ n ty span => exact List.forall_mem_nil _
  | poison ty span => exact List.forall_mem_nil _
  | unary op a ty span => exact List.forall_mem_singleton.mpr (of_parts h a)
  | step op a ty span => exact List.forall_mem_singleton.mpr (of_parts h a)
  | field a i b ty span => exact List.forall_mem_singleton.mpr (of_parts h a)
  | swizzle a cs ty span => exact List.forall_mem_singleton.mpr (of_parts h a)
  | binary op a b ty span =>
    exact List.forall_mem_cons.mpr ⟨of_parts h a, List.forall_mem_singleton.mpr (of_parts h b)⟩
  | index a b ty span =>
    exact List.forall_mem_cons.mpr ⟨of_parts h a, List.forall_mem_singleton.mpr (of_parts h b)⟩
  | conditional a b c ty span =>
    exact List.forall_mem_cons.mpr ⟨of_parts h a,
      List.forall_mem_cons.mpr ⟨of_parts h b, List.forall_mem_singleton.mpr (of_parts h c)⟩⟩
  | construct kind as ty span => exact all_of_parts h as
  | call f as ty span => exact all_of_parts h as
lemma all_of_parts {P : Expr → Prop} (h : ∀ e, (∀ x ∈ e.parts, P x) → P e) (es : List Expr) : ∀ x ∈ es, P x := by
  cases es with
  | nil => exact List.forall_mem_nil _
  | cons e es => exact List.forall_mem_cons.mpr ⟨of_parts h e, all_of_parts h es⟩
end

/-- A variable, which has no name if it stands for a block without one. -/
def isVariable : Expr → Bool
  | .variable_ .. => true
  | _ => false

variable {o : Context} {e x : Expr}

lemma Regular.part (h : e.Regular o) (hx : x ∈ e.parts) : x.Regular o ∨ x.isVariable = true := by
  cases e with
  | literal | variable_ | poison => cases hx
  | unary | step | swizzle =>
    obtain rfl := List.mem_singleton.mp hx
    exact .inl h
  | field b i anonymous ty span =>
    obtain rfl := List.mem_singleton.mp hx
    obtain ⟨-, n, ty, span, rfl⟩ | h := h
    · exact .inr rfl
    · exact .inl h
  | binary op l r ty span =>
    obtain ⟨hl, hr⟩ := h
    simp only [parts, List.mem_cons, List.not_mem_nil, or_false] at hx
    obtain rfl | rfl := hx
    · exact .inl hl
    · exact .inl hr
  | index b i ty span =>
    obtain ⟨hb, hi⟩ := h
    simp only [parts, List.mem_cons, List.not_mem_nil, or_false] at hx
    obtain rfl | rfl := hx
    · exact .inl hb
    · exact .inl hi
  | conditional c t f ty span =>
    obtain ⟨hc, ht, hf⟩ := h
    simp only [parts, List.mem_cons, List.not_mem_nil, or_false] at hx
    obtain rfl | rfl | rfl := hx
    · exact .inl hc
    · exact .inl ht
    · exact .inl hf
  | construct kind as ty span => exact .inl (areRegular_iff.mp h.2 x hx)
  | call f as ty span => exact .inl (areRegular_iff.mp h x hx)

lemma Regular.node (h : e.Regular o) (hx : x ∈ e.nodes) : x.Regular o ∨ x.isVariable = true := by
  induction e using of_parts with
  | _ e ih =>
  obtain rfl | ⟨p, hp, hx⟩ := mem_nodes.mp hx
  · exact .inl h
  obtain h | h := h.part hp
  · exact ih p hp h hx
  · cases p with
    | variable_ n ty span =>
      rw [List.mem_singleton.mp hx]
      exact .inr rfl
    | _ => cases h

lemma mem_nodes_trans {r : Expr} (hx : x ∈ e.nodes) (he : e ∈ r.nodes) : x ∈ r.nodes := by
  induction r using of_parts with
  | _ r ih =>
  obtain rfl | ⟨p, hp, he⟩ := mem_nodes.mp he
  · exact hx
  · exact mem_nodes.mpr (.inr ⟨p, hp, ih p hp he⟩)

end Expr

namespace Program

variable {p : Program} {o : Context} {e : Expr}

lemma Regular.function (hp : p.Regular o) (hs : p.Sound) {n : Nat} {f : Function}
    (hf : p.functions.get? n = some f) :
    f ∈ Intrinsic.signatures ∨ f.Regular o := by
  unfold Arena.get? at hf
  split at hf
  · rw [hs.base] at hf
    exact .inl (List.mem_toArray.mp (Array.mem_of_getElem? hf))
  · rw [hp.functions] at hf
    exact .inr (hp.context.function hf)

lemma scalar?_of_intrinsic {f : Function} (hf : f ∈ Intrinsic.signatures) {choice : Nat} {ty : Ty}
    (hty : Overload.bindGeneric choice f.returns = some ty) : ∃ s, ty.scalar? = some s := by
  have hall : ∀ f ∈ Intrinsic.signatures, f.returns.isGeneric = true ∨
    f.returns.scalar?.isSome = true := by decide +kernel
  obtain ⟨hgeneric, rfl⟩ | hs := Ty.bindGeneric_cases hty
  · obtain hreturns | hreturns := hall f hf
    · rw [hgeneric] at hreturns
      cases hreturns
    · exact Option.isSome_iff_exists.mp hreturns
  · exact hs

lemma Regular.known_ty (hp : p.Regular o) (hs : p.Sound) (hw : e.WellTyped p.declared)
    (hr : e.Regular o ∨ e.isVariable = true) :
    e.ty.Known o := by
  induction e using Expr.of_parts with
  | _ e ih =>
  obtain ⟨-, hrule, hparts⟩ := Expr.wellTyped_iff.mp hw
  cases hvariable : e.isVariable with
  | true =>
    cases e with
    | variable_ n ty span =>
      obtain ⟨v, hv, rfl⟩ := hrule
      change p.variables[n]? = some v at hv
      rw [hp.variables] at hv
      exact (hp.context.variable_ hv).known
    | _ => cases hvariable
  | false =>
  obtain hr | hr := hr
  case inr => rw [hvariable] at hr; cases hr
  replace ih : ∀ x ∈ e.parts, x.ty.Known o := fun x hx => ih x hx (hparts x hx) (hr.part hx)
  cases e with
  | variable_ => cases hvariable
  | poison => cases hrule
  | literal v ty span =>
    obtain ⟨s, rfl, -⟩ := hrule
    trivial
  | unary op a ty span =>
    obtain ⟨rfl, -⟩ := hrule
    exact ih a List.mem_cons_self
  | step op a ty span =>
    obtain ⟨-, rfl, -⟩ := hrule
    exact ih a List.mem_cons_self
  | binary op l r ty span =>
    obtain hty | hty | ⟨s, hty⟩ := Operator.result_operands? hrule.1
    · change ty = l.ty at hty
      exact hty ▸ ih l List.mem_cons_self
    · change ty = r.ty at hty
      exact hty ▸ ih r (List.mem_cons_of_mem _ List.mem_cons_self)
    · exact Ty.known_of_scalar? hty
  | conditional c t f ty span =>
    obtain ⟨-, rfl, -⟩ := hrule
    exact ih t (List.mem_cons_of_mem _ List.mem_cons_self)
  | index b i ty span =>
    obtain ⟨-, -, count, helements, -⟩ := hrule
    exact (ih b List.mem_cons_self).elements? helements
  | field b i anonymous ty span =>
    obtain ⟨fields, f, hfields, hf, rfl⟩ := hrule
    exact ((ih b List.mem_cons_self).field hfields hf).2.1
  | swizzle b cs ty span =>
    obtain ⟨hb, -, -, -, hty⟩ := hrule
    cases hbase : b.ty <;> simp [hbase, Ty.isScalar, Ty.isVector] at hb
    all_goals
      rw [hbase] at hty
      exact Ty.known_vector? hty
  | construct kind as ty span =>
    obtain ⟨-, htakes⟩ := hrule
    cases kind with
    | struct => exact hr.1 (.inl rfl)
    | array => exact hr.1 (.inr rfl)
    | compound | splat | diagonal | resize | scalarCast | compoundCast =>
      have hshape := htakes.1
      cases ty <;> simp_all [Ty.isScalar, Ty.isVector, Ty.isMatrix, Ty.Known, Expr.ty]
  | call f as ty span =>
    obtain ⟨-, g, hg, choice, -, hty⟩ := hrule
    obtain hintrinsic | hregular := hp.function hs hg
    · obtain ⟨s, hty⟩ := scalar?_of_intrinsic hintrinsic hty
      exact Ty.known_of_scalar? hty
    · obtain ⟨-, rfl⟩ | ⟨s, hty⟩ := Ty.bindGeneric_cases hty
      · exact hregular.returns
      · exact Ty.known_of_scalar? hty

/-- Every node of a program lies in an expression that is regular and well typed as a whole. -/
lemma Regular.exists_root (hp : p.Regular o) (hs : p.Sound) (he : e ∈ p.nodes) :
    ∃ root : Expr, e ∈ root.nodes ∧ root.Regular o ∧ root.WellTyped p.declared := by
  obtain ⟨x, hx, he⟩ := List.mem_flatMap.mp he
  have hregular := hp.elements x hx
  have hwell := hs.elements x hx
  cases x with
  | struct | block | prototype => simp [Element.nodes] at he
  | global n i span =>
    obtain ⟨v, -, hi⟩ := hwell
    obtain ⟨root, hroot, he⟩ := List.mem_flatMap.mp he
    rw [Option.mem_toList] at hroot
    exact ⟨root, he, hregular root hroot, (hi root hroot).1⟩
  | definition f ps body span =>
    obtain ⟨g, -, -, -, hbody, -⟩ := hwell
    obtain ⟨st, hst, he⟩ := List.mem_flatMap.mp he
    obtain ⟨root, hroot, he⟩ := List.mem_flatMap.mp he
    exact ⟨root, he, hregular st hst root hroot, (hbody st hst).2 root hroot⟩

lemma Regular.wellTyped_node (hp : p.Regular o) (hs : p.Sound) (he : e ∈ p.nodes) : e.WellTyped p.declared := by
  obtain ⟨root, he, -, hw⟩ := hp.exists_root hs he
  exact fun x hx => hw x (Expr.mem_nodes_trans hx he)

/-- The types of the variables, functions, structs and expressions of a program. -/
def usedTypes (p : Program) : List Ty :=
  p.variables.toList.map (·.ty) ++ p.functions.items.toList.flatMap (fun f => f.returns :: f.parameterTypes) ++
    p.elements.filterMap (fun | .struct ty _ => some ty | _ => none) ++ p.nodes.map Expr.ty

lemma Regular.of_mem_variables (hp : p.Regular o) {v : Variable} (hv : v ∈ p.variables) : v.Regular o := by
  rw [hp.variables] at hv
  obtain ⟨n, hn⟩ := Array.mem_iff_getElem?.mp hv
  exact hp.context.variable_ hn

lemma Regular.of_mem_functions (hp : p.Regular o) {f : Function} (hf : f ∈ p.functions.items) : f.Regular o := by
  rw [hp.functions] at hf
  obtain ⟨n, hn⟩ := Array.mem_iff_getElem?.mp hf
  exact hp.context.function hn

lemma Regular.known_of_mem_usedTypes (hp : p.Regular o) (hs : p.Sound) {ty : Ty}
    (hty : ty ∈ p.usedTypes) : ty.Known o := by
  simp only [usedTypes, List.mem_append, List.mem_map, List.mem_flatMap, List.mem_filterMap,
    Array.mem_toList_iff] at hty
  obtain ((⟨v, hv, rfl⟩ | ⟨f, hf, hty⟩) | ⟨e, he, hty⟩) | ⟨e, he, rfl⟩ := hty
  · exact (hp.of_mem_variables hv).known
  · have hf := hp.of_mem_functions hf
    obtain rfl | hty := List.mem_cons.mp hty
    · exact hf.returns
    · exact hf.parameters ty hty
  · cases e with
    | struct u span =>
      obtain rfl := Option.some.inj hty
      exact (hp.elements _ he).1
    | _ => cases hty
  · obtain ⟨root, hroot, hr, -⟩ := hp.exists_root hs he
    exact hp.known_ty hs (hp.wellTyped_node hs he) (hr.node hroot)

end Program
end Shading
