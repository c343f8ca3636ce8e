import Shading.Proofs.Spirv.Composed

/-! Memory, operators and the parts of expressions that need no jumps are put together from plain
steps. -/
namespace Shading.Spirv

set_option synthInstance.maxSize 1000

/-- What is read or written as a whole to change a target. -/
def Target.access : Target → Access
  | memory a => a
  | components a _ => a

@[simp] lemma Target.access_select (mask : List (Fin 4)) (t : Target) :
    (t.select mask).access = t.access := by cases t <;> rfl

namespace Build

/-- What is copied back after a call has types as it should. -/
def Passed.Spanned (P : Span → Prop) (passed : Passed) : Prop :=
  ∀ r ∈ passed.returned, r.1.ty.Spanned P ∧ r.2.access.ty.Spanned P

variable {α β : Type} {P : Span → Prop}

namespace Gives

variable {m : Build α} {f : α → Build β} {Q : α → Prop} {R : β → Prop}

lemma pure {a : α} (h : Q a) : Gives P (pure a) Q := fun _ _ _ => h

lemma bind (hf : ∀ a, Gives P (f a) R) : Gives P (m >>= f) R := fun s _ hs => hf _ s _ hs

lemma bind_of (hm : Gives P m Q) (hf : ∀ a, Q a → Gives P (f a) R) : Gives P (m >>= f) R :=
    fun s b hs => hf _ (hm s b hs) s _ hs

end Gives

namespace Composed

/-! ### Memory -/

instance (a : Access) (index : Nat) (ty : Ty) [h : ty.Spanned P] : (a.step index ty).ty.Spanned P := h

instance (n : Nat) (ty : Ty) : Composed Outside P (variableAccess n ty) := by
  refine .ask (fun _ _ => rfl) fun s _ => .look (fun _ _ _ _ => rfl) fun b _ => ?_
  split <;> infer_instance

lemma variableAccess_eq {n : Nat} {ty : Ty} {s : Setting} {b : Builder} :
    variableAccess n ty s b = (match b.places[n]? with
    | some place =>
      return { base := place.pointer, storage := place.storage, layout := place.layout,
               ty := (s.program.variableAt n).ty }
    | none => do
      report (.variableUnavailable (s.program.variableAt n).name)
      return { base := 0, storage := .function, ty } : Build Access) s b := rfl

lemma gives_variableAccess {n : Nat} {ty : Ty} [ty.Spanned P] :
    Gives P (variableAccess n ty) fun a => a.ty.Spanned P := by
  intro s b hs
  rw [variableAccess_eq]
  cases b.places[n]? with
  | some place => exact inferInstanceAs ((s.program.variableAt n).ty.Spanned P)
  | none => exact inferInstanceAs (ty.Spanned P)

instance (ty : Ty) [hty : ty.Spanned P] : Composed Plain P (localVariable ty) := .elementary (.localVariable hty)

instance (n : Nat) (place : Place) : Composed Outside P
    (modify fun b => { b with places := b.places.insert n place } : Build Unit) := notes

instance (n : Nat) : Composed Plain P (declareLocal n) := .ask (fun _ _ => rfl) fun _ _ => inferInstance

instance (ty : Ty) [ty.Spanned P] : Composed Plain P (temporary ty) := by unfold temporary; infer_instance

lemma gives_temporary {ty : Ty} : Gives P (temporary ty) fun a => a.ty = ty := fun _ _ _ => rfl

instance (a : Access) [a.ty.Spanned P] : Composed Plain P (pointer a) := by
  have (type : Nat) (operands : List Operand) :
    Composed Plain P (Build.compute .accessChain type operands) := compute rfl
  unfold pointer
  infer_instance

mutual
lemma relayout (source dest : Option MemoryLayout) (value : Nat) (ty : Ty) (h : ty.Spanned P) :
    Composed Plain P (relayout source dest value ty) := by
  have (type : Nat) (operands : List Operand) :
    Composed Plain P (Build.compute .compositeConstruct type operands) := compute rfl
  cases ty with
  | struct id text fields block =>
    have := relayoutFields source dest value 0 fields fun f hf => (h.struct f hf).2
    unfold Build.relayout
    infer_instance
  | array e n =>
    have he := h.nested List.mem_cons_self
    have (part : Nat) := relayout source dest part e he
    unfold Build.relayout
    cases n <;> infer_instance
  | _ => unfold Build.relayout; infer_instance
lemma relayoutFields (source dest : Option MemoryLayout) (value i : Nat) (fields : List (Field Ty))
    (h : ∀ f ∈ fields, f.ty.Spanned P) : Composed Plain P (relayoutFields source dest value i fields) := by
  cases fields with
  | nil => unfold Build.relayoutFields; infer_instance
  | cons f fields =>
    obtain ⟨text, ty, m, span⟩ := f
    rw [List.forall_mem_cons] at h
    have := h.1
    have (part : Nat) := relayout source dest part ty h.1
    have := relayoutFields source dest value (i + 1) fields h.2
    unfold Build.relayoutFields
    infer_instance
end

instance (source dest : Option MemoryLayout) (value : Nat) (ty : Ty) [h : ty.Spanned P] :
    Composed Plain P (Build.relayout source dest value ty) := relayout source dest value ty h

instance (a : Access) [a.ty.Spanned P] : Composed Plain P (load a) := by
  have (type : Nat) (operands : List Operand) : Composed Plain P (Build.compute .load type operands) := compute rfl
  unfold load
  infer_instance

instance (operands : List Operand) : Composed Plain P (Build.emit .store operands) := emit rfl

instance (a : Access) (value : Nat) [a.ty.Spanned P] : Composed Plain P (store a value) := by
    unfold store; infer_instance

section

variable {t : Target} {ty : Ty} [ht : t.access.ty.Spanned P] [ty.Spanned P]

instance : Composed Plain P (loadTarget t ty) := by
  unfold loadTarget
  cases t with
  | memory a | components a mask =>
    have : a.ty.Spanned P := ht
    infer_instance

instance (value : Nat) : Composed Plain P (storeTarget t value) := by
  unfold storeTarget
  cases t with
  | memory a =>
    have : a.ty.Spanned P := ht
    infer_instance
  | components a mask =>
    have : a.ty.Spanned P := ht
    refine .bind inferInstance fun _ => ?_
    dsimp only
    split <;> exact .bind (result rfl) inferInstance

end

/-! ### Operators -/

lemma isCode_negateOp (ty : Ty) : (negateOp ty).isCode = true := by
  unfold negateOp
  split <;> rfl

lemma isCode_arithmeticOp? {op : Operator} {kind : ScalarKind} {code : Op}
    (h : arithmeticOp? op kind = some code) : code.isCode = true := by
  unfold arithmeticOp? at h
  split at h <;> cases h <;> rfl

lemma isCode_linearProduct? {left right : Ty} {code : Op} {swapped : Bool}
    (h : linearProduct? left right = some (code, swapped)) :
    code.isCode = true := by
  unfold linearProduct? at h
  split at h <;> cases h <;> rfl

lemma isCode_comparisonOp (op : Operator) (kind : ScalarKind) : (comparisonOp op kind).isCode = true := by
  unfold comparisonOp
  split <;> rfl

lemma apply_ite {p : Prop} [Decidable p] {op op' : Op} {ty : Ty} [ty.Spanned P] {values : List Nat}
    (h : op.isCode = true)
    (h' : op'.isCode = true) : Composed Plain P (Build.apply (if p then op else op') ty values) :=
  apply (by split <;> assumption)

section

variable {left right column source ty : Ty} [left.Spanned P] [right.Spanned P] [column.Spanned P]
    [source.Spanned P] [ty.Spanned P]

instance (value : Nat) : Composed Plain P (negate value ty) := by
  have (ty : Ty) [ty.Spanned P] (vs : List Nat) :
    Composed Plain P (Build.apply (negateOp ty) ty vs) := apply (isCode_negateOp ty)
  exact .columns (fun _ _ => inferInstance) ty

instance (op : Operator) : (rightShape op left right ty).Spanned P := by
  have hvector : ((Ty.vector? right.component left.rows).getD right).Spanned P := by
    cases h : Ty.vector? right.component left.rows with
    | none => assumption
    | some v => exact Ty.spanned_vector? h
  have hshape (shift : Bool) : (if shift then (Ty.vector? right.component left.rows).getD right
    else ty).Spanned P := by
    cases shift <;> assumption
  exact hshape _

instance (op : Operator) (l r : Nat) : Composed Plain P (componentwise op l left r right ty) := by
  have (l r : Nat) : Composed Plain P (match arithmeticOp? op (componentKind left) with
      | some code => Build.apply code ty [l, r]
      | none => do report (.operatorUnsupported op); return 0 : Build Nat) := by
    split
    · exact apply (isCode_arithmeticOp? ‹_›)
    · infer_instance
  unfold componentwise
  infer_instance

instance (value c : Nat) : Composed Plain P (operandColumn value ty column c) := by
    unfold operandColumn; infer_instance

instance (op : Operator) (l r : Nat) : Composed Plain P (arithmetic op l left r right ty) := by
  unfold arithmetic
  dsimp only
  split
  · rename_i hproduct
    split at hproduct
    · exact apply (isCode_linearProduct? hproduct)
    · cases hproduct
  · rename_i column _ h
    have := Ty.spanned_column (P := P) h
    infer_instance
  · infer_instance

instance (op : Operator) (l r : Nat) (u : Ty) : Composed Plain P (compareFlat op l r u) := by
  have (ty : Ty) [ty.Spanned P] (vs : List Nat) (kind : ScalarKind) :
    Composed Plain P (Build.apply (comparisonOp op kind) ty vs) :=
    apply (isCode_comparisonOp op kind)
  have (ty : Ty) [ty.Spanned P] (vs : List Nat) :
    Composed Plain P (Build.apply (if op = .eq then .all else .any) ty vs) := apply_ite rfl rfl
  unfold compareFlat
  dsimp only
  split <;> infer_instance

instance compareColumns (op : Operator) (l r : Nat) (sofar : Option Nat) (cs : List Nat) :
    Composed Plain P (compareColumns op l r column sofar cs) := by
  have (ty : Ty) [ty.Spanned P] (vs : List Nat) :
    Composed Plain P (Build.apply (if op = .eq then .logicalAnd else .logicalOr) ty vs) :=
    apply_ite rfl rfl
  induction cs generalizing sofar with
  | nil => unfold Build.compareColumns; infer_instance
  | cons c cs ih =>
    unfold Build.compareColumns
    cases sofar <;> infer_instance

instance (op : Operator) (l r : Nat) (u : Ty) : Composed Plain P (compare op l r u) := by
  have hcolumns : Composed Plain P (match u.column? with
      | some column => Build.compareColumns op l r column none (List.range u.columns)
      | none => compareFlat op l r u) := .columns (fun _ _ => inferInstance) u
  unfold compare
  infer_instance

/-! ### Conversions and constructors -/

instance (value : Nat) : Composed Plain P (convertFlat value source ty) := by
  have (kind : ScalarKind) (vs : List Nat) : Composed Plain P
    (Build.apply (if kind = .float then .fUnordNotEqual else .iNotEqual) ty vs) :=
    apply_ite rfl rfl
  unfold convertFlat
  split
  all_goals repeat' first | infer_instance | exact apply rfl | refine .bind ?_ fun _ => ?_

instance : Composed Outside P (sameType source ty) := by unfold sameType; infer_instance

instance (value : Nat) : Composed Plain P (convert value source ty) := by
  unfold convert
  refine .bind inferInstance fun _ => ?_
  split
  · infer_instance
  split
  · rename_i a b ha hb
    have := Ty.spanned_column (P := P) ha
    have := Ty.spanned_column (P := P) hb
    infer_instance
  · infer_instance

instance (arguments : List (Nat × Ty)) : Composed Plain P (compound arguments ty) := by
  have (vs : List Nat) : Composed Plain P (Build.apply .compositeConstruct ty vs) := apply rfl
  unfold compound
  refine .bind inferInstance fun _ => ?_
  split
  · infer_instance
  · have (a : Nat × Ty) : Composed Plain P (match a with | (v, t) => scalars v t) :=
      inferInstanceAs (Composed Plain P (scalars a.1 a.2))
    exact .bind inferInstance fun _ => .columns (fun _ _ => inferInstance) ty

instance (value : Nat) : Composed Plain P (diagonal value source ty) := by unfold diagonal; infer_instance

instance (value : Nat) : Composed Plain P (resize value source ty) := by unfold resize; infer_instance

lemma construct {kind : ConstructorKind} {arguments : List (Nat × Ty)} (h : ∀ a ∈ arguments, a.2.Spanned P) :
    Composed Plain P (construct kind arguments ty) := by
  unfold Build.construct
  split
  · infer_instance
  · rename_i first source _
    have : source.Spanned P := h _ List.mem_cons_self
    cases kind <;> infer_instance

instance (f : Intrinsic) : Composed Outside P (bounds f ty) := by unfold bounds; infer_instance

instance (f : Intrinsic) (arguments : List (Nat × Ty)) : Composed Plain P (intrinsic f arguments ty) := by
  have (firstTy : Ty) (vs : List Nat) : Composed Plain P
    (Build.apply (if firstTy.isScalar then .fMul else .dot) ty vs) := apply_ite rfl rfl
  have (code : UInt32) (vs : List Nat) :
      Composed Plain P (do Build.result .extInst ty (.id (← get).mathSet :: .number code :: Operand.ids vs)) :=
    .look (fun _ _ _ _ => rfl) fun b _ => result rfl
  unfold intrinsic
  dsimp only
  repeat' first | infer_instance | refine .bind ?_ fun _ => ?_ | split

/-! ### Parts of expressions -/

instance (op : Operator) (t : Target) [t.access.ty.Spanned P] :
    Composed Plain P (step op t ty) := by unfold step; infer_instance

instance (value : Nat) (base : Ty) (index : Nat) [hbase : base.Spanned P] :
    Composed Plain P (dynamicElement value base index ty) := by
  unfold dynamicElement
  refine @ite _ _ _ _ _ _ _ (apply rfl) ?_
  refine .bind_of inferInstance gives_temporary fun a ha => ?_
  have : a.ty.Spanned P := ha ▸ hbase
  infer_instance

instance (condition : Nat) (u : Ty) : Composed Plain P (selector condition u) := by
    unfold selector; split <;> infer_instance

end

lemma finishCall {callee : Nat} {passed : Passed} {ty : Ty} [ty.Spanned P] (h : passed.Spanned P) :
    Composed Plain P (finishCall callee passed ty) := by
  unfold Build.finishCall
  refine .bind (apply rfl) fun _ => .bind (forIn_of (fun r hr _ => ?_) _) fun _ => inferInstance
  obtain ⟨hsource, htarget⟩ := h r (List.mem_reverse.mp hr)
  infer_instance

lemma refuse {e : Expr} (h : P e.span) : Composed Quiet P (refuse e) :=
    .bind (reportAt h .notALocation) inferInstance

instance (source dest : Option MemoryLayout) (value i : Nat) (fields : List (Field Ty)) :
    Composed Plain Span.Anywhere (Build.relayoutFields source dest value i fields) :=
  relayoutFields source dest value i fields fun _ _ => inferInstance

instance (kind : ConstructorKind) (arguments : List (Nat × Ty)) (ty : Ty) :
    Composed Plain Span.Anywhere (Build.construct kind arguments ty) :=
  construct fun _ _ => inferInstance

instance (callee : Nat) (passed : Passed) (ty : Ty) :
    Composed Plain Span.Anywhere (Build.finishCall callee passed ty) :=
  finishCall fun _ _ => ⟨inferInstance, inferInstance⟩

instance (e : Expr) : Composed Quiet Span.Anywhere (Build.refuse e) := refuse trivial

end Composed
end Build
end Shading.Spirv
