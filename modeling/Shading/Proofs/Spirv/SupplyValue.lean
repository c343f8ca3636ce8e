import Shading.Proofs.Spirv.Supply

/-! Values, memory and operators are written in order: what is computed needs what has been computed
before. -/
namespace Shading.Spirv

set_option synthInstance.maxSize 1000

open Builder (Extends Ordered IsGlobal IsTaken IsFunction Has)

namespace Follows

lemma mem {known : Nat → Prop} {is : List Instruction} {i : Instruction} (h : Follows known is) (hi : i ∈ is) :
    ∀ x ∈ i.needs, known x ∨ x ∈ results is := by
  obtain ⟨newer, older, rfl⟩ := List.append_of_mem hi
  intro x hx
  refine (h.needs x hx).imp_right fun hx => ?_
  rw [results_append, results_cons]
  exact List.mem_append_right _ (List.mem_append_right _ hx)

end Follows

namespace Build

variable {α β : Type} {d : Declared} {s : Setting} {b : Builder} {op : Op} {ty : Ty} {type x : Nat}
    {xs : List Nat}

/-- All ids of a list may be used. -/
def HasAll (b : Builder) (xs : List Nat) : Prop := ∀ x ∈ xs, b.Has x

lemma HasAll.mono {b' : Builder} (h : HasAll b xs) (hb : Extends b b') : HasAll b' xs := fun x hx =>
    hb.has (h x hx)

@[simp] lemma hasAll_nil : HasAll b [] := List.forall_mem_nil _

@[simp] lemma hasAll_cons : HasAll b (x :: xs) ↔ b.Has x ∧ HasAll b xs := List.forall_mem_cons

@[simp] lemma hasAll_append {ys : List Nat} : HasAll b (xs ++ ys) ↔ HasAll b xs ∧ HasAll b ys :=
    List.forall_mem_append

lemma hasAll_replicate {n : Nat} (h : b.Has x) : HasAll b (List.replicate n x) := fun _ hy =>
    List.eq_of_mem_replicate hy ▸ h

lemma supplies_append {i : Instruction} (hneeds : HasAll b i.needs) (hcallee : ∀ f ∈ i.callee?, b.IsFunction f) :
    Supplies d (modify fun b => { b with body := { b.body with code := i :: b.body.code } }) s b
    fun _ b' => ∀ x ∈ i.result, b'.Has x := by
  refine fun _ hb => ⟨hb.code hneeds hcallee, fun x hx => .inr ?_⟩
  exact mem_results.mpr ⟨i, List.mem_cons_self, hx⟩

variable {operands : List Operand}

lemma supplies_computed (hop : op ≠ .functionCall) (htype : b.Has type)
    (hids : HasAll b (Operand.used operands)) :
    Supplies d (compute op type operands) s b fun x b' => b'.Has x ∧ b'.IsTaken x := by
  refine .bind .fresh fun x b1 h1 hx => .bind (P := fun _ b' => b'.Has x) ?_ fun _ _ h2 hhas =>
    .pure ⟨hhas, h2.isTaken hx⟩
  refine .weaken (supplies_append (fun y hy => ?_) (by simp [hop])) fun _ b' h => h x rfl
  obtain hy | hy := List.mem_append.mp (Instruction.needs_subset _ hy)
  · obtain rfl : y = type := by simpa using hy
    exact h1.has htype
  · exact h1.has (hids y hy)

lemma supplies_compute (hop : op ≠ .functionCall) (htype : b.Has type) (hids : HasAll b (Operand.used operands)) :
    Supplies d (compute op type operands) s b fun x b' => b'.Has x :=
  .weaken (supplies_computed hop htype hids) fun _ _ h => h.1

lemma supplies_emit (hop : op ≠ .functionCall) (hids : HasAll b (Instruction.needs { op, operands })) :
    Supplies d (emit op operands) s b fun _ _ => True :=
  .weaken (supplies_append hids (by simp [hop])) fun _ _ _ => trivial

/-- A value that has the type it is asked for; a call has to be one of a function. -/
lemma supplies_result_of
    (hids : HasAll b (Instruction.needs { op, operands }))
    (hcallee : ∀ f ∈ Instruction.callee? { op, operands }, b.IsFunction f) :
    Supplies d (result op ty operands) s b fun x b' => b'.Has x := by
  refine .bind supplies_typeOf fun type b1 h1 htype => .bind .fresh fun x b2 h2 hx =>
    .bind (supplies_relax hx) fun _ b3 h3 _ => ?_
  have hlater := (h1.trans h2).trans h3
  refine .bind (P := fun _ b' => b'.Has x) ?_ fun _ _ _ hx => .pure hx
  refine .weaken (supplies_append (i := { op, type, result := x, operands }) (fun y hy => ?_)
    fun f hf => hlater.isFunction (hcallee f hf))
    fun _ b' h => h x rfl
  obtain hy | hy := List.mem_append.mp hy
  · obtain rfl : y = type := by simpa using hy
    exact h3.has (h2.has htype.has)
  · exact hlater.has (hids y (List.mem_append_right _ hy))

lemma hasAll_needs (h : HasAll b (Operand.used operands)) : HasAll b (Instruction.needs { op, operands }) :=
  fun y hy => h y (Instruction.needs_subset { op, operands } hy)

lemma supplies_result (hop : op ≠ .functionCall) (hids : HasAll b (Operand.used operands)) :
    Supplies d (result op ty operands) s b fun x b' => b'.Has x :=
  supplies_result_of (hasAll_needs hids) (by simp [hop])

lemma supplies_apply (hop : op ≠ .functionCall) (hxs : HasAll b xs) :
    Supplies d (apply op ty xs) s b fun x b' => b'.Has x :=
  supplies_result hop (by simpa using hxs)

/-! ### Parts of values -/

lemma isGlobal_of_template {t : Template} (hb : b.Ordered d) (ht : b.templates[x]? = some t) : b.IsGlobal x := by
  obtain ⟨hresult, hmem⟩ := hb.tabled.written ht
  exact mem_results.mpr ⟨_, hmem, if_neg hresult⟩

lemma isGlobal_of_constituent {t : Template} {part : Nat} (hb : b.Ordered d)
    (ht : b.templates[x]? = some t) (hpart : part ∈ t.constituents) :
    b.IsGlobal part := by
  unfold Template.constituents at hpart
  split at hpart
  · rename_i hop
    refine (hb.globals.mem (hb.tabled.written ht).2 part ?_).resolve_left id
    simp only [Instruction.needs, Template.instruction, hop]
    exact List.mem_append_right _ hpart
  · cases hpart

lemma has_descend (indices : List Nat) (hb : b.Ordered d) (hx : b.Has x) :
    b.Has (descend b.templates x indices).1 := by
  induction indices generalizing x with
  | nil => exact hx
  | cons i rest ih =>
    unfold descend
    split
    · rename_i part hpart
      obtain ⟨t, ht, hpart⟩ := Option.bind_eq_some_iff.mp hpart
      exact ih (isGlobal_of_constituent hb ht (List.mem_of_getElem? hpart)).has
    · exact hx

lemma supplies_extractAs {indices : List Nat} (htype : b.Has type) (hx : b.Has x) :
    Supplies d (extractAs type x indices) s b fun y b' => b'.Has y := by
  refine .get_bind fun hb => ?_
  have hpart := has_descend indices hb hx
  split
  · rename_i part heq
    rw [heq] at hpart
    exact .pure hpart
  · rename_i whole rest heq
    rw [heq] at hpart
    exact supplies_compute (by simp) htype (by simpa using hpart)

lemma supplies_extract {indices : List Nat} (hx : b.Has x) :
    Supplies d (extract ty x indices) s b fun y b' => b'.Has y :=
  .bind supplies_typeOf fun _ _ h1 htype => supplies_extractAs htype.has (h1.has hx)

lemma supplies_areConstants : Supplies d (areConstants xs) s b fun all b' => all = true →
    ∀ x ∈ xs, b'.IsGlobal x := by
  refine .get_bind fun hb => .pure fun hall x hx => ?_
  obtain ⟨t, ht, -⟩ := Builder.exists_of_constantAt (List.all_eq_true.mp hall x hx)
  exact isGlobal_of_template hb ht

lemma supplies_composite (hxs : HasAll b xs) : Supplies d (composite ty xs) s b fun x b' => b'.Has x := by
  refine .bind supplies_areConstants fun all b1 h1 hall => .ite (fun hconstant => ?_) fun _ =>
    supplies_apply nofun (hxs.mono h1)
  have hglobals := hall (Bool.and_eq_true_iff.mp hconstant).2
  exact .weaken (supplies_constantComposite hglobals) fun _ _ hx => hx.has

lemma supplies_splat (hx : b.Has x) : Supplies d (splat x ty) s b fun y b' => b'.Has y :=
    supplies_composite (hasAll_replicate hx)

lemma has_mono : ∀ (x : Nat) (b b' : Builder), Extends b b' → b.Has x → b'.Has x := fun _ _ _ h hx => h.has hx

lemma supplies_swizzle {mask : List (Fin 4)} (hx : b.Has x) :
    Supplies d (swizzle x mask ty) s b fun y b' => b'.Has y := by
  unfold swizzle
  split
  · exact supplies_extract hx
  · exact supplies_result (by simp) (by simpa using hx)

lemma supplies_byColumns {column : Nat → Build Nat} [∀ c, IsGrowing (column c)]
    (h : ∀ c < ty.columns, ∀ b', Extends b b' → Supplies d (column c) s b' fun x b' => b'.Has x) :
    Supplies d (byColumns ty column) s b fun x b' => b'.Has x :=
  .bind (.mapM has_mono fun c hc b' h' => h c (List.mem_range.mp hc) b' h') fun _ _ _ h => supplies_composite h.2

/-! ### Memory -/

/-- The variable and the steps of an access may be used. -/
def Within (b : Builder) (a : Access) : Prop := b.Has a.base ∧ HasAll b a.indices

variable {a : Access}

lemma Within.mono {b' : Builder} (h : Within b a) (hb : Extends b b') : Within b' a := ⟨hb.has h.1, h.2.mono hb⟩

lemma Within.step (h : Within b a) (hx : b.Has x) : Within b (a.step x ty) :=
    ⟨h.1, by simpa [Access.step] using ⟨h.2, hx⟩⟩

/-- The same for what an assignment changes. -/
def TargetWithin (b : Builder) : Target → Prop
  | .memory a => Within b a
  | .components a _ => Within b a

variable {t : Target}

lemma TargetWithin.mono {b' : Builder} (h : TargetWithin b t) (hb : Extends b b') : TargetWithin b' t := by
  cases t <;> exact Within.mono h hb

lemma TargetWithin.select {mask : List (Fin 4)} (h : TargetWithin b t) : TargetWithin b (t.select mask) := by
  cases t <;> exact h

lemma supplies_variableAccess {n : Nat} : Supplies d (variableAccess n ty) s b fun a b' => Within b' a := by
  refine .read_bind (.get_bind fun hb => ?_)
  split
  · exact .pure ⟨hb.places ‹_›, hasAll_nil⟩
  · exact .report_bind

instance (i : Instruction) : IsGrowing (modify fun b =>
    { b with body := { b.body with locals := i :: b.body.locals } } : Build Unit) :=
  ⟨fun _ _ => ⟨Nat.le_refl _, List.suffix_rfl, rfl, ⟨[], rfl, nofun⟩, List.suffix_cons ..,
    List.suffix_rfl, fun _ hi => .inl hi,
    .of_eq rfl rfl rfl (Nat.le_refl _)⟩⟩

lemma supplies_localVariable : Supplies d (localVariable ty) s b fun x b' => b'.Has x ∧ b'.IsTaken x := by
  refine .bind supplies_typeOf fun type b1 _ htype =>
    .bind (supplies_pointerType htype) fun pointer b2 _ hpointer => ?_
  refine .bind .fresh fun x b3 h3 hx => .bind (P := fun _ b' => b'.Has x) ?_ fun _ b4 h4 hhas => ?_
  · refine fun _ hb => ⟨hb.local_ (fun y hy => ?_) rfl,
      .inr (mem_results.mpr ⟨_, List.mem_append_right _ List.mem_cons_self, rfl⟩)⟩
    obtain rfl : y = pointer := by simpa [Instruction.needs, Instruction.ids, Operand.id?] using hy
    exact h3.isGlobal hpointer
  · exact .bind (supplies_relax (h4.isTaken hx)) fun _ b5 h5 _ => .pure ⟨h5.has hhas, h5.isTaken (h4.isTaken hx)⟩

lemma supplies_temporary : Supplies d (temporary ty) s b fun a b' => Within b' a :=
  .bind supplies_localVariable fun _ _ _ hx => .pure ⟨hx.1, hasAll_nil⟩

lemma supplies_pointer (h : Within b a) : Supplies d (pointer a) s b fun x b' => b'.Has x := by
  refine .ite (fun _ => .pure h.1) fun _ => .bind (supplies_typeIn a.ty) fun type b1 h1 htype => ?_
  refine .bind (supplies_pointerType htype) fun pointer b2 h2 hpointer => supplies_compute nofun hpointer.has ?_
  exact (Operand.used_ids _).symm ▸ hasAll_cons.mpr (h.mono (h1.trans h2))

mutual
lemma supplies_relayout {b : Builder} {x : Nat} {source dest : Option MemoryLayout} (ty : Ty) (hx : b.Has x) :
    Supplies d (relayout source dest x ty) s b fun y b' => b'.Has y := by
  -- a type that is represented in one way only
  have hsame (ty : Ty) : Supplies d (do
      let sourceId ← typeIn source ty
      let destId ← typeIn dest ty
      if sourceId != destId then report (.typeNotCopied ty)
      return x) s b fun y b' => b'.Has y := by
    refine .bind (supplies_typeIn ty) fun sourceId b1 h1 _ => .bind (supplies_typeIn ty) fun destId b2 h2 _ => ?_
    exact .ite (fun _ => .report_bind) fun _ => .pure (h2.has (h1.has hx))
  cases ty with
  | struct n text fields block =>
    unfold relayout
    refine .bind (supplies_typeIn _) fun sourceId b1 h1 _ =>
      .bind (supplies_typeIn _) fun destId b2 h2 hdest => ?_
    have hx := h2.has (h1.has hx)
    refine .ite (fun _ => .pure hx) fun _ => .bind (supplies_relayoutFields fields hx)
      fun parts b3 h3 hparts => ?_
    exact supplies_compute nofun (h3.isGlobal hdest).has (by simpa using hparts)
  | array e n =>
    cases n with
    | some n =>
      unfold relayout
      refine .bind (supplies_typeIn _) fun sourceId b1 h1 _ =>
        .bind (supplies_typeIn _) fun destId b2 h2 hdest => ?_
      have hx := h2.has (h1.has hx)
      refine .ite (fun _ => .pure hx) fun _ =>
        .bind (.mapM has_mono fun i _ b' h' => ?_) fun parts b3 h3 hparts => ?_
      · refine .bind (supplies_typeIn e) fun type b3 h3 htype => ?_
        exact .bind (supplies_extractAs htype.has (h3.has (h'.has hx))) fun part b4 _ hpart =>
          supplies_relayout e hpart
      · exact supplies_compute nofun (h3.isGlobal hdest).has (Operand.used_ids _ ▸ hparts.2)
    | none => exact hsame _
  | _ => exact hsame _
lemma supplies_relayoutFields {b : Builder} {x i : Nat} {source dest : Option MemoryLayout}
    (fields : List (Field Ty)) (hx : b.Has x) :
    Supplies d (relayoutFields source dest x i fields) s b fun ys b' => HasAll b' ys := by
  cases fields with
  | nil => exact .pure hasAll_nil
  | cons f fields =>
    obtain ⟨text, ty, modifiers, span⟩ := f
    unfold relayoutFields
    refine .bind (supplies_typeIn ty) fun type b1 h1 htype =>
      .bind (supplies_extractAs htype.has (h1.has hx)) fun part b2 h2 hpart => ?_
    refine .bind (supplies_relayout ty hpart) fun moved b3 h3 hmoved => ?_
    refine .bind (supplies_relayoutFields fields (h3.has (h2.has (h1.has hx)))) fun rest b4 h4 hrest => .pure ?_
    exact hasAll_cons.mpr ⟨h4.has hmoved, hrest⟩
end

lemma supplies_load (h : Within b a) : Supplies d (load a) s b fun x b' => b'.Has x := by
  unfold load
  refine .bind (supplies_pointer h) fun p b1 _ hp => .bind (supplies_typeIn a.ty) fun type b2 h2 htype => ?_
  refine .bind (supplies_computed nofun htype.has (by simpa using h2.has hp)) fun x b3 _ hx => ?_
  exact .bind (supplies_relax hx.2) fun _ b4 h4 _ => supplies_relayout a.ty (h4.has hx.1)

lemma supplies_store (h : Within b a) (hx : b.Has x) : Supplies d (store a x) s b fun _ _ => True := by
  unfold store
  refine .bind (supplies_relayout a.ty hx) fun y b1 h1 hy =>
    .bind (supplies_pointer (h.mono h1)) fun p b2 h2 hp => ?_
  exact supplies_emit nofun (hasAll_needs (by simpa using ⟨hp, h2.has hy⟩))

lemma supplies_loadTarget (h : TargetWithin b t) : Supplies d (loadTarget t ty) s b fun x b' => b'.Has x := by
  cases t with
  | memory a => exact supplies_load h
  | components a mask => exact .bind (supplies_load h) fun _ _ _ hx => supplies_swizzle hx

lemma supplies_storeTarget (h : TargetWithin b t) (hx : b.Has x) :
    Supplies d (storeTarget t x) s b fun _ _ => True := by
  cases t with
  | memory a => exact supplies_store h hx
  | components a mask =>
    have hstore {b' : Builder} (hb : Extends b b') (y : Nat) (hy : b'.Has y) :
      Supplies d (store a y) s b' fun _ _ => True :=
      supplies_store (Within.mono h hb) hy
    unfold storeTarget
    dsimp only
    refine .bind_of (fun _ => by split <;> infer_instance) (supplies_load h) fun old b1 h1 hold => ?_
    split
    · exact .bind (supplies_result (by simp) (by simpa using ⟨h1.has hx, hold⟩)) fun y b2 h2 hy =>
        hstore (h1.trans h2) y hy
    · exact .bind (supplies_result (by simp) (by simpa using ⟨hold, h1.has hx⟩)) fun y b2 h2 hy =>
        hstore (h1.trans h2) y hy

/-! ### Operators -/

lemma supplies_negate (hx : b.Has x) : Supplies d (negate x ty) s b fun y b' => b'.Has y := by
  have hop (ty : Ty) : negateOp ty ≠ .functionCall := by unfold negateOp; split <;> nofun
  unfold negate
  split
  · refine supplies_byColumns fun c _ b' h' => .bind (supplies_extract (h'.has hx)) fun part b1 _ hpart => ?_
    exact supplies_apply (hop _) (by simpa using hpart)
  · exact supplies_apply (hop _) (by simpa using hx)

variable {o : Operator}

lemma ne_functionCall_arithmeticOp? {kind : ScalarKind} {code : Op}
    (h : arithmeticOp? o kind = some code) : code ≠ .functionCall := by
  unfold arithmeticOp? at h
  split at h <;> cases h <;> nofun

variable {left right : Ty}

lemma ne_functionCall_linearProduct? {code : Op} {swapped : Bool}
    (h : linearProduct? left right = some (code, swapped)) :
    code ≠ .functionCall := by
  unfold linearProduct? at h
  split at h <;> cases h <;> nofun

lemma ne_functionCall_comparisonOp (o : Operator) (kind : ScalarKind) : comparisonOp o kind ≠ .functionCall := by
  unfold comparisonOp
  split <;> nofun

variable {l r : Nat}

lemma isGrowing_componentwise (l r : Nat) : IsGrowing (match arithmeticOp? o (componentKind left) with
    | some code => apply code ty [l, r]
    | none => do report (.operatorUnsupported o); return 0 : Build Nat) := by
  split <;> infer_instance

lemma supplies_componentwise (hl : b.Has l) (hr : b.Has r) :
    Supplies d (componentwise o l left r right ty) s b fun x b' => b'.Has x := by
  have hsplat (p : Bool) (x : Nat) (ty : Ty) {b : Builder} (hx : b.Has x) :
      Supplies d (if p then splat x ty else pure x) s b fun x b' => b'.Has x :=
    .ite (fun _ => supplies_splat hx) fun _ => .pure hx
  have hlast := @isGrowing_componentwise
  unfold componentwise
  refine .ite_bind (hsplat _ l ty hl) fun l b1 h1 hl => ?_
  refine .ite_bind (hsplat _ r _ (h1.has hr)) fun r b2 h2 hr => ?_
  split
  · exact supplies_apply (ne_functionCall_arithmeticOp? ‹_›) (by simpa using ⟨h2.has hl, hr⟩)
  · exact .report_bind

lemma supplies_operandColumn {column : Ty} {c : Nat} (hx : b.Has x) :
    Supplies d (operandColumn x ty column c) s b fun y b' => b'.Has y :=
  .ite (fun _ => supplies_extract hx) fun _ => supplies_splat hx

lemma supplies_arithmetic (hl : b.Has l) (hr : b.Has r) :
    Supplies d (arithmetic o l left r right ty) s b fun x b' => b'.Has x := by
  unfold arithmetic
  dsimp only
  split
  · rename_i hproduct
    split at hproduct
    · refine supplies_apply (ne_functionCall_linearProduct? hproduct) ?_
      split <;> simp [hl, hr]
    · cases hproduct
  · refine supplies_byColumns fun c _ b' h' => .bind (supplies_operandColumn (h'.has hl)) fun lc b1 h1 hlc => ?_
    exact .bind (supplies_operandColumn (h1.has (h'.has hr))) fun rc b2 h2 hrc =>
      supplies_componentwise (h2.has hlc) hrc
  · exact supplies_componentwise hl hr

/-! ### Comparisons -/

lemma supplies_compareFlat (hl : b.Has l) (hr : b.Has r) :
    Supplies d (compareFlat o l r ty) s b fun x b' => b'.Has x := by
  have hne := ne_functionCall_comparisonOp o (componentKind ty)
  unfold compareFlat
  dsimp only
  split
  · refine .bind (supplies_apply hne (by simpa using ⟨hl, hr⟩)) fun x b1 _ hx =>
      supplies_apply ?_ (by simpa using hx)
    split <;> simp
  · exact supplies_apply hne (by simpa using ⟨hl, hr⟩)

lemma supplies_compareColumns {column : Ty} {sofar : Option Nat} {cs : List Nat} (hl : b.Has l) (hr : b.Has r)
    (hsofar : ∀ x ∈ sofar, b.Has x) (hne : sofar = none → cs ≠ []) :
    Supplies d (compareColumns o l r column sofar cs) s b fun x b' => b'.Has x := by
  induction cs generalizing sofar b with
  | nil =>
    cases sofar with
    | none => exact absurd rfl (hne rfl)
    | some x => exact .pure (hsofar x rfl)
  | cons c cs ih =>
    unfold compareColumns
    refine .bind_of (fun _ => by cases sofar <;> infer_instance) (supplies_extract hl) fun lc b1 h1 hlc => ?_
    refine .bind_of (fun _ => by cases sofar <;> infer_instance) (supplies_extract (h1.has hr))
      fun rc b2 h2 hrc => ?_
    refine .bind_of (fun _ => by cases sofar <;> infer_instance)
      (supplies_compareFlat (h2.has hlc) hrc) fun one b3 h3 hone => ?_
    have hlater := (h1.trans h2).trans h3
    cases sofar with
    | none =>
      exact .bind (.pure hone) fun x b4 h4 hx =>
        ih ((hlater.trans h4).has hl) ((hlater.trans h4).has hr) (by simpa using hx) nofun
    | some previous =>
      refine .bind (supplies_apply (by split <;> nofun)
        (by simpa using ⟨hlater.has (hsofar previous rfl), hone⟩)) fun x b4 h4 hx => ?_
      exact ih ((hlater.trans h4).has hl) ((hlater.trans h4).has hr) (by simpa using hx) nofun

lemma supplies_compare (hl : b.Has l) (hr : b.Has r) : Supplies d (compare o l r ty) s b fun x b' =>
    b'.Has x := by
  refine .ite (fun _ => .report_bind) fun _ => ?_
  split
  · rename_i column hcolumn
    refine supplies_compareColumns hl hr (by simp) fun _ hnil => ?_
    rw [List.range_eq_nil] at hnil
    cases ty with
    | matrix t c r => cases c <;> cases hnil
    | _ => cases hcolumn
  · exact supplies_compareFlat hl hr

/-! ### Conversions -/

variable {source dest : Ty}

lemma supplies_convertFlat (hx : b.Has x) : Supplies d (convertFlat x source dest) s b fun y b' => b'.Has y := by
  have hone (code : Op) (hcode : code ≠ .functionCall) :
    Supplies d (apply code dest [x]) s b fun y b' => b'.Has y :=
    supplies_apply hcode (by simpa using hx)
  unfold convertFlat
  split
  · refine .bind supplies_splatConstant fun t b1 h1 ht =>
      .bind supplies_splatConstant fun f b2 h2 hf => supplies_apply (by simp) ?_
    simpa using ⟨h2.has (h1.has hx), h2.has ht.has, hf.has⟩
  · refine .bind supplies_splatConstant fun nothing b1 h1 hnothing => supplies_apply (by split <;> simp) ?_
    simpa using ⟨h1.has hx, hnothing.has⟩
  · exact hone _ (by simp)
  · exact hone _ (by simp)
  · exact hone _ (by simp)
  · exact hone _ (by simp)
  · exact .pure hx
  · exact hone _ (by simp)

lemma supplies_sameType : Supplies d (sameType source dest) s b fun _ _ => True :=
  .bind supplies_typeOf fun _ _ _ _ => .bind supplies_typeOf fun _ _ _ _ => .pure trivial

lemma supplies_convert (hx : b.Has x) : Supplies d (convert x source dest) s b fun y b' => b'.Has y := by
  unfold convert
  refine .bind_of (fun _ => by repeat' first | infer_instance | split) supplies_sameType
    fun same b1 h1 _ => .ite (fun _ => .pure (h1.has hx)) fun _ => ?_
  split
  · refine .bind (.mapM has_mono fun c _ b' h' =>
      .bind (supplies_extract (h'.has (h1.has hx))) fun part b2 _ hpart => ?_)
      fun columns _ _ hcolumns => supplies_composite hcolumns.2
    refine .bind supplies_sameType fun same b3 h3 _ => .ite (fun _ => .pure (h3.has hpart)) fun _ =>
      supplies_convertFlat (h3.has hpart)
  · exact supplies_convertFlat (h1.has hx)

/-! ### Constructors and intrinsics -/

lemma hasAll_of_forall₂ {vs : List Value} (h : List.Forall₂ (fun x (_ : Value) => b.Has x) xs vs) :
    HasAll b xs := fun _ hx =>
  (exists_of_mem_forall₂ h.flip hx).elim fun _ hv => hv.2

/-- Only the order counts, and not which value an id has. -/
def inOrder (d : Declared) : Logic where
  Side := Unit
  Has b _ x _ := b.Has x
  Follows m s b _ Q := Supplies d m s b fun a b' => Q a b' ()
  ofPure h := .pure h
  ofBind hm hg := .bind hm fun a b' h' ha => hg a b' () (fun hx => h'.has hx) ha
  ofEq h hm := by
    unfold Supplies
    rw [h]
    exact hm
  ofConstant _ := .weaken supplies_constant fun _ _ hx => hx.has
  ofConvert hx := supplies_convert hx
  ofExtract hx _ _ := supplies_extract hx
  ofComposite _ _ hparts _ := supplies_composite (hasAll_of_forall₂ hparts)
  ofConstruct _ hparts _ := supplies_apply nofun (hasAll_of_forall₂ hparts)

variable {arguments : List (Nat × Ty)}

lemma supplies_construct {kind : ConstructorKind} (hne : arguments ≠ [])
    (htakes : kind.Takes (arguments.map (·.2)) ty) (h : HasAll b (arguments.map (·.1))) :
    Supplies d (construct kind arguments ty) s b fun x b' => b'.Has x := by
  have hbuild (hkind : kind ∈ [.compound, .splat, .diagonal, .resize]) :
    Supplies d (construct kind arguments ty) s b fun x b' => b'.Has x := by
    obtain ⟨vs, hvs⟩ := exists_forall₂ fun a (_ : a ∈ arguments.map (·.2)) => Value.exists_hasShape a
    obtain ⟨-, w, hw⟩ := exists_builds hkind htakes hvs
    have hlength : (arguments.map (·.1)).length = vs.length := by simpa using hvs.length_eq
    exact hw.follows (L := inOrder d) (σ := ()) rfl
      (List.forall₂_iff_get.mpr ⟨hlength, fun i hi _ => h _ (List.get_mem _ ⟨i, hi⟩)⟩)
  obtain ⟨⟨first, source⟩, rest, rfl⟩ := List.exists_cons_of_ne_nil hne
  have hfirst : b.Has first := h first (by simp)
  cases kind with
  | array => exact supplies_composite h
  | struct => exact supplies_composite h
  | scalarCast => exact supplies_convert hfirst
  | compoundCast => exact supplies_convert hfirst
  | _ => exact hbuild (by simp)

lemma supplies_bounds {f : Intrinsic} : Supplies d (bounds f ty) s b fun ys b' => HasAll b' ys := by
  refine .ite (fun _ => .pure hasAll_nil) fun _ => .bind supplies_splatConstant fun low b1 _ hlow => ?_
  exact .bind supplies_splatConstant fun high b2 h2 hhigh => .pure (by simpa using ⟨h2.has hlow.has, hhigh.has⟩)

lemma supplies_intrinsic {f : Intrinsic} (hne : arguments ≠ []) (h : HasAll b (arguments.map (·.1))) :
    Supplies d (intrinsic f arguments ty) s b fun x b' => b'.Has x := by
  obtain ⟨⟨first, firstTy⟩, rest, rfl⟩ := List.exists_cons_of_ne_nil hne
  unfold intrinsic
  refine .ite (fun _ => .pure (h first (by simp))) fun _ => ?_
  split
  · exact supplies_apply (by split <;> simp) h
  · refine .bind supplies_bounds fun extra b1 h1 hextra =>
      .bind (.mapM has_mono fun a ha b' h' => ?_) fun values b2 h2 hvalues => ?_
    · have ha := h'.has (h1.has (h _ (List.mem_map_of_mem ha)))
      exact .ite (fun _ => supplies_splat ha) fun _ => .pure ha
    · refine .get_bind fun _ => supplies_result (by simp) ?_
      simpa using ⟨.inl (.inr rfl), hvalues.2, hextra.mono h2⟩

end Build
end Shading.Spirv
