import Shading.Proofs.Grammar.Source
import Shading.Proofs.Spirv.SupplyValue

/-! Expressions and statements of a program without problems are written in order. -/
namespace Shading

lemma Program.Sound.function {p : Program} {f : Nat} {g : Function} (h : p.Sound)
    (hg : p.functions.get? f = some g) : g.Sound := by
  unfold Arena.get? at hg
  split at hg
  · rw [h.base] at hg
    exact Intrinsic.sound_of_mem_signatures (List.mem_of_getElem? (by simpa using hg))
  · exact (h.items g (Array.mem_of_getElem? hg)).2

namespace Spirv

set_option synthInstance.maxSize 1000

open Builder (Extends Ordered IsGlobal IsTaken IsFunction Has)

namespace Build

variable {d : Declared} {s : Setting} {b : Builder} {op : Op} {ty : Ty} {x : Nat} {xs : List Nat}

/-! ### Blocks -/

lemma supplies_label {l : Nat} : Supplies d (label l) s b fun _ _ => True := by
  refine .of_eq fun b hb => ?_
  have hcode : ({ b with body := { b.body with code := { op := .label, result := l } :: b.body.code } } :
    Builder).Ordered d :=
    hb.code nofun nofun
  exact hcode.congr (Nat.le_refl _) rfl rfl rfl rfl ⟨rfl, rfl⟩ ⟨rfl, rfl⟩ rfl ⟨rfl, rfl⟩

lemma supplies_body {f : Body → Body} (h : ∀ body, (f body).header = body.header ∧
    (f body).locals = body.locals ∧ (f body).code = body.code) :
    Supplies d (modify fun b => { b with body := f b.body }) s b fun _ _ => True := by
  refine .of_eq fun b hb => hb.congr (Nat.le_refl _) rfl rfl rfl ?_ ⟨rfl, rfl⟩ ⟨rfl, rfl⟩ rfl ⟨rfl, rfl⟩
  obtain ⟨hheader, hlocals, hcode⟩ := h b.body
  change (f b.body).code ++ ((f b.body).locals ++ ((f b.body).header ++ b.functions)) = _
  rw [hheader, hlocals, hcode, Builder.text]

lemma supplies_terminate {operands : List Operand} (hop : op ≠ .functionCall)
    (h : HasAll b (Instruction.needs { op, operands })) :
    Supplies d (terminate op operands) s b fun _ _ => True := by
  have hclose := IsGrowing.of_body (f := fun body => { body with block := none }) (fun _ => rfl)
    (fun _ => rfl) fun _ => rfl
  exact .bind (supplies_emit hop h) fun _ _ _ _ =>
    supplies_body (f := fun body => { body with block := none }) fun _ => ⟨rfl, rfl, rfl⟩

lemma supplies_openBlock? : Supplies d openBlock? s b fun _ _ => True := .get_bind fun _ => .pure trivial

lemma supplies_branch {target : Nat} : Supplies d (branch target) s b fun _ _ => True := by
  refine .bind_of (fun block => by cases block <;> infer_instance) supplies_openBlock? fun block b1 _ _ => ?_
  cases block with
  | none => exact .pure trivial
  | some _ => exact .bind (supplies_terminate nofun nofun) fun _ _ _ _ => .pure trivial

lemma supplies_branchOn {condition whenTrue whenFalse : Nat} (h : b.Has condition) :
    Supplies d (branchOn condition whenTrue whenFalse) s b fun _ _ => True :=
  supplies_terminate nofun (by simpa [Instruction.needs, Instruction.ids, Operand.ids, Operand.id?] using h)

lemma supplies_selectionMerge {merge : Nat} : Supplies d (selectionMerge merge) s b fun _ _ =>
    True := supplies_emit nofun nofun

/-! ### Parts of expressions -/

lemma supplies_step {o : Operator} {target : Target} (h : TargetWithin b target) :
    Supplies d (step o target ty) s b fun p b' => b'.Has p.1 ∧ b'.Has p.2 := by
  refine .bind (supplies_loadTarget h) fun old b1 h1 hold => .bind supplies_splatConstant fun one b2 h2 hone => ?_
  refine .bind (supplies_arithmetic (h2.has hold) hone.has) fun new b3 h3 hnew => ?_
  have hlater := h2.trans h3
  refine .bind (supplies_storeTarget (h.mono (h1.trans hlater)) hnew) fun _ b4 h4 _ => .pure ⟨?_, h4.has hnew⟩
  exact h4.has (hlater.has hold)

/-- Only the values have to be there, and not the blocks that they come from. -/
lemma supplies_phi {ways : List (Nat × Nat)} (h : HasAll b (ways.map (·.1))) :
    Supplies d (phi ty ways) s b fun x b' => b'.Has x := by
  refine supplies_result_of (fun x hx => h x ?_) (by simp)
  have hids (xs : List Nat) : Instruction.ids { op := .phi, operands := Operand.ids xs } =
    xs := Operand.used_ids _
  rw [← Instruction.evens_flatMap]
  simpa [Instruction.needs, hids] using hx

lemma supplies_dynamicElement {base : Ty} {index : Nat} (hx : b.Has x) (hindex : b.Has index) :
    Supplies d (dynamicElement x base index ty) s b fun y b' => b'.Has y := by
  refine .ite (fun _ => supplies_apply nofun (by simpa using ⟨hx, hindex⟩)) fun _ => ?_
  refine .bind supplies_temporary fun t b1 h1 ht => .bind (supplies_store ht (h1.has hx)) fun _ b2 h2 _ => ?_
  exact supplies_load ((ht.mono h2).step (h2.has (h1.has hindex)))

lemma supplies_selector {condition : Nat} (h : b.Has condition) :
    Supplies d (selector condition ty) s b fun y b' => b'.Has y := by
  unfold selector
  split
  · exact supplies_splat h
  · exact .pure h

lemma supplies_shortCircuit {o : Operator} {first : Nat} {right : Build Nat} [IsGrowing right]
    (hfirst : b.Has first)
    (hright : ∀ b', Extends b b' → Supplies d right s b' fun x b' => b'.Has x) :
    Supplies d (shortCircuit o first right) s b fun x b' => b'.Has x := by
  unfold shortCircuit
  dsimp only
  refine .bind supplies_openBlock? fun start b1 h1 _ => ?_
  refine .bind .fresh fun other b2 h2 _ => ?_
  refine .bind .fresh fun merge b3 h3 _ => ?_
  refine .bind supplies_selectionMerge fun _ b4 h4 _ => ?_
  have hlater := ((h1.trans h2).trans h3).trans h4
  refine .ite_bind (P := fun _ _ => True) (.ite (fun _ => supplies_branchOn (hlater.has hfirst))
    fun _ => supplies_branchOn (hlater.has hfirst)) ?_
  refine fun _ b5 h5 _ => .bind supplies_label fun _ b6 h6 _ => ?_
  have hbranch := (hlater.trans h5).trans h6
  refine .bind (hright b6 hbranch) fun second b7 h7 hsecond => .bind supplies_openBlock? fun stop b8 h8 _ => ?_
  refine .bind supplies_branch fun _ b9 h9 _ => .bind supplies_label fun _ b' h' _ => supplies_phi ?_
  have hend := (h8.trans h9).trans h'
  simpa using ⟨(h7.trans hend).has (hbranch.has hfirst), hend.has hsecond⟩

lemma supplies_choose {condition : Nat} {left right : Build Nat} [IsGrowing left] [IsGrowing right]
    (hcondition : b.Has condition)
    (hleft : ∀ b', Extends b b' → Supplies d left s b' fun x b' => b'.Has x)
    (hright : ∀ b', Extends b b' → Supplies d right s b' fun x b' => b'.Has x) :
    Supplies d (choose condition left right ty) s b fun x b' => b'.Has x := by
  unfold choose
  dsimp only
  refine .bind .fresh fun whenTrue b1 h1 _ => .bind .fresh fun whenFalse b2 h2 _ =>
    .bind .fresh fun merge b3 h3 _ => ?_
  refine .bind supplies_selectionMerge fun _ b4 h4 _ => ?_
  have hstart := ((h1.trans h2).trans h3).trans h4
  refine .bind (supplies_branchOn (hstart.has hcondition)) fun _ b5 h5 _ =>
    .bind supplies_label fun _ b6 h6 _ => ?_
  have htrue := (hstart.trans h5).trans h6
  refine .bind (hleft b6 htrue) fun a b7 h7 ha => .bind supplies_openBlock? fun aStop b8 h8 _ => ?_
  refine .bind supplies_branch fun _ b9 h9 _ => .bind supplies_label fun _ b10 h10 _ => ?_
  have hbetween := (h8.trans h9).trans h10
  refine .bind (hright b10 ((htrue.trans h7).trans hbetween)) fun c b11 h11 hc =>
    .bind supplies_openBlock? fun bStop b12 h12 _ => ?_
  refine .bind supplies_branch fun _ b13 h13 _ => .bind supplies_label fun _ b14 h14 _ => supplies_phi ?_
  have hend := (h12.trans h13).trans h14
  simpa using ⟨((hbetween.trans h11).trans hend).has ha, hend.has hc⟩

/-- The arguments that have been computed may be used. -/
def PassedWithin (b : Builder) (p : Passed) : Prop := HasAll b p.pointers ∧
    ∀ r ∈ p.returned, Within b r.1 ∧ TargetWithin b r.2

lemma PassedWithin.mono {b' : Builder} {p : Passed} (h : PassedWithin b p) (hb : Extends b b') :
    PassedWithin b' p :=
  ⟨h.1.mono hb, fun r hr => ⟨(h.2 r hr).1.mono hb, (h.2 r hr).2.mono hb⟩⟩

lemma supplies_finishCall {callee : Nat} {passed : Passed} (hcallee : b.IsFunction callee)
    (h : PassedWithin b passed) :
    Supplies d (finishCall callee passed ty) s b fun x b' => b'.Has x := by
  have hids : Instruction.ids { op := .functionCall, operands := Operand.ids (callee :: passed.pointers.reverse) } =
      callee :: passed.pointers.reverse := Operand.used_ids _
  refine .bind (supplies_result_of (fun x hx => ?_) fun f hf => ?_) fun id b1 h1 hid => ?_
  · exact h.1 x (by simpa [Instruction.needs, hids] using hx)
  · obtain rfl : callee = f := by simpa [Instruction.callee?, hids] using hf
    exact hcallee
  · refine .bind (.forIn fun r hr _ b' h' => ?_) fun _ b2 h2 _ => .pure (h2.has hid)
    obtain ⟨hsource, htarget⟩ := (h.mono (h1.trans h')).2 r (List.mem_reverse.mp hr)
    exact .bind (supplies_load hsource) fun v b3 h3 hv =>
      .bind (supplies_storeTarget (htarget.mono h3) hv) fun _ _ _ _ => .pure trivial

lemma supplies_refuse {e : Expr} {Q : Nat → Builder → Prop} : Supplies d (refuse e) s b Q := .reportAt_bind

/-! ### Expressions -/

lemma args_ne_nil {g : Function} {as : List Expr} (hg : g.parameterTypes ≠ [])
    (htakes : g.Takes (as.map Expr.ty) ty) : as ≠ [] := by
  obtain ⟨choice, hparameters, -⟩ := htakes
  rintro rfl
  obtain ⟨t, ts, hts⟩ := List.exists_cons_of_ne_nil hg
  rw [hts, List.mapM_cons] at hparameters
  cases hfirst : Overload.bindGeneric choice t <;> cases hrest :
    ts.mapM (Overload.bindGeneric choice) <;> simp [hfirst, hrest] at hparameters

lemma supplies_stepInto {α : Type} {e : Expr} {index : Build Nat} [IsGrowing index] {f : Access → α}
    {Q : Builder → α → Prop}
    (hf : ∀ b a, Within b a → Q b (f a)) (haccess : Supplies d (access? e) s b fun found b' =>
    ∀ a ∈ found, Within b' a)
    (hindex : ∀ b', Supplies d index s b' fun x b' => b'.Has x) :
    Supplies d (do
      match ← access? e with
      | some a => return some (f (a.step (← index) ty))
      | none => return none) s b fun found b' => ∀ t ∈ found, Q b' t := by
  refine .bind_of (fun found => by cases found <;> infer_instance) haccess fun found b1 h1 hfound => ?_
  cases found with
  | some a =>
    refine .bind (hindex b1) fun index b2 h2 hindex => .pure fun t ht => ?_
    obtain rfl := Option.some.inj ht
    exact hf b2 _ (((hfound a rfl).mono h2).step hindex)
  | none => exact .pure nofun

lemma supplies_fieldIndex {i : Nat} (b : Builder) : Supplies d (intConstant i) s b fun x b' => b'.Has x :=
  .weaken supplies_intConstant fun _ _ hx => hx.has

lemma supplies_stepTarget {o : Operator} {e : Expr} {f : Nat × Nat → Nat} (hf : ∀ p, f p = p.1 ∨ f p = p.2)
    (htarget : Supplies d (target? e) s b fun found b' => ∀ t ∈ found, TargetWithin b' t) :
    Supplies d (do
      match ← target? e with
      | some target => return f (← step o target e.ty)
      | none => refuse e) s b fun x b' => b'.Has x := by
  refine .bind_of (fun found => by cases found <;> infer_instance) htarget fun found b1 h1 hfound => ?_
  cases found with
  | none => exact supplies_refuse
  | some target =>
    refine .bind (supplies_step (hfound target rfl)) fun p b2 _ hp => .pure ?_
    obtain h | h := hf p
    · exact h ▸ hp.1
    · exact h ▸ hp.2

/-- An assignment, given how to find its target and how to compute what is assigned. -/
lemma supplies_assign {l r : Expr} {o : Operator}
    (htarget : Supplies d (target? l) s b fun found b' => ∀ t ∈ found, TargetWithin b' t)
    (hright : ∀ b', Supplies d (value r) s b' fun x b' => b'.Has x) :
    Supplies d (do
      match ← target? l with
      | none => refuse l
      | some target =>
        if o = .assign then
          let new ← value r
          storeTarget target new
          return new
        else
          let old ← loadTarget target l.ty
          let change ← value r
          let new ← arithmetic o.underlying old l.ty change r.ty l.ty
          storeTarget target new
          return new) s b fun x b' => b'.Has x := by
  refine .bind_of (fun found => by cases found <;> infer_instance) htarget fun found b1 h1 hfound => ?_
  cases found with
  | none => exact supplies_refuse
  | some target =>
    have htarget := hfound target rfl
    refine .ite (fun _ => ?_) fun _ => ?_
    · refine .bind (hright b1) fun new b2 h2 hnew =>
        .bind (supplies_storeTarget (htarget.mono h2) hnew) fun _ b3 h3 _ => .pure (h3.has hnew)
    · refine .bind (supplies_loadTarget htarget) fun old b2 h2 hold =>
        .bind (hright b2) fun change b3 h3 hchange => ?_
      refine .bind (supplies_arithmetic (h3.has hold) hchange) fun new b4 h4 hnew => ?_
      refine .bind (supplies_storeTarget (htarget.mono ((h2.trans h3).trans h4)) hnew)
        fun _ b5 h5 _ => .pure (h5.has hnew)

mutual
lemma supplies_value (hp : s.program.Sound) (e : Expr) (hwell : e.WellTyped s.program.declared) (b : Builder) :
    Supplies s.program.declared (value e) s b fun x b' => b'.Has x := by
  obtain ⟨-, hrule, hparts⟩ := Expr.wellTyped_iff.mp hwell
  unfold value
  cases e with
  | literal v ty span => exact .weaken supplies_constant fun _ _ hx => hx.has
  | variable_ n ty span => exact .bind supplies_variableAccess fun a _ _ ha => supplies_load ha
  | poison ty span => exact hrule.elim
  | field e i a ty span =>
    have he := hparts e List.mem_cons_self
    refine .bind_of (fun found => by cases found <;> infer_instance) (supplies_access? hp e he b)
      fun found b1 h1 hfound => ?_
    cases found with
    | some a =>
      exact .bind supplies_intConstant fun index b2 h2 hindex =>
        supplies_load (((hfound a rfl).mono h2).step hindex.has)
    | none => exact .bind (supplies_value hp e he b1) fun whole _ _ hwhole => supplies_extract hwhole
  | index e i ty span =>
    have he := hparts e List.mem_cons_self
    have hi := hparts i (by simp [Expr.parts])
    refine .bind_of (fun found => ?_) (supplies_access? hp e he b) fun found b1 h1 hfound => ?_
    · cases found with
      | some a => infer_instance
      | none => exact @IsGrowing.bind _ _ _ _ inferInstance fun _ => by split <;> infer_instance
    cases found with
    | some a =>
      exact .bind (supplies_value hp i hi b1) fun index b2 h2 hindex =>
        supplies_load (((hfound a rfl).mono h2).step hindex)
    | none =>
      refine .bind_of (fun _ => by split <;> infer_instance) (supplies_value hp e he b1)
        fun whole b2 _ hwhole => ?_
      split
      · exact supplies_extract hwhole
      · exact .bind (supplies_value hp i hi b2) fun index b3 h3 hindex =>
          supplies_dynamicElement (h3.has hwhole) hindex
  | swizzle e cs ty span =>
    refine .bind (supplies_value hp e (hparts e List.mem_cons_self) b) fun whole b1 _ hwhole =>
      .ite (fun _ => ?_) fun _ => supplies_swizzle hwhole
    exact .ite (fun _ => .pure hwhole) fun _ => supplies_splat hwhole
  | unary op e ty span =>
    have he := hparts e List.mem_cons_self
    have happly (code : Op) (hcode : code ≠ .functionCall) :
        Supplies s.program.declared (do apply code ty [← value e]) s b fun x b' => b'.Has x :=
      .bind (supplies_value hp e he b) fun v _ _ hv => supplies_apply hcode (by simpa using hv)
    cases op
    case sub => exact .bind (supplies_value hp e he b) fun v _ _ hv => supplies_negate hv
    case logicalNot => exact happly .logicalNot nofun
    case bitNot => exact happly .not nofun
    case increment => exact supplies_stepTarget (f := Prod.snd) (fun _ => .inr rfl) (supplies_target? hp e he b)
    case decrement => exact supplies_stepTarget (f := Prod.snd) (fun _ => .inr rfl) (supplies_target? hp e he b)
    all_goals exact supplies_value hp e he b
  | step op e ty span =>
    exact supplies_stepTarget (f := Prod.fst) (fun _ => .inl rfl)
      (supplies_target? hp e (hparts e List.mem_cons_self) b)
  | binary op l r ty span =>
    have hl := hparts l List.mem_cons_self
    have hr := hparts r (by simp [Expr.parts])
    refine .ite (fun _ => .bind (supplies_value hp l hl b) fun _ b1 _ _ => supplies_value hp r hr b1) fun _ => ?_
    refine .ite (fun _ => supplies_assign (supplies_target? hp l hl b) fun b' =>
      supplies_value hp r hr b') fun _ => .read_bind (.ite (fun _ => ?_) fun _ => ?_)
    · exact .bind (supplies_value hp l hl b) fun
        first b1 _ hfirst => supplies_shortCircuit hfirst fun b' _ => supplies_value hp r hr b'
    · refine .bind (supplies_value hp l hl b) fun x b1 _ hx =>
        .bind (supplies_value hp r hr b1) fun y b2 h2 hy => ?_
      refine .ite (fun _ => supplies_apply (by unfold logicalOp; split <;> nofun)
        (by simpa using ⟨h2.has hx, hy⟩)) fun _ => ?_
      exact .ite (fun _ => supplies_compare (h2.has hx) hy) fun _ => supplies_arithmetic (h2.has hx) hy
  | conditional c t f ty span =>
    have ht := hparts t (by simp [Expr.parts])
    have hf := hparts f (by simp [Expr.parts])
    refine .read_bind (.bind (supplies_value hp c (hparts c List.mem_cons_self) b)
      fun condition b1 h1 hcondition => .ite (fun _ => ?_) fun _ => ?_)
    · refine .bind (supplies_value hp t ht b1) fun x b2 h2 hx =>
        .bind (supplies_value hp f hf b2) fun y b3 h3 hy => ?_
      refine .bind (supplies_selector ((h2.trans h3).has hcondition))
        fun selector b4 h4 hselector => supplies_apply nofun ?_
      simpa using ⟨hselector, h4.has (h3.has hx), h4.has hy⟩
    · exact supplies_choose hcondition (fun b' _ => supplies_value hp t ht b') fun b' _ =>
        supplies_value hp f hf b'
  | construct kind as ty span =>
    refine .bind (supplies_values hp [] as hparts hasAll_nil) fun vs b1 _ ⟨hvs, htypes⟩ => ?_
    have htypes : vs.map (·.2) = as.map Expr.ty := htypes
    refine supplies_construct ?_ (htypes ▸ hrule.2) hvs
    rintro rfl
    exact hrule.1 (List.map_eq_nil_iff.mp htypes.symm)
  | call f as ty span =>
    obtain ⟨-, g, hg, htakes⟩ := hrule
    have hfunction : s.program.functionAt f = g := by
      rw [Program.functionAt, show s.program.functions.get? f = some g from hg, Option.getD_some]
    refine .read_bind ?_
    dsimp only
    rw [hfunction]
    split
    · rename_i i hi
      refine .bind (supplies_values hp [] as hparts hasAll_nil) fun vs b1 _ ⟨hvs, htypes⟩ =>
        supplies_intrinsic ?_ hvs
      have htypes : vs.map (·.2) = as.map Expr.ty := htypes
      rintro rfl
      exact args_ne_nil ((hp.function hg).intrinsic (by rw [hi]; rfl)) htakes (List.map_eq_nil_iff.mp htypes.symm)
    · refine .get_bind fun _ => ?_
      split
      · exact .report_bind
      · rename_i callee hcallee
        refine .bind (supplies_pass hp {} g.parameters as hparts ⟨hasAll_nil, nofun⟩)
          fun passed b1 h1 hpassed => ?_
        exact supplies_finishCall (h1.isFunction ⟨f, hcallee⟩) hpassed
lemma supplies_access? (hp : s.program.Sound) (e : Expr) (hwell : e.WellTyped s.program.declared) (b : Builder) :
    Supplies s.program.declared (access? e) s b fun found b' => ∀ a ∈ found, Within b' a := by
  obtain ⟨-, -, hparts⟩ := Expr.wellTyped_iff.mp hwell
  unfold access?
  cases e with
  | variable_ n ty span => exact .bind supplies_variableAccess fun a _ _ ha => .pure (by simpa using ha)
  | field e i a ty span =>
    exact supplies_stepInto (f := id) (fun _ _ h => h)
      (supplies_access? hp e (hparts e List.mem_cons_self) b) supplies_fieldIndex
  | index e i ty span =>
    exact supplies_stepInto (f := id) (fun _ _ h => h) (supplies_access? hp e (hparts e List.mem_cons_self) b)
      fun b' => supplies_value hp i (hparts i (by simp [Expr.parts])) b'
  | _ => exact .pure nofun
lemma supplies_target? (hp : s.program.Sound) (e : Expr) (hwell : e.WellTyped s.program.declared) (b : Builder) :
    Supplies s.program.declared (target? e) s b fun found b' => ∀ t ∈ found, TargetWithin b' t := by
  obtain ⟨-, -, hparts⟩ := Expr.wellTyped_iff.mp hwell
  unfold target?
  cases e with
  | swizzle e cs ty span =>
    refine .bind (supplies_target? hp e (hparts e List.mem_cons_self) b) fun found b1 _ hfound =>
      .pure fun t ht => ?_
    obtain ⟨whole, hwhole, rfl⟩ := Option.map_eq_some_iff.mp ht
    exact (hfound whole hwhole).select
  | variable_ n ty span =>
    exact .bind supplies_variableAccess fun a _ _ ha => .pure (by simpa [TargetWithin] using ha)
  | field e i a ty span =>
    exact supplies_stepInto (f := Target.memory) (fun _ _ h => h)
      (supplies_access? hp e (hparts e List.mem_cons_self) b) supplies_fieldIndex
  | index e i ty span =>
    exact supplies_stepInto (f := Target.memory) (fun _ _ h => h)
      (supplies_access? hp e (hparts e List.mem_cons_self) b)
      fun b' => supplies_value hp i (hparts i (by simp [Expr.parts])) b'
  | _ => exact .pure nofun
lemma supplies_values {b : Builder} (hp : s.program.Sound) (done : List (Nat × Ty)) (es : List Expr)
    (hes : ∀ e ∈ es, e.WellTyped s.program.declared) (hdone : HasAll b (done.map (·.1))) :
    Supplies s.program.declared (values done es) s b fun vs b' =>
      HasAll b' (vs.map (·.1)) ∧ vs.map (·.2) = done.reverse.map (·.2) ++ es.map Expr.ty := by
  unfold values
  cases es with
  | nil => exact .pure ⟨by simpa [HasAll] using hdone, by simp⟩
  | cons e es =>
    rw [List.forall_mem_cons] at hes
    refine .bind (supplies_value hp e hes.1 b) fun v b1 h1 hv => ?_
    refine .weaken (supplies_values hp ((v, e.ty) :: done) es hes.2 ?_) fun vs b' h => ⟨h.1, by simpa using h.2⟩
    exact hasAll_cons.mpr ⟨hv, hdone.mono h1⟩
lemma supplies_pass {b : Builder} (hp : s.program.Sound) (done : Passed)
    (parameters : List Parameter) (es : List Expr)
    (hes : ∀ e ∈ es, e.WellTyped s.program.declared) (hdone : PassedWithin b done) :
    Supplies s.program.declared (pass done parameters es) s b fun passed b' => PassedWithin b' passed := by
  unfold pass
  cases es with
  | nil => exact .pure hdone
  | cons e es =>
    rw [List.forall_mem_cons] at hes
    cases parameters with
    | nil => exact .pure hdone
    | cons p ps =>
      refine .bind_of (fun t => ?_) supplies_temporary fun t b1 h1 ht => .ite (fun _ => ?_) fun _ => ?_
      · split
        · exact @IsGrowing.bind _ _ _ _ inferInstance fun found => by cases found <;> infer_instance
        · infer_instance
      · refine .bind_of (fun found => by cases found <;> infer_instance)
          (supplies_target? hp e hes.1 b1) fun found b2 h2 hfound => ?_
        have hlater := h1.trans h2
        cases found with
        | none => exact .bind (P := fun _ _ => False) supplies_refuse fun _ _ _ h => h.elim
        | some target =>
          have htarget := hfound target rfl
          have hnext {b' : Builder} (h' : Extends b2 b') :
            PassedWithin b' ⟨t.base :: done.pointers, (t, target) :: done.returned⟩ := by
            have hdone' := hdone.mono (hlater.trans h')
            have ht' := ht.mono (h2.trans h')
            exact ⟨hasAll_cons.mpr ⟨ht'.1, hdone'.1⟩, List.forall_mem_cons.mpr ⟨⟨ht', htarget.mono h'⟩, hdone'.2⟩⟩
          refine .ite (fun _ => ?_) fun _ => supplies_pass hp _ ps es hes.2 (hnext (.refl b2))
          refine .bind (supplies_loadTarget htarget) fun v b3 h3 hv =>
            .bind (supplies_store (ht.mono (h2.trans h3)) hv) fun _ b4 h4 _ => ?_
          exact supplies_pass hp _ ps es hes.2 (hnext (h3.trans h4))
      · refine .bind (supplies_value hp e hes.1 b1) fun v b2 h2 hv =>
          .bind (supplies_store (ht.mono h2) hv) fun _ b3 h3 _ => ?_
        have hdone' := hdone.mono ((h1.trans h2).trans h3)
        exact supplies_pass hp _ ps es hes.2 ⟨hasAll_cons.mpr ⟨((ht.mono h2).mono h3).1, hdone'.1⟩, hdone'.2⟩
end

end Build
end Spirv
end Shading
