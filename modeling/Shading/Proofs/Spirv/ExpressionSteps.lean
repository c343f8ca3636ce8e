import Shading.Proofs.Spirv.ComposedValue

/-! What holds of all plain steps, and is kept by sequences and by the two selections of
expressions, holds of the steps that write an expression. -/
namespace Shading.Spirv.Build

set_option synthInstance.maxSize 1000

variable {α β : Type} {P : Span → Prop}

/-! ### Types of results -/

lemma gives_memory {found : Option Access} {m : Build Nat} {ty : Ty} (hty : ty.Spanned P) :
    Gives P (match found with
      | some a => do return some (Target.memory (a.step (← m) ty))
      | none => pure none) fun found => ∀ t ∈ found, t.access.ty.Spanned P := by
  cases found with
  | none => exact .pure (by simp)
  | some a =>
    refine .bind fun i => .pure fun x hx => ?_
    obtain rfl := Option.some.inj hx
    exact hty

lemma gives_target? (e : Expr) (he : e.Spanned P) : Gives P (target? e) fun found =>
    ∀ t ∈ found, t.access.ty.Spanned P := by
  have hty : e.ty.Spanned P := he.root.2
  unfold target?
  cases e with
  | swizzle b mask ty span =>
    refine .bind_of (gives_target? b (he.part List.mem_cons_self)) fun found hfound => .pure fun t ht => ?_
    obtain ⟨u, hu, rfl⟩ := Option.map_eq_some_iff.mp ht
    rw [Target.access_select]
    exact hfound u hu
  | variable_ n ty span =>
    have : ty.Spanned P := hty
    refine .bind_of Composed.gives_variableAccess fun a ha => .pure fun x hx => ?_
    obtain rfl := Option.some.inj hx
    exact ha
  | field b i a ty span => exact .bind fun _ => gives_memory hty
  | index b i ty span => exact .bind fun _ => gives_memory hty
  | _ => exact .pure (by simp)

lemma gives_values {done : List (Nat × Ty)} {es : List Expr} (hdone : ∀ a ∈ done, a.2.Spanned P)
    (hes : ∀ e ∈ es, e.Spanned P) :
    Gives P (values done es) fun as => ∀ a ∈ as, a.2.Spanned P := by
  induction es generalizing done with
  | nil =>
    unfold values
    exact .pure fun a ha => hdone a (List.mem_reverse.mp ha)
  | cons e es ih =>
    rw [List.forall_mem_cons] at hes
    unfold values
    exact .bind fun v => ih (List.forall_mem_cons.mpr ⟨hes.1.root.2, hdone⟩) hes.2

lemma gives_pass {done : Passed} {ps : List Parameter} {es : List Expr} (hdone : done.Spanned P)
    (hps : ∀ p ∈ ps, p.ty.Spanned P)
    (hes : ∀ e ∈ es, e.Spanned P) : Gives P (pass done ps es) (Passed.Spanned P) := by
  induction es generalizing done ps with
  | nil =>
    unfold pass
    exact .pure hdone
  | cons e es ih =>
    rw [List.forall_mem_cons] at hes
    unfold pass
    cases ps with
    | nil => exact .pure hdone
    | cons p ps =>
      rw [List.forall_mem_cons] at hps
      refine .bind_of Composed.gives_temporary fun t ht => ?_
      have htemporary : t.ty.Spanned P := ht ▸ hps.1
      split
      · refine .bind_of (gives_target? e hes.1) fun found hfound => ?_
        cases found with
        | none => exact .bind fun _ => ih hdone hps.2 hes.2
        | some target =>
          have hrest : Gives P (pass ⟨t.base :: done.pointers, (t, target) :: done.returned⟩ ps es)
            (Passed.Spanned P) :=
            ih (List.forall_mem_cons.mpr ⟨⟨htemporary, hfound target rfl⟩, hdone⟩) hps.2 hes.2
          dsimp only
          split
          · exact .bind fun _ => .bind fun _ => hrest
          · exact hrest
      · exact .bind fun _ => .bind fun _ => ih hdone hps.2 hes.2

/-! ### Expressions -/

variable {K : ∀ {α : Type}, Build α → Prop}

/-- A property of steps that expressions have. -/
structure ExpressionSteps (P : Span → Prop) (K : ∀ {α : Type}, Build α → Prop) : Prop where
  plain : ∀ {α : Type} {m : Build α}, Composed Plain P m → K m
  bind_of : ∀ {α β : Type} {m : Build α} {f : α → Build β} {Q : α → Prop}, K m → Gives P m Q →
    (∀ a, Q a → K (f a)) → K (m >>= f)
  ask : ∀ {β : Type} {f : Setting → Build β}, (∀ s options, f (s.withOptions options) = f s) →
    (∀ s : Setting, s.program.Spanned P → K (f s)) → K (read >>= f)
  look : ∀ {β : Type} {f : Builder → Build β}, (∀ b names ids journal, f (b.rename names ids journal) = f b) →
    (∀ b : Builder, b.Spanned P → K (f b)) → K (get >>= f)
  shortCircuit : ∀ {op : Operator} {first : Nat} {right : Build Nat}, K right → K (shortCircuit op first right)
  choose : ∀ {condition : Nat} {left right : Build Nat} {ty : Ty}, ty.Spanned P → K left → K right →
    K (choose condition left right ty)

namespace ExpressionSteps

lemma bind (hK : ExpressionSteps P @K) {m : Build α} {f : α → Build β} (hm : K m)
    (hf : ∀ a, K (f a)) : K (m >>= f) :=
  hK.bind_of (Q := fun _ => True) hm (fun _ _ _ => trivial) fun a _ => hf a

lemma ite (_ : ExpressionSteps P @K) {p : Prop} [Decidable p] {m n : Build α} (hm : K m)
    (hn : K n) : K (if p then m else n) := by
  split <;> assumption

lemma onTarget (hK : ExpressionSteps P @K) {e : Expr} {f : Option Target → Build α}
    (hm : K (target? e)) (he : e.Spanned P)
    (hsome : ∀ t : Target, t.access.ty.Spanned P → K (f (some t))) (hnone : K (f none)) : K (target? e >>= f) := by
  refine hK.bind_of hm (gives_target? e he) fun found hfound => ?_
  cases found with
  | none => exact hnone
  | some t => exact hsome t (hfound t rfl)

mutual
lemma value (hK : ExpressionSteps P @K) (e : Expr) (he : e.Spanned P) : K (value e) := by
  have hty : e.ty.Spanned P := he.root.2
  unfold Build.value
  cases e with
  | literal v ty span =>
    replace hty : ty.Spanned P := hty
    exact hK.plain inferInstance
  | variable_ n ty span =>
    replace hty : ty.Spanned P := hty
    exact hK.plain (.bind_of inferInstance Composed.gives_variableAccess fun a ha => inferInstance)
  | poison ty span => exact hK.plain inferInstance
  | field b i a ty span =>
    replace hty : ty.Spanned P := hty
    have hb := he.part (x := b) List.mem_cons_self
    refine hK.bind (access? hK b hb) fun found => ?_
    cases found with
    | some a => exact hK.plain inferInstance
    | none => exact hK.bind (value hK b hb) fun _ => hK.plain inferInstance
  | index b i ty span =>
    replace hty : ty.Spanned P := hty
    have hb := he.part (x := b) List.mem_cons_self
    have hi := he.part (x := i) (List.mem_cons_of_mem _ List.mem_cons_self)
    have := hb.root.2
    refine hK.bind (access? hK b hb) fun found => ?_
    cases found with
    | some a => exact hK.bind (value hK i hi) fun _ => hK.plain inferInstance
    | none =>
      refine hK.bind (value hK b hb) fun whole => ?_
      split
      · exact hK.plain inferInstance
      · exact hK.bind (value hK i hi) fun _ => hK.plain inferInstance
  | swizzle b cs ty span =>
    replace hty : ty.Spanned P := hty
    exact hK.bind (value hK b (he.part List.mem_cons_self)) fun _ => hK.plain inferInstance
  | unary op x ty span =>
    replace hty : ty.Spanned P := hty
    have hx := he.part (x := x) List.mem_cons_self
    have := hx.root.2
    have happly (code : Op) (h : code.isCode = true) : K (do apply code ty [← Build.value x]) :=
      hK.bind (value hK x hx) fun _ => hK.plain (.apply h)
    have hstep : K (do
        match ← Build.target? x with
        | some target => return (← Build.step op target x.ty).2
        | none => refuse x : Build Nat) := by
      have := Composed.refuse hx.root.1
      exact hK.onTarget (target? hK x hx) hx (fun t ht => hK.plain inferInstance) (hK.plain inferInstance)
    cases op
    case sub => exact hK.bind (value hK x hx) fun _ => hK.plain inferInstance
    case logicalNot => exact happly .logicalNot rfl
    case bitNot => exact happly .not rfl
    case increment => exact hstep
    case decrement => exact hstep
    all_goals exact value hK x hx
  | step op x ty span =>
    have hx := he.part (x := x) List.mem_cons_self
    have := hx.root.2
    have := Composed.refuse hx.root.1
    exact hK.onTarget (target? hK x hx) hx (fun t ht => hK.plain inferInstance) (hK.plain inferInstance)
  | binary op l r ty span =>
    replace hty : ty.Spanned P := hty
    have hl := he.part (x := l) List.mem_cons_self
    have hr := he.part (x := r) (List.mem_cons_of_mem _ List.mem_cons_self)
    have := hl.root.2
    have := hr.root.2
    have := Composed.refuse hl.root.1
    refine hK.ite (hK.bind (value hK l hl) fun _ => value hK r hr)
      (hK.ite (hK.onTarget (target? hK l hl) hl (fun t ht => ?_) ?_) ?_)
    · refine hK.ite (hK.bind (value hK r hr) fun _ => hK.plain inferInstance) ?_
      exact hK.bind (hK.plain inferInstance) fun _ => hK.bind (value hK r hr) fun _ => hK.plain inferInstance
    · exact hK.plain inferInstance
    · refine hK.ask (fun _ _ => rfl) fun s _ =>
        hK.ite (hK.bind (value hK l hl) fun _ => hK.shortCircuit (value hK r hr)) ?_
      refine hK.bind (value hK l hl) fun _ => hK.bind (value hK r hr) fun _ => hK.plain ?_
      have hlogical (vs : List Nat) : Composed Plain P (apply (logicalOp op) ty vs) :=
        .apply (by unfold logicalOp; split <;> rfl)
      infer_instance
  | conditional c t f ty span =>
    replace hty : ty.Spanned P := hty
    have hc := value hK c (he.part (by simp [Expr.parts]))
    have ht := value hK t (he.part (by simp [Expr.parts]))
    have hf := value hK f (he.part (by simp [Expr.parts]))
    refine hK.ask (fun _ _ => rfl) fun s _ => hK.bind hc fun _ => hK.ite ?_ (hK.choose hty ht hf)
    exact hK.bind ht fun _ => hK.bind hf fun _ => hK.plain (.bind inferInstance fun _ => .apply rfl)
  | construct kind as ty span =>
    replace hty : ty.Spanned P := hty
    have has : ∀ x ∈ as, x.Spanned P := fun x hx => he.part hx
    exact hK.bind_of (values hK [] as has) (gives_values (by simp) has) fun vs hvs => hK.plain (.construct hvs)
  | call f as ty span =>
    replace hty : ty.Spanned P := hty
    have has : ∀ x ∈ as, x.Spanned P := fun x hx => he.part hx
    refine hK.ask (fun _ _ => rfl) fun s hs => ?_
    dsimp only
    split
    · exact hK.bind (values hK [] as has) fun _ => hK.plain inferInstance
    · refine hK.look (fun _ _ _ _ => rfl) fun b _ => ?_
      split
      · exact hK.plain inferInstance
      · have hps := (hs.functions f).2
        exact hK.bind_of (pass hK {} _ as hps has) (gives_pass (List.forall_mem_nil _) hps has)
          fun _ hpassed => hK.plain (.finishCall hpassed)
lemma access? (hK : ExpressionSteps P @K) (e : Expr) (he : e.Spanned P) : K (access? e) := by
  unfold Build.access?
  cases e with
  | field b i a ty span =>
    exact hK.bind (access? hK b (he.part List.mem_cons_self)) fun found =>
      hK.plain (by cases found <;> infer_instance)
  | index b i ty span =>
    refine hK.bind (access? hK b (he.part List.mem_cons_self)) fun found => ?_
    cases found with
    | some a => exact hK.bind (value hK i (he.part (by simp [Expr.parts]))) fun _ => hK.plain inferInstance
    | none => exact hK.plain inferInstance
  | _ => exact hK.plain inferInstance
lemma target? (hK : ExpressionSteps P @K) (e : Expr) (he : e.Spanned P) : K (target? e) := by
  unfold Build.target?
  cases e with
  | swizzle b cs ty span =>
    exact hK.bind (target? hK b (he.part List.mem_cons_self)) fun _ => hK.plain inferInstance
  | field b i a ty span =>
    exact hK.bind (access? hK b (he.part List.mem_cons_self)) fun found =>
      hK.plain (by cases found <;> infer_instance)
  | index b i ty span =>
    refine hK.bind (access? hK b (he.part List.mem_cons_self)) fun found => ?_
    cases found with
    | some a => exact hK.bind (value hK i (he.part (by simp [Expr.parts]))) fun _ => hK.plain inferInstance
    | none => exact hK.plain inferInstance
  | _ => exact hK.plain inferInstance
lemma values (hK : ExpressionSteps P @K) (done : List (Nat × Ty)) (es : List Expr)
    (hes : ∀ e ∈ es, e.Spanned P) : K (values done es) := by
  unfold Build.values
  cases es with
  | nil => exact hK.plain inferInstance
  | cons e es =>
    rw [List.forall_mem_cons] at hes
    exact hK.bind (value hK e hes.1) fun v => values hK ((v, e.ty) :: done) es hes.2
lemma pass (hK : ExpressionSteps P @K) (done : Passed) (ps : List Parameter) (es : List Expr)
    (hps : ∀ p ∈ ps, p.ty.Spanned P)
    (hes : ∀ e ∈ es, e.Spanned P) : K (pass done ps es) := by
  unfold Build.pass
  cases es with
  | nil => exact hK.plain inferInstance
  | cons e es =>
    cases ps with
    | nil => exact hK.plain inferInstance
    | cons p ps =>
      rw [List.forall_mem_cons] at hes hps
      have hp := hps.1
      have := hes.1.root.2
      refine hK.bind_of (hK.plain inferInstance) Composed.gives_temporary fun t ht => ?_
      have : t.ty.Spanned P := ht ▸ hp
      refine hK.ite (hK.onTarget (target? hK e hes.1) hes.1 (fun target htarget => ?_) ?_) ?_
      · refine hK.ite ?_ (pass hK _ ps es hps.2 hes.2)
        exact hK.bind (hK.plain inferInstance) fun _ => hK.bind (hK.plain inferInstance) fun _ =>
          pass hK _ ps es hps.2 hes.2
      · have := Composed.refuse hes.1.root.1
        exact hK.bind (hK.plain inferInstance) fun _ => pass hK done ps es hps.2 hes.2
      · exact hK.bind (value hK e hes.1) fun _ => hK.bind (hK.plain inferInstance) fun _ =>
          pass hK _ ps es hps.2 hes.2
end

lemma forIn (hK : ExpressionSteps P @K) {f : α → β → Build (ForInStep β)} {as : List α}
    (hf : ∀ a ∈ as, ∀ b, K (f a b)) (b : β) :
    K (forIn as b f) := by
  induction as generalizing b with
  | nil => exact hK.plain (by rw [List.forIn_nil]; infer_instance)
  | cons a as ih =>
    rw [List.forall_mem_cons] at hf
    rw [List.forIn_cons]
    refine hK.bind (hf.1 b) fun r => ?_
    cases r with
    | done b => exact hK.plain inferInstance
    | yield b => exact ih hf.2 b

instance : Composed Outside P (modify fun b => { b with deferred := [] } : Build Unit) :=
  .notes ⟨fun _ => rfl, fun _ _ _ _ => rfl, fun _ hb => ⟨hb.span, hb.reports, by simp⟩⟩ (fun _ => rfl) fun _ => rfl

lemma runDeferred (hK : ExpressionSteps P @K) : K runDeferred := by
  unfold Build.runDeferred
  refine hK.look (fun _ _ _ _ => rfl) fun b hb => hK.bind (hK.plain inferInstance) fun _ =>
    hK.bind (hK.forIn (fun d hd _ => ?_) _) fun _ =>
    hK.plain inferInstance
  have hd := hb.deferred d (List.mem_reverse.mp hd)
  have := hd.root.2
  exact hK.bind (value hK d.2 hd) fun v => hK.plain
    (.bind_of inferInstance Composed.gives_variableAccess fun a ha => inferInstance)

end ExpressionSteps
end Shading.Spirv.Build
