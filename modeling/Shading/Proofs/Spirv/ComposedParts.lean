import Shading.Proofs.Spirv.ExpressionSteps

/-! Expressions, statements, declarations and functions are put together from elementary steps, and
so is a module. -/
namespace Shading.Spirv.Build

set_option synthInstance.maxSize 1000

variable {α : Type} {P : Span → Prop}

namespace Composed

/-! ### Blocks -/

lemma push {i : Instruction} (h : i.op.isShared = false) : Composed Inner P (push i) := .elementary (.push h)

lemma body {f : Body → Body} (hheader : ∀ body, (f body).header = body.header)
    (hlocals : ∀ body, (f body).locals = body.locals)
    (hcode : ∀ body, (f body).code = body.code) :
    Composed Inner P (modify fun b => { b with body := f b.body } : Build Unit) := by
  refine .elementary (.modify ⟨fun b => ?_, fun _ _ _ _ => rfl, fun _ hb =>
    ⟨hb.span, hb.reports, hb.deferred⟩⟩ fun b => ?_)
  · simp only [Builder.content, hheader, hlocals, hcode]
  · simp only [Builder.outer, hheader]

instance : Composed Outside P openBlock? := .look (fun _ _ _ _ => rfl) fun b _ => .pure b.body.block

instance (l : Nat) : Composed Inner P (label l) := by
  have hopen := body (P := P) (f := fun body => { body with block := some l }) (fun _ => rfl)
    (fun _ => rfl) fun _ => rfl
  exact .bind (push (i := { op := .label, result := l }) rfl) fun _ => hopen

lemma terminate {op : Op} {operands : List Operand} (h : op.isShared = false) :
    Composed Inner P (terminate op operands) := by
  have hclose := body (P := P) (f := fun body => { body with block := none }) (fun _ => rfl)
    (fun _ => rfl) fun _ => rfl
  exact .bind (push (i := { op, operands }) h) fun _ => hclose

instance (condition whenTrue whenFalse : Nat) :
    Composed Inner P (branchOn condition whenTrue whenFalse) := terminate rfl

instance (merge : Nat) : Composed Inner P (selectionMerge merge) :=
    push (i := { op := .selectionMerge, operands := [.id merge, .number 0] }) rfl

instance (target : Nat) : Composed Inner P (branch target) := by
  have hbranch : Composed Inner P (Build.terminate .branch [.id target]) := terminate rfl
  unfold branch
  refine .bind inferInstance fun block => ?_
  cases block <;> infer_instance

instance (ty : Ty) (ways : List (Nat × Nat)) [ty.Spanned P] : Composed Inner P (phi ty ways) := by
  have hpush (type id : Nat) (operands : List Operand) :
    Composed Inner P (Build.push { op := .phi, type, result := id, operands }) := push rfl
  exact .bind inferInstance fun type => .bind inferInstance fun id => .bind inferInstance fun _ =>
    .bind (hpush type id _) inferInstance

instance shortCircuit (op : Operator) (first : Nat) (right : Build Nat) [Composed Inner P right] :
    Composed Inner P (shortCircuit op first right) := by
  unfold Build.shortCircuit
  dsimp only
  iterate 4 refine .bind inferInstance fun _ => ?_
  split <;> exact .bind inferInstance fun _ => .bind inferInstance fun _ => inferInstance

instance choose (condition : Nat) (left right : Build Nat) (ty : Ty) [Composed Inner P left]
    [Composed Inner P right] [ty.Spanned P] :
    Composed Inner P (choose condition left right ty) := by
  unfold Build.choose
  dsimp only
  iterate 12 refine .bind inferInstance fun _ => ?_
  infer_instance

lemma steps : ExpressionSteps P (Composed Inner P) where
  plain _ := inferInstance
  bind_of := .bind_of
  ask := .ask
  look := .look
  shortCircuit _ := inferInstance
  choose _ _ _ := inferInstance

instance (e : Expr) [he : e.Spanned P] : Composed Inner P (value e) := steps.value e he

instance (e : Expr) [he : e.Spanned P] : Composed Inner P (access? e) := steps.access? e he

instance (e : Expr) [he : e.Spanned P] : Composed Inner P (target? e) := steps.target? e he

instance (done : List (Nat × Ty)) (es : List Expr) :
    Composed Inner Span.Anywhere (values done es) := steps.values done es fun _ _ => inferInstance

instance (done : Passed) (ps : List Parameter) (es : List Expr) : Composed Inner Span.Anywhere (pass done ps es) :=
  steps.pass done ps es (fun _ _ => inferInstance) fun _ _ => inferInstance

/-! ### Statements -/

instance : Composed Inner P breakOut := by
  have hmark := body (P := P) (f := fun body =>
    { body with breaks := JumpTarget.markFirst body.breaks }) (fun _ => rfl) (fun _ => rfl)
    fun _ => rfl
  refine .look (fun _ _ _ _ => rfl) fun b _ => ?_
  split <;> infer_instance

instance : Composed Inner P continueLoop := by
  have hmark := body (P := P) (f := fun body =>
    { body with continues := JumpTarget.markFirst body.continues }) (fun _ => rfl) (fun _ => rfl)
    fun _ => rfl
  refine .look (fun _ _ _ _ => rfl) fun b _ => ?_
  split <;> infer_instance

instance (reachable : Bool) (l : Nat) : Composed Inner P (labelIf reachable l) := by
  have : Composed Inner P (Build.terminate .unreachable []) := terminate rfl
  unfold labelIf
  infer_instance

section

variable {body other : Build Unit} [Composed Inner P body] [Composed Inner P other]

instance (condition : Nat) : Composed Inner P (ifThen condition body) := by
  unfold ifThen
  iterate 4 refine .bind inferInstance fun _ => ?_
  infer_instance

instance (condition : Nat) : Composed Inner P (ifElse condition body other) := by
  unfold ifElse
  iterate 6 refine .bind inferInstance fun _ => ?_
  infer_instance

instance (start next merge : Nat) : Composed Inner P (loopBody start next merge body) := by
  have hpush := Composed.body (P := P) (f := fun body => { body with
    breaks := { label := merge } :: body.breaks,
      continues := { label := next } :: body.continues }) (fun _ => rfl) (fun _ => rfl) fun _ => rfl
  have hpop := Composed.body (P := P) (f := fun body =>
    { body with breaks := body.breaks.tail, continues := body.continues.tail })
    (fun _ => rfl) (fun _ => rfl) fun _ => rfl
  unfold loopBody
  iterate 4 refine .bind inferInstance fun _ => ?_
  exact .look (fun _ _ _ _ => rfl) fun b _ => inferInstance

instance (header next merge : Nat) : Composed Inner P (loopHeader header next merge) := by
  have (operands : List Operand) : Composed Inner P (Build.emit .loopMerge operands) :=
    push (i := { op := .loopMerge, operands }) rfl
  unfold loopHeader
  infer_instance

lemma loopWhile_end {step : Option Expr} (hstep : ∀ e ∈ step, e.Spanned P) (header next merge : Nat)
    (continues ends : Bool) :
    Composed Inner P (do
      label next
      if continues then
        if let some s := step then let _ ← Build.value s
      let _ ← branch header
      labelIf ends merge : Build Unit) := by
  refine .bind inferInstance fun _ => ?_
  cases step with
  | none => cases continues <;> infer_instance
  | some e =>
    have := hstep e rfl
    cases continues <;> infer_instance

lemma loopWhile {condition step : Option Expr} (hcondition : ∀ e ∈ condition, e.Spanned P)
    (hstep : ∀ e ∈ step, e.Spanned P) :
    Composed Inner P (loopWhile condition step body) := by
  unfold Build.loopWhile
  iterate 8 refine .bind inferInstance fun _ => ?_
  cases condition with
  | none => exact .bind inferInstance fun _ => .bind inferInstance fun r => loopWhile_end hstep ..
  | some c =>
    have := hcondition c rfl
    exact .bind inferInstance fun _ => .bind inferInstance fun _ => .bind inferInstance fun r =>
      loopWhile_end hstep ..

lemma loopUntil {condition : Option Expr} (hcondition : ∀ e ∈ condition, e.Spanned P) :
    Composed Inner P (loopUntil condition body) := by
  unfold Build.loopUntil
  iterate 7 refine .bind inferInstance fun _ => ?_
  dsimp only
  refine .bind inferInstance fun _ => ?_
  split
  · rename_i c _
    have := hcondition c rfl
    infer_instance
  · infer_instance

lemma switchOn {σ : Type} (selector : Nat) (cases : List (SwitchCase σ)) {step : Nat → List Nat → Build Bool}
    (hstep : ∀ merge labels, Composed Inner P (step merge labels)) :
    Composed Inner P (switchOn selector cases step) := by
  have hswitch (operands : List Operand) : Composed Inner P (Build.terminate .switch operands) := terminate rfl
  have hpush (merge : Nat) := Composed.body (P := P)
    (f := fun body => { body with breaks := { label := merge } :: body.breaks })
    (fun _ => rfl) (fun _ => rfl) fun _ => rfl
  have hpop := Composed.body (P := P) (f := fun body => { body with breaks := body.breaks.tail })
    (fun _ => rfl) (fun _ => rfl) fun _ => rfl
  unfold Build.switchOn
  dsimp only
  iterate 6 refine .bind inferInstance fun _ => ?_
  exact .look (fun _ _ _ _ => rfl) fun b _ => inferInstance

end

lemma ifReached {stmt : Stmt} {append : Build Unit} (h : stmt.Spanned P) (happend : Composed Inner P append) :
    Composed Inner P (ifReached stmt append) := by
  have := setSpan h.root.1
  have : Composed Quiet P (Build.note (.statementSkipped stmt.span)) := note rfl
  unfold Build.ifReached
  refine .bind inferInstance fun block => ?_
  cases block <;> infer_instance

mutual
lemma reached (stmt : Stmt) (h : stmt.Spanned P) : Composed Inner P (reached stmt) := by
  have hvalue := h.root.2
  unfold Build.reached
  cases stmt with
  | block braced body span => exact statements body fun x hx => h.part hx
  | if_ c t f span =>
    have hc := hvalue c List.mem_cons_self
    have ht := h.part (x := t) List.mem_cons_self
    have ht := ifReached ht (reached t ht)
    refine .bind inferInstance fun condition => ?_
    cases f with
    | none => exact inferInstanceAs (Composed Inner P (ifThen condition _))
    | some f =>
      have hf := h.part (x := f) (by simp [Stmt.parts])
      have hf := ifReached hf (reached f hf)
      exact inferInstanceAs (Composed Inner P (ifElse condition _ _))
  | loop kind init condition step body span =>
    have hbody := h.part (x := body) (by simp [Stmt.parts])
    have hbody := ifReached hbody (reached body hbody)
    have hcondition : ∀ e ∈ condition, e.Spanned P := fun e he => hvalue e (by simp_all [Stmt.exprs])
    have hwhile : Composed Inner P (Build.loopWhile condition step (Build.ifReached body (Build.reached body))) :=
      loopWhile hcondition fun e he => hvalue e (by simp_all [Stmt.exprs])
    have huntil : Composed Inner P (Build.loopUntil condition
      (Build.ifReached body (Build.reached body))) := loopUntil hcondition
    cases init with
    | none => cases kind <;> infer_instance
    | some i =>
      have hinit := h.part (x := i) (by simp [Stmt.parts])
      have hinit := ifReached hinit (reached i hinit)
      cases kind <;> infer_instance
  | switch e cases span =>
    have he := hvalue e List.mem_cons_self
    refine .bind inferInstance fun selector => switchOn selector cases fun merge labels => ?_
    exact switchCases merge labels false cases fun x hx => h.part hx
  | return_ e span =>
    cases e with
    | none => exact terminate rfl
    | some e =>
      have he := hvalue e List.mem_cons_self
      exact .bind inferInstance fun v => terminate rfl
  | discard span => exact terminate rfl
  | declare n init span =>
    cases init with
    | none => infer_instance
    | some e =>
      have he := hvalue e List.mem_cons_self
      infer_instance
  | expr e span =>
    have he := hvalue e List.mem_cons_self
    infer_instance
  | _ => infer_instance
lemma statements (stmts : List Stmt) (h : ∀ x ∈ stmts, x.Spanned P) : Composed Inner P (statements stmts) := by
  unfold Build.statements
  cases stmts with
  | nil => infer_instance
  | cons stmt stmts =>
    rw [List.forall_mem_cons] at h
    have hstmt := ifReached h.1 (reached stmt h.1)
    have hrest := statements stmts h.2
    infer_instance
lemma switchCases (merge : Nat) (labels : List Nat) (falls : Bool) (cases : List (SwitchCase Stmt))
    (h : ∀ x ∈ cases.flatMap (·.body), x.Spanned P) : Composed Inner P (switchCases merge labels falls cases) := by
  unfold Build.switchCases
  cases cases with
  | nil => infer_instance
  | cons case cases =>
    obtain ⟨v, body, span⟩ := case
    rw [List.flatMap_cons, List.forall_mem_append] at h
    cases labels with
    | nil => infer_instance
    | cons l labels =>
      have hbody := statements body h.1
      have hrest (falls : Bool) := switchCases merge labels falls cases h.2
      infer_instance
end

instance (stmt : Stmt) [h : stmt.Spanned P] :
    Composed Inner P (Build.ifReached stmt (Build.reached stmt)) := ifReached h (reached stmt h)

instance (stmt : Stmt) [stmt.Spanned P] : Composed Inner P (statement stmt) := by unfold statement; infer_instance

/-! ### Declarations -/

mutual
lemma value_of_isConstantTree (e : Expr) (h : isConstantTree e = true) (he : e.Spanned P) :
    Composed Plain P (value e) := by
  have hty : e.ty.Spanned P := he.root.2
  unfold value
  cases e with
  | literal v ty span =>
    replace hty : ty.Spanned P := hty
    infer_instance
  | construct kind as ty span =>
    replace hty : ty.Spanned P := hty
    have has : ∀ x ∈ as, x.Spanned P := fun x hx => he.part hx
    exact .bind_of (values_of_areConstantTrees [] as (Bool.and_eq_true_iff.mp h).2 has)
      (gives_values (by simp) has) fun vs hvs => construct hvs
  | _ => cases h
lemma values_of_areConstantTrees (done : List (Nat × Ty)) (es : List Expr)
    (h : areConstantTrees es = true) (hes : ∀ e ∈ es, e.Spanned P) :
    Composed Plain P (values done es) := by
  unfold values
  cases es with
  | nil => infer_instance
  | cons e es =>
    rw [List.forall_mem_cons] at hes
    obtain ⟨he, hrest⟩ := Bool.and_eq_true_iff.mp h
    exact .bind (value_of_isConstantTree e he hes.1) fun v =>
      values_of_areConstantTrees ((v, e.ty) :: done) es hrest hes.2
end

instance (id : Nat) : Composed Outside P (modify fun b =>
    { b with interface := id :: b.interface } : Build Unit) := notes

instance (mode : Mode) : Composed Outside P (modify fun b =>
    { b with modes := mode :: b.modes } : Build Unit) := notes

instance : Composed Outside P (modify fun b => { b with usesStorageBuffers := true } : Build Unit) := notes

instance (n : Nat) (e : Expr) [he : e.Spanned P] :
    Composed Outside P (modify fun b => { b with deferred := (n, e) :: b.deferred } : Build Unit) :=
  notes ⟨fun _ => rfl, fun _ _ _ _ => rfl, fun _ hb =>
    ⟨hb.span, hb.reports, List.forall_mem_cons.mpr ⟨he, hb.deferred⟩⟩⟩

instance (n pointer : Nat) (storage : StorageClass) (layout : Option MemoryLayout) (initial : Option Nat) :
    Composed Outside P (newGlobal n pointer storage layout initial) := by
  refine .ask (fun _ _ => rfl) fun s _ => ?_
  have hrest (id : Nat) : Composed Outside P (do
      name id (s.program.variableAt n).name
      decorateVariable (s.program.variableAt n).modifiers id
      relax id (s.program.variableAt n).ty
      if isListed s.version storage then modify fun b => { b with interface := id :: b.interface }
      modify fun b => { b with places := b.places.insert n { pointer := id, storage, layout } } :
        Build Unit) := inferInstance
  have hdeclare := Composed.bind (.elementary
    (.declare pointer (.number storage.code :: Operand.ids initial.toList))) hrest
  exact hdeclare

lemma initialValue {n : Nat} {storage : StorageClass} {e : Expr} (he : e.Spanned P) :
    Composed Plain P (initialValue n storage e) := by
  have hreport (problem : Problem) : Composed Quiet P (Build.reportAt e.span problem) := reportAt he.root.1 problem
  refine .ask (fun _ _ => rfl) fun s _ => ?_
  dsimp only
  split
  · rename_i hconstant
    have := value_of_isConstantTree e (Bool.and_eq_true_iff.mp hconstant).2 he
    infer_instance
  · infer_instance

lemma globalVariable {n : Nat} {init : Option Expr} {span : Span} (hspan : P span)
    (hinit : ∀ e ∈ init, e.Spanned P) :
    Composed Plain P (globalVariable n init span) := by
  have hreport (problem : Problem) : Composed Quiet P (Build.reportAt span problem) := reportAt hspan problem
  have := setSpan hspan
  unfold Build.globalVariable
  refine .bind inferInstance fun _ => .ask (fun _ _ => rfl) fun s _ => ?_
  dsimp only
  split
  · infer_instance
  · cases init with
    | none => infer_instance
    | some e =>
      have (storage : StorageClass) : Composed Plain P (Build.initialValue n storage e) :=
        initialValue (hinit e rfl)
      infer_instance

instance (ty : Ty) (layout : Option MemoryLayout) [ty.Spanned P] : Composed Outside P (blockType ty layout) := by
  unfold blockType; infer_instance

lemma interfaceBlock {n : Nat} {span : Span} (hspan : P span) : Composed Outside P (interfaceBlock n span) := by
  have := setSpan hspan
  unfold Build.interfaceBlock
  refine .bind inferInstance fun _ => .ask (fun _ _ => rfl) fun s hs => ?_
  have hty := hs.variables n
  dsimp only
  generalize (s.program.variableAt n).ty = ty at hty ⊢
  cases ty with
  | array e size =>
    have : e.Spanned P := hty.nested List.mem_cons_self
    infer_instance
  | _ => infer_instance

lemma declaration {e : Element} (he : e.Spanned P) : Composed Plain P (declaration e) := by
  cases e with
  | struct ty span =>
    have := he.2
    exact .bind (@plain _ _ _ (@outside _ _ _ (setSpan he.1))) inferInstance
  | block n span => exact @plain _ _ _ (interfaceBlock he)
  | global n init span => exact globalVariable he.1 he.2
  | prototype | definition => exact .pure ()

instance (n : Nat) (storage : StorageClass) (e : Expr) :
    Composed Plain Span.Anywhere (Build.initialValue n storage e) :=
  initialValue inferInstance

instance (n : Nat) (span : Span) : Composed Outside Span.Anywhere (Build.interfaceBlock n span) :=
    interfaceBlock trivial

instance (e : Element) : Composed Plain Span.Anywhere (Build.declaration e) := declaration e.spanned_anywhere

end Composed

lemma IsStraight.declaration (e : Element) : IsStraight (declaration e) := inferInstance

namespace Composed

/-! ### Functions -/

instance (priority := low) active (m : Build α) [h : Composed Inner P m] : Composed Active P m := by
  have houtside {γ : Type} (m : Build γ) [h : Composed Outside P m] : Composed Active P m :=
    h.lift fun h => .elementary (.outside h)
  have hpush {i : Instruction} (h : i.op.isShared = false) : Composed Active P (Build.push i) :=
    .elementary (.push h)
  refine h.lift fun h => ?_
  cases h with
  | push h => exact hpush h
  | modify h houter => exact .elementary (.modify h)
  | plain h =>
    cases h with
    | outside h => exact .elementary (.outside h)
    | @compute op type operands h =>
      exact .bind (houtside fresh) fun id => .bind
        (hpush (i := { op, type, result := id, operands }) (Op.isShared_of_isCode h)) fun _ => .pure id
    | @result op ty operands h hty =>
      refine .bind (houtside (typeOf ty)) fun type => .bind (houtside fresh) fun id =>
        .bind (houtside (relax id ty)) fun _ => ?_
      exact .bind (hpush (i := { op, type, result := id, operands }) (Op.isShared_of_isCode h)) fun _ => .pure id
    | @emit op operands h => exact hpush (i := { op, operands }) (Op.isShared_of_isCode h)
    | @localVariable ty hty =>
      refine .bind (houtside (typeOf ty)) fun type =>
        .bind (houtside (pointerType type .function)) fun pointer => .bind (houtside fresh) fun id => ?_
      exact .bind (.elementary (.pushLocal rfl)) fun _ => .bind (houtside (relax id ty)) fun _ => .pure id

instance (n : Nat) : Composed Active P (parameter n) := by
  have hheader (pointer id : Nat) : Composed Active P
    (appendHeader { op := .functionParameter, type := pointer, result := id }) :=
    .elementary (.appendHeader rfl)
  exact .ask (fun _ _ => rfl) fun s _ => inferInstance

instance : Composed Active P openFirst := by
  have hheader (entry : Nat) : Composed Active P
    (appendHeader { op := .label, result := entry }) := .elementary (.appendHeader rfl)
  have hopen (entry : Nat) := body (P := P) (f := fun body => { body with block := some entry })
    (fun _ => rfl) (fun _ => rfl) fun _ => rfl
  unfold openFirst
  infer_instance

instance : Composed Inner P runDeferred := steps.runDeferred

instance (returns : Ty) : Composed Inner P (finishBlock returns) := by
  have hreturn : Composed Inner P (Build.terminate .return_ []) := terminate rfl
  have hunreachable : Composed Inner P (Build.terminate .unreachable []) := terminate rfl
  unfold finishBlock
  infer_instance

instance : Composed Whole P clear := .elementary .clear

instance : Composed Whole P endFunction := .elementary .endFunction

end Composed

/-- A function between its start and its end. -/
def functionText (f : Function) (id returns type : Nat) (parameters : List Nat) (body : Stmt) : Build Unit := do
  appendHeader
    { op := .function, type := returns, result := id, operands := [.number (functionControl f.modifiers), .id type] }
  name id f.name
  parameters.forM parameter
  openFirst
  if f.isMain && (← read).program.kind.requiresEntryPoint then runDeferred
  statement body
  finishBlock f.returns

lemma functionDefinition_eq (f : Function) (id : Nat) (parameters : List Nat) (body : Stmt) :
    functionDefinition f id parameters body = (do
      note (.functionStarted f.name id)
      let returns ← typeOf f.returns
      let type ← functionType f
      clear
      functionText f id returns type parameters body
      endFunction) := by
  unfold functionDefinition startFunction functionText clear
  simp only [bind_assoc]
  iterate 9 refine bind_congr fun _ => ?_
  split <;> simp only [bind_assoc]

namespace Composed

instance (f : Function) (id returns type : Nat) (parameters : List Nat) (body : Stmt) [body.Spanned P] :
    Composed Active P (functionText f id returns type parameters body) := by
  have hstart : Composed Active P (appendHeader
      { op := .function, type := returns, result := id,
        operands := [.number (functionControl f.modifiers), .id type] }) :=
    .elementary (.appendHeader rfl)
  unfold functionText
  iterate 4 refine .bind inferInstance fun _ => ?_
  exact .ask (fun _ _ => rfl) inferInstance

lemma definition {e : Element} (he : e.Spanned P) : Composed Whole P (definition e) := by
  unfold Build.definition
  cases e with
  | definition f parameters body span =>
    have := setSpan he.1
    have hbody := he.2
    refine .bind inferInstance fun _ => .ask (fun _ _ => rfl) fun s hs => .look (fun _ _ _ _ => rfl) fun b _ => ?_
    obtain ⟨hreturns, hparameters⟩ := hs.functions f
    have := functionType hreturns hparameters
    have (f : Function) (id : Nat) : Composed Quiet P (Build.note (.functionStarted f.name id)) := note rfl
    split
    · infer_instance
    · rw [functionDefinition_eq]
      infer_instance
  | _ => infer_instance

instance (e : Element) : Composed Active P (reserve e) := by
  have hset (f id : Nat) : Composed Active P (modify fun b =>
    { b with functionIds := b.functionIds.insert f id } : Build Unit) :=
    .elementary (.modify ⟨fun _ => rfl, fun _ _ _ _ => rfl, fun _ hb => ⟨hb.span, hb.reports, hb.deferred⟩⟩)
  unfold reserve
  cases e <;> infer_instance

end Composed

/-- What is written before the functions. -/
def declarations : Build Unit := do
  let p := (← read).program
  let mathSet ← fresh
  modify fun b => { b with mathSet, modes := (stageModes p.kind).reverse }
  p.elements.forM reserve
  p.elements.forM declaration

lemma parts_eq : parts = (do
    declarations
    (← read).program.elements.forM definition) := rfl

namespace Composed

instance : Composed Active P declarations := by
  have hstart (mathSet : Nat) (p : Program) :
      Composed Active P (modify fun b => { b with mathSet, modes := (stageModes p.kind).reverse } : Build Unit) :=
    .elementary (.modify ⟨fun _ => rfl, fun _ _ _ _ => rfl, fun _ hb => ⟨hb.span, hb.reports, hb.deferred⟩⟩)
  refine .ask (fun _ _ => rfl) fun s hs => .bind inferInstance fun _ => .bind inferInstance fun _ =>
    .bind inferInstance fun _ => forM_of fun e he => ?_
  have := declaration (hs.elements e he)
  infer_instance

instance : Composed Whole P parts := by
  rw [parts_eq]
  exact .bind inferInstance fun _ => .ask (fun _ _ => rfl) fun s hs => forM_of fun e he =>
    definition (hs.elements e he)

end Composed
end Shading.Spirv.Build
