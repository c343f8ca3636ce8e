import Shading.Proofs.Spirv.ControlFlow
import Shading.Proofs.Spirv.SupplyStatement

/-! Declarations and functions are written in order. A function is written into lists of its own,
which are put behind the other functions when it is complete. -/
namespace Shading.Spirv

set_option synthInstance.maxSize 1000

open Builder (Extends Ordered IsGlobal IsTaken IsFunction Has)

namespace Builder.Ordered

variable {d : Declared} {b : Builder} {x : Nat} {e : Expr}

lemma listed {deferred : List (Nat × Expr)} {interface : List Nat} (h : b.Ordered d)
    (hinterface : ∀ x ∈ interface, b.IsGlobal x)
    (hdeferred : ∀ p ∈ deferred, p.2.WellTyped d) : ({ b with deferred, interface } : Builder).Ordered d :=
  ⟨h.next, ⟨h.tabled.shared, h.tabled.written, h.tabled.range⟩, h.positive, h.globals, h.text,
    h.calls, h.structs, h.places, h.functionIds,
    h.notes, hinterface, hdeferred⟩

lemma clearDeferred (h : b.Ordered d) : ({ b with deferred := [] } : Builder).Ordered d :=
    h.listed h.interface nofun

lemma defer {n : Nat} (h : b.Ordered d) (he : e.WellTyped d) :
    ({ b with deferred := (n, e) :: b.deferred } : Builder).Ordered d :=
  h.listed h.interface (List.forall_mem_cons.mpr ⟨he, h.deferred⟩)

lemma list (h : b.Ordered d) (hx : b.IsGlobal x) :
    ({ b with interface := x :: b.interface } : Builder).Ordered d :=
  h.listed (List.forall_mem_cons.mpr ⟨hx, h.interface⟩) h.deferred

end Builder.Ordered

namespace Build

variable {d : Declared} {s : Setting} {b : Builder} {ty : Ty} {x : Nat}

/-! ### Declarations -/

lemma supplies_decorateVariable {m : Modifiers} (h : b.IsTaken x) :
    Supplies d (decorateVariable m x) s b fun _ _ => True := by
  have hlast {b' : Builder} (h' : Extends b b') :
      Supplies d (do for c in qualifierDecorations m.flags do decorate x c []) s b' fun _ _ => True :=
    .bind (.forIn fun _ _ _ b1 h1 => .bind (supplies_decorate (h1.isTaken (h'.isTaken h)))
      fun _ _ _ _ => .pure trivial) fun _ _ _ _ => .pure trivial
  unfold decorateVariable
  dsimp only
  refine .bind (.forIn fun _ _ _ b1 h1 => .bind (supplies_decorate (h1.isTaken h)) fun _ _ _ _ =>
    .pure trivial) fun _ b1 h1 _ => ?_
  refine .ite (fun _ => .bind (.of_eq fun _ hb => ?_) fun _ b2 h2 _ => hlast (h1.trans h2)) fun _ => hlast h1
  exact hb.congr (Nat.le_refl _) rfl rfl rfl rfl ⟨rfl, rfl⟩ ⟨rfl, rfl⟩ rfl ⟨rfl, rfl⟩

lemma supplies_newGlobal {n pointer : Nat} {storage : StorageClass} {layout : Option MemoryLayout}
    {initial : Option Nat}
    (hpointer : b.IsGlobal pointer) (hinitial : ∀ x ∈ initial, b.IsGlobal x) :
    Supplies d (newGlobal n pointer storage layout initial) s b fun _ _ => True := by
  unfold newGlobal
  refine .read_bind fun hclean hb => ?_
  let i : Instruction :=
    { op := .variable_, type := pointer, result := b.next,
      operands := .number storage.code :: Operand.ids initial.toList }
  let b1 : Builder := { b with next := b.next + 1, globals := i :: b.globals }
  have hneeds : ∀ x ∈ i.needs, b.IsGlobal x := by
    have hids : i.ids = initial.toList := (Operand.used_cons_number ..).trans (Operand.used_ids _)
    intro x hx
    obtain hx | hx := List.mem_append.mp hx
    · exact List.mem_singleton.mp hx ▸ hpointer
    · exact hinitial x (Option.mem_toList.mp (hids ▸ hx))
  have hb1 : b1.Ordered d := hb.global rfl hneeds (.grow [_] rfl rfl rfl (Nat.le_succ _) (by simp [i]))
  have hglobal : b1.IsGlobal b.next := mem_results.mpr ⟨i, List.mem_cons_self, rfl⟩
  have hplace {b' : Builder} (h' : Extends b1 b') : Supplies d
      (modify fun b' => { b' with places := b'.places.insert n { pointer := b.next, storage, layout } }) s b'
        fun _ _ => True :=
    fun _ hb' => ⟨hb'.insertPlace (h'.isGlobal hglobal).has, trivial⟩
  have hrest : Supplies d (do
      name b.next (s.program.variableAt n).name
      decorateVariable (s.program.variableAt n).modifiers b.next
      relax b.next (s.program.variableAt n).ty
      if isListed s.version storage then modify fun b' => { b' with interface := b.next :: b'.interface }
      modify fun b' => { b' with places := b'.places.insert n { pointer := b.next, storage, layout } }) s b1
        fun _ _ => True := by
    have htaken := hb1.isTaken hglobal
    refine .bind (supplies_name htaken) fun _ b2 h2 _ =>
      .bind (supplies_decorateVariable (h2.isTaken htaken)) fun _ b3 h3 _ => ?_
    have h3 := h2.trans h3
    refine .bind (supplies_relax (h3.isTaken htaken)) fun _ b4 h4 _ => ?_
    have h4 := h3.trans h4
    refine .ite (fun _ => .bind (P := fun _ _ => True) ?_ fun _ b5 h5 _ => hplace (h4.trans h5))
      fun _ => hplace h4
    exact fun _ hb' => ⟨hb'.list (h4.isGlobal hglobal), trivial⟩
  exact hrest hclean hb1

lemma supplies_constantTree {e : Expr} (hp : s.program.Sound) (he : e.WellTyped s.program.declared)
    (hconstant : isConstantTree e = true) :
    Supplies s.program.declared (value e) s b fun x b' => b'.IsGlobal x := by
  refine fun hclean hb => ?_
  have hb' := (supplies_value hp e he b hclean hb).1
  obtain ⟨t, ht, -⟩ := Builder.exists_of_constantAt (makes_value (s := s) e hb.tabled he hconstant).2.constantAt
  exact ⟨hb', isGlobal_of_template hb' ht⟩

lemma supplies_initialValue {n : Nat} {storage : StorageClass} {e : Expr} (hp : s.program.Sound)
    (he : e.WellTyped s.program.declared) :
    Supplies s.program.declared (initialValue n storage e) s b fun initial b' =>
    ∀ x ∈ initial, b'.IsGlobal x := by
  refine .read_bind (.ite (fun hconstant => ?_) fun _ => .ite (fun _ => ?_) fun _ => .reportAt_bind)
  · refine .bind (supplies_constantTree hp he (Bool.and_eq_true_iff.mp hconstant).2) fun x b1 _ hx => .pure ?_
    rintro _ ⟨⟩
    exact hx
  · exact .bind (.of_eq fun _ hb => hb.defer he) fun _ _ _ _ => .pure (by simp)

lemma supplies_globalVariable {n : Nat} {initializer : Option Expr} {span : Span} (hp : s.program.Sound)
    (he : ∀ e ∈ initializer, e.WellTyped s.program.declared) :
    Supplies s.program.declared (globalVariable n initializer span) s b fun _ _ => True := by
  unfold globalVariable
  refine .bind_of (fun _ => ?_) .setSpan fun _ b1 _ _ => .read_bind ?_
  · refine @IsGrowing.bind _ _ _ _ inferInstance fun s => ?_
    dsimp only
    cases globalStorage _ with
    | error q => infer_instance
    | ok storage => cases initializer <;> infer_instance
  dsimp only
  cases globalStorage _ with
  | error q => exact .reportAt
  | ok storage =>
    have hwritten {b' : Builder} {pointer : Nat} {initial : Option Nat}
      (hpointer : b'.IsGlobal pointer) (hinitial : ∀ x ∈ initial, b'.IsGlobal x) :
        Supplies s.program.declared (do
          newGlobal n pointer storage none initial
          if (s.program.variableAt n).modifiers.layout.builtin = some PipelineVariable.fragDepth &&
            s.program.kind = .fragment then
            modify fun b => { b with modes := .depthReplacing :: b.modes }) s b' fun _ _ => True := by
      refine .bind (supplies_newGlobal hpointer hinitial) fun _ _ _ _ =>
        .ite (fun _ => .of_eq fun _ hb => ?_) fun _ => .pure trivial
      exact hb.congr (Nat.le_refl _) rfl rfl rfl rfl ⟨rfl, rfl⟩ ⟨rfl, rfl⟩ rfl ⟨rfl, rfl⟩
    refine .bind_of (fun _ => by cases initializer <;> infer_instance) supplies_typeOf fun type b2 _ htype => ?_
    refine .bind_of (fun _ => by cases initializer <;> infer_instance) (supplies_pointerType htype)
      fun pointer b3 _ hpointer => ?_
    cases initializer with
    | none => exact hwritten hpointer (by simp)
    | some e =>
      exact .bind (supplies_initialValue hp (he e rfl)) fun initial b4 h4 hinitial =>
        hwritten (h4.isGlobal hpointer) hinitial

lemma supplies_blockType {layout : Option MemoryLayout} :
    Supplies d (blockType ty layout) s b fun x b' => b'.IsGlobal x := by
  refine .ite (fun _ hclean hb => ?_) fun _ => supplies_typeIn ty
  obtain ⟨hordered, hx⟩ := supplies_newStruct (fun _ h => absurd h List.not_mem_nil) hclean hb
  exact ⟨hordered, hx.isGlobal hordered.tabled⟩

lemma supplies_blockVariable (n : Nat) (ty : Ty) (storage : StorageClass)
    (layout : Option MemoryLayout) : Supplies d (do
    let type ← match ty with
      | .array e count => do
        let block ← blockType e layout
        arrayType block count 0
      | ty => typeIn layout ty
    newGlobal n (← pointerType type storage) storage layout none) s b fun _ _ => True := by
  have hwritten {b' : Builder} {type : Nat} (htype : b'.IsGlobal type) :
      Supplies d (do newGlobal n (← pointerType type storage) storage layout none) s b' fun _ _ => True :=
    .bind (supplies_pointerType htype) fun pointer _ _ hpointer => supplies_newGlobal hpointer (by simp)
  cases ty with
  | array e count =>
    exact .bind supplies_blockType fun block _ _ hblock =>
      .bind (supplies_arrayType hblock) fun type _ _ htype => hwritten htype
  | _ => exact .bind (supplies_typeIn _) fun type _ _ htype => hwritten htype

lemma supplies_interfaceBlock {n : Nat} {span : Span} :
    Supplies d (interfaceBlock n span) s b fun _ _ => True := by
  unfold interfaceBlock
  refine .bind_of (fun _ => ?_) .setSpan fun _ b1 _ _ => .read_bind ?_
  · refine @IsGrowing.bind _ _ _ _ inferInstance fun s => ?_
    dsimp only
    cases (s.program.variableAt n).ty <;> infer_instance
  dsimp only
  split
  · refine .bind_of (fun _ => ?_) (.of_eq fun _ hb => ?_) fun _ b2 _ _ => supplies_blockVariable _ _ _ _
    · cases (s.program.variableAt n).ty <;> infer_instance
    · exact hb.congr (Nat.le_refl _) rfl rfl rfl rfl ⟨rfl, rfl⟩ ⟨rfl, rfl⟩ rfl ⟨rfl, rfl⟩
  · exact supplies_blockVariable _ _ _ _

lemma supplies_declaration {e : Element} (hp : s.program.Sound) (he : e.WellTyped s.program.declared) :
    Supplies s.program.declared (declaration e) s b fun _ _ => True := by
  cases e with
  | struct ty span => exact .bind .setSpan fun _ _ _ _ => .bind supplies_typeOf fun _ _ _ _ => .pure trivial
  | block n span => exact supplies_interfaceBlock
  | global n initializer span =>
    obtain ⟨v, -, hinitializer⟩ := he
    exact supplies_globalVariable hp fun e he => (hinitializer e he).1
  | prototype f span => exact .pure trivial
  | definition f ps body span => exact .pure trivial

/-! ### Functions -/

/-- The step forgets no event, gives no id back, and leaves the ids of functions as they are. -/
class IsForward {α : Type} (m : Build α) : Prop where
  journal : ∀ s b, b.journal <:+ (m s b).2.journal
  next : ∀ s b, b.next ≤ (m s b).2.next
  functionIds : ∀ s b, (m s b).2.functionIds = b.functionIds

namespace IsForward

variable {α β : Type}

instance (priority := low) (m : Build α) [h : IsGrowing m] : IsForward m :=
  ⟨fun s b => (h.grows s b).journal, fun s b => (h.grows s b).next, fun s b =>
    congrArg Builder.Outer.functionIds (h.grows s b).outer⟩

instance bind (m : Build α) (f : α → Build β) [hm : IsForward m] [hf : ∀ a, IsForward (f a)] :
    IsForward (m >>= f) where
  journal s b := (hm.journal s b).trans ((hf (m s b).1).journal s (m s b).2)
  next s b := Nat.le_trans (hm.next s b) ((hf (m s b).1).next s (m s b).2)
  functionIds s b := ((hf (m s b).1).functionIds s (m s b).2).trans (hm.functionIds s b)

instance (p : Prop) [Decidable p] (m n : Build α) [hm : IsForward m] [hn : IsForward n] :
    IsForward (if p then m else n) := by
  split <;> assumption

instance forM (f : α → Build PUnit) [hf : ∀ a, IsForward (f a)] (as : List α) : IsForward (as.forM f) := by
  induction as with
  | nil => exact ⟨fun _ _ => List.suffix_rfl, fun _ _ => Nat.le_refl _, fun _ _ => rfl⟩
  | cons a as ih => exact bind (f a) fun _ => as.forM f

lemma of_modify {f : Builder → Builder} (h : ∀ b, (f b).journal = b.journal ∧ (f b).next = b.next ∧
    (f b).functionIds = b.functionIds) :
    IsForward (modify f : Build Unit) :=
  ⟨fun _ b => (h b).1.symm ▸ List.suffix_rfl, fun _ b => Nat.le_of_eq (h b).2.1.symm, fun _ b => (h b).2.2⟩

instance (i : Instruction) : IsForward (appendHeader i) := of_modify fun _ => ⟨rfl, rfl, rfl⟩

instance (f : Function) (id returns type : Nat) : IsForward (startFunction f id returns type) := by
  have hclear : IsForward (modify fun b => { b with body := {} } : Build Unit) := of_modify fun _ =>
    ⟨rfl, rfl, rfl⟩
  unfold startFunction
  infer_instance

instance (n : Nat) : IsForward (parameter n) := by unfold parameter; dsimp only; infer_instance

instance : IsForward openFirst := by
  have hopen (l : Nat) : IsForward (modify fun b =>
    { b with body := { b.body with block := some l } } : Build Unit) := of_modify fun _ => ⟨rfl, rfl, rfl⟩
  unfold openFirst
  infer_instance

instance : IsForward endFunction := of_modify fun _ => ⟨rfl, rfl, rfl⟩

end IsForward

namespace Supplies

variable {α β : Type} {m : Build α} {P Q : α → Builder → Prop} {R : β → Builder → Prop}

lemma seq {f : α → Build β} [hf' : ∀ a, IsForward (f a)] (hm : Supplies d m s b P)
    (hf : ∀ a b', P a b' → Supplies d (f a) s b' R) :
    Supplies d (m >>= f) s b R := by
  intro hclean hb
  obtain ⟨hb1, ha⟩ := hm (hclean.of_suffix ((hf' (m s b).1).journal s (m s b).2)) hb
  exact hf _ _ ha hclean hb1

lemma extending [hm' : IsGrowing m] (hm : Supplies d m s b P) : Supplies d m s b fun a b' =>
    P a b' ∧ Extends b b' :=
  fun hclean hb => (hm hclean hb).imp_right fun h => ⟨h, hm'.grows s b⟩

lemma forward [hm' : IsForward m] (hm : Supplies d m s b P) : Supplies d m s b fun a b' => P a b' ∧
    b.next ≤ b'.next :=
  fun hclean hb => (hm hclean hb).imp_right fun h => ⟨h, hm'.next s b⟩

lemma outside [hm' : Composed Outside Span.Anywhere m] (hm : Supplies d m s b P) :
    Supplies d m s b fun a b' => P a b' ∧ Extends b b' ∧ b'.body = b.body :=
  fun hclean hb => (hm hclean hb).imp_right fun h => ⟨h, IsGrowing.grows s b, Composed.body_eq m s b⟩

end Supplies

lemma supplies_startFunction {f : Function} {id returns type : Nat} (hbody : b.body = {})
    (hid : b.IsTaken id) (hreturns : b.IsGlobal returns)
    (htype : b.IsGlobal type) : Supplies d (startFunction f id returns type) s b fun _ _ => True := by
  have hclear : { b with body := {} } = b := by rw [← hbody]
  unfold startFunction
  refine .seq (P := fun _ b' => b' = b) (fun _ hb => ⟨hclear.symm ▸ hb, hclear⟩) ?_
  rintro _ _ rfl
  refine .seq (P := fun _ b' => b'.IsTaken id) (fun _ hb => ⟨hb.header (fun x hx => ?_) rfl, hid⟩)
    fun _ _ hid => supplies_name hid
  obtain rfl | rfl : x = returns ∨ type = x := by simpa [Instruction.needs, Instruction.ids, Operand.id?] using hx
  · exact hreturns
  · exact htype

/-- A parameter is known under its number before it is written; both steps are one here. -/
lemma supplies_parameter {n : Nat} : Supplies d (parameter n) s b fun _ _ => True := by
  unfold parameter
  refine .read_bind (.seq supplies_typeOf fun type b1 htype =>
    .seq (supplies_pointerType htype) fun pointer b2 hpointer => ?_)
  refine .seq Supplies.fresh.extending fun x b3 ⟨hx, h3⟩ =>
    .seq (supplies_name hx).extending fun _ b4 ⟨_, h4⟩ => ?_
  refine .seq (supplies_relax (h4.isTaken hx)).extending fun _ b5 ⟨_, h5⟩ => fun _ hb => ⟨?_, trivial⟩
  have hpointer := ((h3.trans h4).trans h5).isGlobal hpointer
  refine Ordered.insertPlace (hb.header (i :=
    { op := .functionParameter, type := pointer, result := x }) (fun y hy => ?_) rfl) (.inr ?_)
  · obtain rfl : y = pointer := by simpa [Instruction.needs, Instruction.ids, Operand.id?] using hy
    exact hpointer
  · refine mem_results.mpr ⟨{ op := .functionParameter, type := pointer, result := x }, ?_, rfl⟩
    simp [Builder.text]

lemma supplies_parameters {ns : List Nat} : Supplies d (ns.forM parameter) s b fun _ _ => True := by
  induction ns generalizing b with
  | nil => exact .pure trivial
  | cons n ns ih => exact .seq supplies_parameter fun _ _ _ => ih

lemma supplies_openFirst : Supplies d openFirst s b fun _ _ => True := by
  unfold openFirst
  have hopen (l : Nat) : IsForward (modify fun b =>
    { b with body := { b.body with block := some l } } : Build Unit) := .of_modify fun _ => ⟨rfl, rfl, rfl⟩
  refine .seq .fresh fun l b1 _ => .seq (P := fun _ _ => True)
    (fun _ hb => ⟨hb.header (List.forall_mem_nil _) rfl, trivial⟩) fun _ _ _ => ?_
  exact supplies_body (f := fun body => { body with block := some l }) fun _ => ⟨rfl, rfl, rfl⟩

lemma supplies_runDeferred (hp : s.program.Sound) :
    Supplies s.program.declared runDeferred s b fun _ _ => True := by
  unfold runDeferred
  refine .get_bind fun hb => ?_
  dsimp only
  refine .bind (P := fun _ _ => True) (fun _ hb => ⟨hb.clearDeferred, trivial⟩) fun _ b1 _ _ =>
    .bind (.forIn ?_) fun _ _ _ _ => .pure trivial
  rintro ⟨n, e⟩ he - b2 -
  refine .bind (supplies_value hp e (hb.deferred _ (List.mem_reverse.mp he)) b2) fun v b3 _ hv =>
    .bind supplies_variableAccess fun a b4 h4 ha => ?_
  exact .bind (supplies_store ha (h4.has hv)) fun _ _ _ _ => .pure trivial

lemma supplies_finishBlock {returns : Ty} : Supplies d (finishBlock returns) s b fun _ _ => True := by
  refine .bind supplies_openBlock? fun _ b1 _ _ => .ite (fun _ => ?_) fun _ => .pure trivial
  exact .ite (fun _ => supplies_terminate (by simp) hasAll_nil) fun _ => supplies_terminate (by simp) hasAll_nil

/-- The function has been put behind the others, and nothing is left of it. -/
lemma supplies_endFunction : Supplies d endFunction s b fun _ b' => b'.body = {} := by
  refine fun _ hb => ⟨?_, rfl⟩
  have hcode : ({ b with body := { b.body with code := { op := .functionEnd } :: b.body.code } } :
    Builder).Ordered d := hb.code nofun nofun
  exact hcode.congr (Nat.le_refl _) rfl rfl rfl rfl ⟨rfl, rfl⟩ ⟨rfl, rfl⟩ rfl ⟨rfl, rfl⟩

set_option synthInstance.maxSize 4000 in
lemma supplies_functionDefinition {f : Function} {id : Nat} {ps : List Nat} {body : Stmt} (hp : s.program.Sound)
    (hwell : body.WellTyped s.program.declared f.returns) (hbody : b.body = {}) (hid : b.IsTaken id) :
    Supplies s.program.declared (functionDefinition f id ps body) s b fun _ b' => b'.body = {} := by
  have hlast (b : Builder) : Supplies s.program.declared
    (do statement body; finishBlock f.returns; endFunction) s b fun _ b' => b'.body = {} :=
    .seq ((orderly_statement hp hwell).supplies b) fun _ _ _ =>
      .seq supplies_finishBlock fun _ _ _ => supplies_endFunction
  unfold functionDefinition
  dsimp only
  refine .seq Supplies.note.outside fun _ b1 ⟨_, h1, hbody1⟩ =>
    .seq supplies_typeOf.outside fun returns b2 ⟨hreturns, h2, hbody2⟩ => ?_
  refine .seq supplies_functionType.outside fun type b3 ⟨htype, h3, hbody3⟩ => ?_
  have hbody : b3.body = {} := hbody3.trans (hbody2.trans (hbody1.trans hbody))
  refine .seq (supplies_startFunction hbody (((h1.trans h2).trans h3).isTaken hid)
    (h3.isGlobal hreturns) htype) fun _ b4 _ => ?_
  refine .seq supplies_parameters fun _ b5 _ => .seq supplies_openFirst fun _ b6 _ =>
    .read_bind (.ite (fun _ => ?_) fun _ => hlast b6)
  exact .seq (supplies_runDeferred hp) fun _ b7 _ => hlast b7

set_option synthInstance.maxSize 4000 in
instance (f : Function) (id : Nat) (ps : List Nat) (body : Stmt) :
    IsForward (functionDefinition f id ps body) := by
  unfold functionDefinition
  dsimp only
  infer_instance

lemma supplies_definition_of {f : Nat} {ps : List Nat} {body : Stmt} {span : Span}
    (h : Supplies d (match b.functionIds[f]? with
      | none => pure ()
      | some id => do
        functionDefinition (s.program.functionAt f) id ps body
        if s.program.kind = .base && (s.program.functionAt f).modifiers.has .exported then
          decorate id .linkageAttributes (textWords (s.program.functionAt f).name ++ [0])) s
          { b with span } fun _ b' => b'.body = {}) :
    Supplies d (definition (.definition f ps body span)) s b fun _ b' => b'.body = {} :=
  fun hclean hb => h hclean (hb.congr (Nat.le_refl _) rfl rfl rfl rfl ⟨rfl, rfl⟩ ⟨rfl, rfl⟩ rfl ⟨rfl, rfl⟩)

lemma supplies_definition {e : Element} (hp : s.program.Sound) (he : e.WellTyped s.program.declared)
    (hbody : b.body = {}) :
    Supplies s.program.declared (definition e) s b fun _ b' => b'.body = {} := by
  cases e with
  | definition f ps body span =>
    obtain ⟨g, hg, -, -, hwell, -⟩ := he
    have hfunction : s.program.functionAt f = g := by
      rw [Program.functionAt, show s.program.functions.get? f = some g from hg, Option.getD_some]
    refine fun hclean hb => supplies_definition_of ?_ hclean hb
    rw [hfunction]
    cases hid : b.functionIds[f]? with
    | none => exact .pure hbody
    | some id =>
      have htaken : ({ b with span } : Builder).IsTaken id := hb.functionIds id ⟨f, hid⟩
      have hbody : ({ b with span } : Builder).body = {} := hbody
      refine .seq (supplies_functionDefinition hp hwell hbody htaken).forward fun _ b1 hpost => ?_
      obtain ⟨hbody, hnext⟩ := hpost
      refine .ite (fun _ => ?_) fun _ => .pure hbody
      refine .weaken (supplies_decorate ⟨htaken.1, Nat.lt_of_lt_of_le htaken.2 hnext⟩).outside fun _ b2 h2 => ?_
      exact h2.2.2.trans hbody
  | _ => exact .pure hbody

/-! ### Modules -/

lemma supplies_declarations {es : List Element} (hp : s.program.Sound)
    (hes : ∀ e ∈ es, e.WellTyped s.program.declared) :
    Supplies s.program.declared (es.forM declaration) s b fun _ _ => True := by
  induction es generalizing b with
  | nil => exact .pure trivial
  | cons e es ih =>
    rw [List.forall_mem_cons] at hes
    exact .seq (supplies_declaration hp hes.1) fun _ _ _ => ih hes.2

instance (e : Element) : IsForward (definition e) := by
  cases e with
  | definition f ps body span =>
    unfold definition
    refine @IsForward.bind _ _ _ _ inferInstance fun _ => @IsForward.bind _ _ _ _ inferInstance fun s => ?_
    refine @IsForward.bind _ _ _ _ inferInstance fun b => ?_
    split <;> infer_instance
  | _ => exact inferInstanceAs (IsForward (pure ()))

lemma supplies_definitions {es : List Element} (hp : s.program.Sound)
    (hes : ∀ e ∈ es, e.WellTyped s.program.declared) (hbody : b.body = {}) :
    Supplies s.program.declared (es.forM definition) s b fun _ _ => True := by
  induction es generalizing b with
  | nil => exact .pure trivial
  | cons e es ih =>
    rw [List.forall_mem_cons] at hes
    exact .seq (supplies_definition hp hes.1 hbody) fun _ _ hbody => ih hes.2 hbody

end Build

namespace Builder

lemma Ordered.start {d : Declared} {next mathSet : Nat} {functionIds : Std.TreeMap Nat Nat}
    {modes : List Mode} {journal : Journal}
    (hnext : 0 < next) (hids : ∀ {f id : Nat}, functionIds[f]? = some id → 0 < id ∧ id < next) :
    ({ next, mathSet, functionIds, modes, journal } : Builder).Ordered d where
  next := hnext
  tabled := ⟨by simp, by simp, nofun⟩
  positive := nofun
  globals := trivial
  text := trivial
  calls := nofun
  structs {n x layout} h := by obtain _ | _ | _ := layout <;> simp [StructIds.get?] at h
  places := by simp
  functionIds := fun _ ⟨_, hf⟩ => hids hf
  notes := nofun
  interface := nofun
  deferred := nofun

variable {p : Program} {version : SpirvVersion} {journal : Journal}

/-- A program without problems is written in order, and ids have been set aside for its functions
only. -/
lemma ordered_parts (hp : p.Sound) (hclean : (Build.parts ⟨p, version⟩ { journal }).2.journal.Clean) :
    (Build.parts ⟨p, version⟩ { journal }).2.Ordered p.declared ∧
      ∀ f id : Nat, (Build.parts ⟨p, version⟩ { journal }).2.functionIds[f]? = some id → f ∈ p.definitions := by
  let s : Setting := ⟨p, version⟩
  let b1 : Builder := { next := 2, mathSet := 1, modes := (stageModes p.kind).reverse, journal }
  have hempty : Distinct [] ({ journal } : Builder) :=
    ⟨Nat.le_refl 1, List.nodup_nil, fun x hx => absurd hx List.not_mem_nil⟩
  have h1 : Distinct [1] b1 := ⟨hempty.fresh.pos, hempty.fresh.nodup, hempty.fresh.range⟩
  have hreserved : Reserves p.definitions [1] b1 (p.elements.forM Build.reserve s b1).2 :=
    reserve p.elements h1 hp.definitions
  let rest : Build Unit := do p.elements.forM Build.declaration; p.elements.forM Build.definition
  change (rest s (p.elements.forM Build.reserve s b1).2).2.journal.Clean at hclean
  change (rest s (p.elements.forM Build.reserve s b1).2).2.Ordered p.declared ∧
    ∀ f id : Nat, (rest s (p.elements.forM Build.reserve s b1).2).2.functionIds[f]? = some id → f ∈ p.definitions
  revert hclean hreserved
  generalize (p.elements.forM Build.reserve s b1).2 = b2
  intro hreserved hclean
  have hids (f id : Nat) (hf : b2.functionIds[f]? = some id) : f ∈ p.definitions := by
    by_contra hnot
    rw [hreserved.others f hnot] at hf
    simp [b1] at hf
  have hb2 : b2.Ordered p.declared := by
    rw [hreserved.rest]
    refine .start hreserved.distinct.pos fun {f id} hf => hreserved.distinct.range id ?_
    exact List.mem_append_left _ (List.mem_append_left _ (List.mem_filterMap.mpr ⟨f, hids f id hf, hf⟩))
  have hbody : b2.body = {} := by rw [hreserved.rest]
  have hdeclared : (p.elements.forM Build.declaration s b2).2.body = {} :=
    (Build.makes_declarations hb2.tabled hp.elements).1.body.trans hbody
  have hforward : Build.IsForward rest := inferInstance
  refine ⟨?_, by rw [hforward.functionIds]; exact hids⟩
  refine (Build.Supplies.seq (R := fun _ _ => True)
    ?_ (fun _ b3 hbody => Build.supplies_definitions (s := s) hp hp.elements hbody) hclean hb2).1
  exact fun hclean hb => ⟨(Build.supplies_declarations (s := s) hp hp.elements hclean hb).1, hdeclared⟩

/-- What has been written for a program without problems has composite types for structs. -/
lemma typed_parts (hp : p.Sound) (hclean : (Build.parts ⟨p, version⟩ { journal }).2.journal.Clean) :
    (Build.parts ⟨p, version⟩ { journal }).2.Typed := (ordered_parts hp hclean).1.typed

end Builder
end Shading.Spirv
