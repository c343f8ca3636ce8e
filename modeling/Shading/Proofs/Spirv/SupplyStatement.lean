import Shading.Proofs.Spirv.SupplyExpression

/-! Statements are written in order: a jump needs its condition and nothing else, and a variable is
there once it is declared. -/
namespace Shading.Spirv

set_option synthInstance.maxSize 1000

open Builder (Extends Ordered IsGlobal IsTaken IsFunction Has)

namespace Build

variable {α β : Type} {d : Declared} {s : Setting} {b : Builder} {ty : Ty} {x : Nat}

/-- A step that adds in order to what has been written, wherever it is taken. -/
structure IsOrderly (d : Declared) (s : Setting) (m : Build α) : Prop where
  growing : IsGrowing m
  supplies : ∀ b, Supplies d m s b fun _ _ => True

namespace IsOrderly

lemma of_supplies {m : Build α} [hm : IsGrowing m] {Q : α → Builder → Prop}
    (h : ∀ b, Supplies d m s b Q) : IsOrderly d s m :=
  ⟨hm, fun b => .weaken (h b) fun _ _ _ => trivial⟩

lemma bind {m : Build α} {f : α → Build β} (hm : IsOrderly d s m) (hf : ∀ a, IsOrderly d s (f a)) :
    IsOrderly d s (m >>= f) := by
  have := hm.growing
  have (a : α) := (hf a).growing
  exact ⟨inferInstance, fun b => .bind (hm.supplies b) fun a b' _ _ => (hf a).supplies b'⟩

lemma pure (a : α) : IsOrderly d s (pure a : Build α) := ⟨inferInstance, fun _ => .pure trivial⟩

lemma ite {p : Prop} [Decidable p] {m n : Build α} (hm : IsOrderly d s m) (hn : IsOrderly d s n) :
    IsOrderly d s (if p then m else n) := by
  split <;> assumption

lemma body {f : Body → Body} (h : ∀ body, (f body).header = body.header ∧
    (f body).locals = body.locals ∧ (f body).code = body.code) :
    IsOrderly d s (modify fun b => { b with body := f b.body }) :=
  ⟨.of_body (fun body => (h body).1) (fun body => (h body).2.1) fun body => (h body).2.2, fun _ =>
    supplies_body h⟩

lemma get : IsOrderly d s (get : Build Builder) := ⟨inferInstance, fun _ _ hb => ⟨hb, trivial⟩⟩

lemma fresh : IsOrderly d s fresh := of_supplies fun _ => .fresh

lemma label (l : Nat) : IsOrderly d s (label l) := of_supplies fun _ => supplies_label

lemma branch (target : Nat) : IsOrderly d s (branch target) := of_supplies fun _ => supplies_branch

lemma leave {op : Op} (hop : op ≠ .functionCall) : IsOrderly d s (terminate op []) :=
    of_supplies fun _ => supplies_terminate hop (by
  rw [Instruction.needs]
  split <;> exact hasAll_nil)

lemma jump {innermost? : Body → Option JumpTarget} {mark : Body → Body}
    (h : ∀ body, (mark body).header = body.header ∧ (mark body).locals = body.locals ∧
    (mark body).code = body.code) :
    IsOrderly d s (jump innermost? mark) := by
  refine get.bind fun b => ?_
  split
  · exact pure ()
  · exact (body h).bind fun _ => (branch _).bind fun _ => pure ()

lemma labelIf (reachable : Bool) (l : Nat) : IsOrderly d s (labelIf reachable l) :=
  (label l).bind fun _ => ite (leave nofun) (pure ())

lemma ifReached {append : Build Unit} (h : IsOrderly d s append) (stmt : Stmt) :
    IsOrderly d s (ifReached stmt append) := by
  refine (of_supplies fun _ => supplies_openBlock?).bind fun block => ?_
  cases block with
  | none => exact of_supplies fun _ => .note
  | some _ => exact (of_supplies fun _ => .setSpan).bind fun _ => h

end IsOrderly

/-- The value of an expression may be used once it has been computed. -/
def IsSupplied (d : Declared) (s : Setting) (e : Expr) : Prop :=
    ∀ b, Supplies d (value e) s b fun x b' => b'.Has x

lemma IsSupplied.discard {e : Expr} (h : IsSupplied d s e) : IsOrderly d s (value e) := .of_supplies h

lemma IsSupplied.bind {e : Expr} {f : Nat → Build α} [∀ x, IsGrowing (f x)] (h : IsSupplied d s e)
    (hf : ∀ x b, b.Has x → Supplies d (f x) s b fun _ _ => True) : IsOrderly d s (value e >>= f) :=
  .of_supplies fun b => .bind (h b) fun x b' _ hx => hf x b' hx

lemma IsSupplied.branchOn {e : Expr} {whenTrue whenFalse : Nat} {f : Unit → Build α}
    (h : IsSupplied d s e) (hf : ∀ u, IsOrderly d s (f u)) :
    IsOrderly d s (value e >>= fun x => branchOn x whenTrue whenFalse >>= f) := by
  have (u : Unit) := (hf u).growing
  exact h.bind fun x b hx => .bind (supplies_branchOn hx) fun u b' _ _ => (hf u).supplies b'

/-! ### Selections -/

section

variable {condition : Nat} {body other : Build Unit} (hbody : IsOrderly d s body) (hcondition : b.Has condition)
include hbody hcondition

lemma supplies_ifThen : Supplies d (ifThen condition body) s b fun _ _ => True := by
  have := hbody.growing
  refine .bind .fresh fun whenTrue b1 h1 _ => .bind .fresh fun merge b2 h2 _ =>
    .bind supplies_selectionMerge fun _ b3 h3 _ => ?_
  refine .bind (supplies_branchOn (((h1.trans h2).trans h3).has hcondition)) fun _ b4 _ _ => ?_
  have hrest := (IsOrderly.label whenTrue).bind fun _ => hbody.bind fun _ =>
    (IsOrderly.branch merge).bind fun _ => .label merge
  exact hrest.supplies b4

lemma supplies_ifElse (hother : IsOrderly d s other) :
    Supplies d (ifElse condition body other) s b fun _ _ => True := by
  have := hbody.growing
  have := hother.growing
  refine .bind .fresh fun whenTrue b1 h1 _ => .bind .fresh fun merge b2 h2 _ =>
    .bind .fresh fun whenFalse b3 h3 _ => ?_
  refine .bind supplies_selectionMerge fun _ b4 h4 _ => ?_
  refine .bind (supplies_branchOn ((((h1.trans h2).trans h3).trans h4).has hcondition)) fun _ b5 _ _ => ?_
  have hrest := (IsOrderly.label whenTrue).bind fun _ => hbody.bind fun _ =>
    (IsOrderly.branch merge).bind fun first =>
    (IsOrderly.label whenFalse).bind fun _ => hother.bind fun _ =>
      (IsOrderly.branch merge).bind fun second => .labelIf (first || second) merge
  exact hrest.supplies b5

end

lemma supplies_switchOn {σ : Type} {selector : Nat} {cases : List (SwitchCase σ)}
    {body : Nat → List Nat → Build Bool}
    (hbody : ∀ merge labels, IsOrderly d s (body merge labels)) (hselector : b.Has selector) :
    Supplies d (switchOn selector cases body) s b fun _ _ => True := by
  have hgrowing (merge : Nat) (labels : List Nat) := (hbody merge labels).growing
  have hpush (merge : Nat) : IsOrderly d s (modify fun b =>
    { b with body := { b.body with breaks := { label := merge } :: b.body.breaks } }) :=
    .body (f := fun body => { body with breaks := { label := merge } :: body.breaks }) fun _ => ⟨rfl, rfl, rfl⟩
  have hpop : IsOrderly d s (modify fun b => { b with body := { b.body with breaks := b.body.breaks.tail } }) :=
    .body (f := fun body => { body with breaks := body.breaks.tail }) fun _ => ⟨rfl, rfl, rfl⟩
  have hlast (merge default : Nat) (labels : List Nat) := (hpush merge).bind fun _ =>
    (hbody merge labels).bind fun falls =>
    IsOrderly.get.bind fun b => hpop.bind fun _ =>
      .labelIf (default == merge || falls || b.body.breaks.head?.any (·.used)) merge
  have hgrows (merge default : Nat) (labels : List Nat) := (hlast merge default labels).growing
  have hlabels : IsGrowing (cases.mapM fun _ => fresh) := inferInstance
  unfold switchOn
  dsimp only
  refine .bind .fresh fun merge b1 h1 _ => .bind
    (.mapM (R := fun _ _ => True) (fun _ _ _ _ _ => trivial) fun _ _ _ _ =>
      .weaken .fresh fun _ _ _ => trivial) ?_
  intro labels b2 h2 _
  refine .bind supplies_selectionMerge fun _ b3 h3 _ =>
    .bind (supplies_terminate nofun ?_) fun _ b4 _ _ => (hlast merge _ labels).supplies b4
  simpa [Instruction.needs, Instruction.ids, switchOperands, Operand.ids, Operand.id?]
    using ((h1.trans h2).trans h3).has hselector

/-! ### Loops -/

namespace IsOrderly

lemma loopBody {start next merge : Nat} {body : Build Unit} (hbody : IsOrderly d s body) :
    IsOrderly d s (loopBody start next merge body) := by
  refine (IsOrderly.body (f := fun body => { body with
    breaks := { label := merge } :: body.breaks,
      continues := { label := next } :: body.continues }) fun _ => ⟨rfl, rfl, rfl⟩).bind fun _ => ?_
  refine (label start).bind fun _ => hbody.bind fun _ => (branch next).bind fun _ =>
    get.bind fun _ => bind ?_ fun _ => pure _
  exact .body (f := fun body => { body with breaks := body.breaks.tail, continues := body.continues.tail }) fun _ =>
    ⟨rfl, rfl, rfl⟩

lemma loopHeader {header next merge : Nat} : IsOrderly d s (loopHeader header next merge) :=
  (branch header).bind fun _ => (label header).bind fun _ => of_supplies fun _ => supplies_emit nofun nofun

section

variable {condition : Option Expr} {body : Build Unit}
    (hcondition : ∀ c ∈ condition, IsSupplied d s c) (hbody : IsOrderly d s body)
include hcondition hbody

omit hcondition hbody in
lemma loopWhile_end {step : Option Expr} (hstep : ∀ e ∈ step, IsSupplied d s e)
    (header next merge : Nat) (continues ends : Bool) :
    IsOrderly d s (do
      Build.label next
      if continues then
        if let some s := step then let _ ← value s
      let _ ← Build.branch header
      Build.labelIf ends merge : Build Unit) := by
  have hback := (branch (d := d) (s := s) header).bind fun _ => labelIf ends merge
  refine (label next).bind fun _ => ?_
  cases continues with
  | false => exact hback
  | true =>
    cases step with
    | none => exact hback
    | some e => exact (hstep e rfl).discard.bind fun _ => hback

lemma loopWhile {step : Option Expr} (hstep : ∀ e ∈ step, IsSupplied d s e) :
    IsOrderly d s (loopWhile condition step body) := by
  unfold Build.loopWhile
  refine fresh.bind fun header => fresh.bind fun check => fresh.bind fun start =>
    fresh.bind fun next => fresh.bind fun merge => ?_
  refine loopHeader.bind fun _ => (branch check).bind fun _ => (label check).bind fun _ => ?_
  cases condition with
  | none => exact (branch start).bind fun _ => (loopBody hbody).bind fun r => loopWhile_end hstep ..
  | some c =>
    refine (hcondition c rfl).branchOn fun _ => (loopBody hbody).bind fun r => ?_
    exact loopWhile_end hstep ..

lemma loopUntil : IsOrderly d s (loopUntil condition body) := by
  unfold Build.loopUntil
  refine fresh.bind fun header => fresh.bind fun start => fresh.bind fun next => fresh.bind fun merge => ?_
  refine loopHeader.bind fun _ => (branch start).bind fun _ => (loopBody hbody).bind fun r =>
    (label next).bind fun _ => ?_
  split
  · exact (hcondition _ rfl).branchOn fun _ => label merge
  · exact (branch header).bind fun _ => labelIf r.1 merge

end

end IsOrderly

/-! ### Statements -/

lemma supplies_declareLocal {n : Nat} : Supplies d (declareLocal n) s b fun x b' => b'.Has x := by
  refine .read_bind (.bind supplies_localVariable fun x b1 _ hx => .bind (supplies_name hx.2) fun _ b2 h2 _ => ?_)
  exact .bind (P := fun _ b' => b'.Has x) (fun _ hb => ⟨hb.insertPlace (h2.has hx.1), h2.has hx.1⟩)
    fun _ _ _ hx => .pure hx

mutual
lemma orderly_reached {returns : Ty} (hp : s.program.Sound) (stmt : Stmt)
    (hwell : stmt.WellTyped s.program.declared returns) :
    IsOrderly s.program.declared s (reached stmt) := by
  obtain ⟨-, hexprs, hparts⟩ := Stmt.wellTyped_iff.mp hwell
  have hvalue (e : Expr) (he : e ∈ stmt.exprs) : IsSupplied s.program.declared s e :=
    supplies_value hp e (hexprs e he)
  unfold reached
  cases stmt with
  | block braced body span => exact orderly_statements hp body hparts
  | if_ c t f span =>
    have ht := (orderly_reached hp t (hparts t List.mem_cons_self)).ifReached t
    have := ht.growing
    cases f with
    | none => exact (hvalue c List.mem_cons_self).bind fun x b hx => supplies_ifThen ht hx
    | some f =>
      have hf := (orderly_reached hp f (hparts f (by simp [Stmt.parts]))).ifReached f
      have := hf.growing
      exact (hvalue c List.mem_cons_self).bind fun x b hx => supplies_ifElse ht hx hf
  | loop kind init condition step body span =>
    have hbody := (orderly_reached hp body (hparts body (by simp [Stmt.parts]))).ifReached body
    have hcondition : ∀ c ∈ condition, IsSupplied s.program.declared s c := fun c hc =>
      hvalue c (by simp_all [Stmt.exprs])
    have hstep : ∀ e ∈ step, IsSupplied s.program.declared s e := fun e he => hvalue e (by simp_all [Stmt.exprs])
    have hwhile : IsOrderly s.program.declared s (do
        match init with
        | some i => ifReached i (reached i)
        | none => pure ()
        loopWhile condition step (ifReached body (reached body))) := by
      cases init with
      | none => exact .loopWhile hcondition hbody hstep
      | some i =>
        exact (orderly_reached hp i (hparts i (by simp [Stmt.parts]))).ifReached i |>.bind fun _ =>
          .loopWhile hcondition hbody hstep
    cases kind with
    | doWhile => exact .loopUntil hcondition hbody
    | _ => exact hwhile
  | switch e cases span =>
    have hcases (merge : Nat) (labels : List Nat) := orderly_switchCases hp merge labels false cases hparts
    have (x : Nat) : Composed Inner Span.Anywhere
      (switchOn x cases fun merge labels => switchCases merge labels false cases) :=
      .switchOn x cases fun merge labels => .switchCases merge labels false cases fun _ _ => inferInstance
    exact (hvalue e List.mem_cons_self).bind fun x b hx => supplies_switchOn hcases hx
  | return_ e span =>
    cases e with
    | none => exact .leave nofun
    | some e =>
      refine (hvalue e List.mem_cons_self).bind fun x b hx => supplies_terminate nofun ?_
      simpa [Instruction.needs, Instruction.ids, Operand.id?] using hx
  | break_ span => exact .jump fun _ => ⟨rfl, rfl, rfl⟩
  | continue_ span => exact .jump fun _ => ⟨rfl, rfl, rfl⟩
  | discard span => exact .leave nofun
  | declare n init span =>
    cases init with
    | none => exact (IsOrderly.of_supplies fun _ => supplies_declareLocal).bind fun _ => .pure ()
    | some e =>
      refine .of_supplies (Q := fun _ _ => True) fun b =>
        .bind supplies_declareLocal fun x b1 _ hx => .bind (hvalue e List.mem_cons_self b1) fun v b2 h2 hv => ?_
      exact supplies_emit nofun (hasAll_needs (by simpa using ⟨h2.has hx, hv⟩))
  | expr e span => exact (hvalue e List.mem_cons_self).discard.bind fun _ => .pure ()
  | empty span => exact .pure ()
lemma orderly_statements {returns : Ty} (hp : s.program.Sound) (stmts : List Stmt)
    (hwell : ∀ t ∈ stmts, t.WellTyped s.program.declared returns) :
    IsOrderly s.program.declared s (statements stmts) := by
  unfold statements
  cases stmts with
  | nil => exact .pure ()
  | cons stmt stmts =>
    rw [List.forall_mem_cons] at hwell
    exact (orderly_reached hp stmt hwell.1).ifReached stmt |>.bind fun _ => orderly_statements hp stmts hwell.2
lemma orderly_switchCases {returns : Ty} (hp : s.program.Sound) (merge : Nat) (labels : List Nat)
    (falls : Bool) (cases : List (SwitchCase Stmt))
    (hwell : ∀ t ∈ cases.flatMap (·.body), t.WellTyped s.program.declared returns) :
    IsOrderly s.program.declared s (switchCases merge labels falls cases) := by
  unfold switchCases
  cases cases with
  | nil => exact .pure falls
  | cons case cases =>
    obtain ⟨v, body, span⟩ := case
    rw [List.flatMap_cons, List.forall_mem_append] at hwell
    cases labels with
    | nil => exact .pure falls
    | cons l labels =>
      refine (IsOrderly.label l).bind fun _ => (orderly_statements hp body hwell.1).bind fun _ =>
        (IsOrderly.branch _).bind fun falls => ?_
      exact orderly_switchCases hp merge labels falls cases hwell.2
end

lemma orderly_statement {returns : Ty} {stmt : Stmt} (hp : s.program.Sound)
    (hwell : stmt.WellTyped s.program.declared returns) :
    IsOrderly s.program.declared s (statement stmt) :=
  (orderly_reached hp stmt hwell).ifReached stmt

end Build
end Shading.Spirv
