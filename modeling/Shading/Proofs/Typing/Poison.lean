import Shading.Proofs.Typing.Making
import Shading.Proofs.Typing.Soundness

/-! Poison stands for an expression that could not be made sense of. It only ever comes with a
report, so there is none in an accepted program; and it spreads to whatever is made of it without a
further report. -/
namespace Shading

lemma Expr.WellTyped.nodes {d : Declared} {e x : Expr} (h : e.WellTyped d) (hx : x ∈ e.nodes) :
    x.isPoison = false ∧ x.ty.isProper = true := by
  obtain ⟨hproper, htyped⟩ := h x hx
  refine ⟨?_, hproper⟩
  cases x with
  | poison => exact htyped.elim
  | _ => rfl

/-- Where poison is found among expressions that are well typed unless something has been reported,
something has been. -/
lemma Journal.hasProblems_of_isPoisoned {j : Journal} {d : Declared} {e x : Expr}
    (h : j.Clean → e.WellTyped d) (hx : x ∈ e.nodes)
    (hpoison : x.isPoisoned = true) : j.hasProblems = true := by
  by_contra hnone
  have hclean : j.Clean := Bool.eq_false_iff.mpr hnone
  obtain ⟨hkind, hproper⟩ := (h hclean).nodes hx
  simp [Expr.isPoisoned, hkind, Ty.isPoison_of_isProper hproper] at hpoison

/-! ### Poisoned operands -/

namespace Check

/-- The step gives a poisoned expression and leaves everything else as it is. -/
def Spreads (m : Check Expr) : Prop := ∀ c, (m c).1.isPoisoned = true ∧ (m c).2 = c

lemma spreads_poisoned (span : Span) : Spreads (pure (poisoned span)) := fun _ => ⟨rfl, rfl⟩

variable {span : Span}

lemma spreads_binary {l r : Expr} (op : Operator) (h : l.isPoisoned = true ∨ r.isPoisoned = true) :
    Spreads (binary l op r) := by
  intro c
  have hor : (l.isPoisoned || r.isPoisoned) = true := by simpa using h
  unfold binary
  simp only [hor, if_true]
  exact spreads_poisoned _ c

lemma spreads_unary {e : Expr} (op : Operator) (h : e.isPoisoned = true) : Spreads (unary op e span) := by
  intro c
  unfold unary
  simp only [h, if_true]
  exact spreads_poisoned _ c

lemma spreads_step {e : Expr} (op : Operator) (h : e.isPoisoned = true) : Spreads (step op e span) := by
  intro c
  unfold step
  simp only [h, if_true]
  exact spreads_poisoned _ c

lemma spreads_index {b i : Expr} (h : b.isPoisoned = true ∨ i.isPoisoned = true) : Spreads (index b i span) := by
  intro c
  have hor : (b.isPoisoned || i.isPoisoned) = true := by simpa using h
  unfold index
  simp only [hor, if_true]
  exact spreads_poisoned _ c

lemma spreads_field {b : Expr} (name : String) (h : b.isPoisoned = true) : Spreads (field b name span) := by
  intro c
  unfold field
  simp only [h, if_true]
  exact spreads_poisoned _ c

lemma spreads_call {arguments : List Expr} (name : String) (overloads : List Nat)
    (h : ∃ e ∈ arguments, e.isPoisoned = true) :
    Spreads (call name overloads arguments span) := by
  intro c
  unfold call
  simp only [List.any_eq_true.mpr h, if_true]
  exact spreads_poisoned _ c

lemma spreads_constructor {arguments : List Expr} (ty : Ty) (h : ∃ e ∈ arguments, e.isPoisoned = true) :
    Spreads (constructor ty arguments span) := by
  intro c
  unfold constructor
  simp only [List.any_eq_true.mpr h, if_true]
  exact spreads_poisoned _ c

/-- A condition that is no boolean is converted first, which may be reported. -/
lemma spreads_conditional {e t f : Expr} (he : e.ty = .bool ∨ e.isPoisoned = true)
    (h : e.isPoisoned = true ∨ t.isPoisoned = true ∨ f.isPoisoned = true) : Spreads (conditional e t f) := by
  intro c
  have hor : (e.isPoisoned || t.isPoisoned || f.isPoisoned) = true := by simpa [or_assoc] using h
  have hkeep : (decide (e.ty = .bool) || e.isPoisoned || Ty.bool.isPoison) = true := by
    obtain he | he := he <;> simp [he]
  have hcoerce : coerce e .bool = pure e := by
    unfold coerce
    rw [if_pos hkeep]
  unfold conditional
  simp only [hcoerce, pure_bind, hor, if_true]
  exact spreads_poisoned _ c

end Check

/-! ### Reading -/

namespace Grammar

/-- While nothing has been reported, the state is sound. -/
def State.Steady (s : State) : Prop := s.context.journal.Clean → s.Sound

variable {α : Type} {s : State} {m : Parse α} {exprs : α → List Expr}

/-- What is read is poisoned only after a report, and reading breaks off only after one. -/
structure Reports (s : State) (m : Parse α) (exprs : α → List Expr) : Prop where
  steady : ∀ {a t}, m s = .ok a t → t.Steady
  poison : ∀ {a t}, m s = .ok a t → ∀ e ∈ exprs a, ∀ x ∈ e.nodes, x.isPoisoned = true →
    t.context.journal.hasProblems = true
  stop : ∀ {why t}, m s = .error why t → t.context.journal.hasProblems = true

lemma Ensures.reports_of (hok : ∀ {a t}, m s = .ok a t → s.context.journal <:+ t.context.journal)
    (herror : ∀ {e t}, m s = .error e t → ¬ t.context.journal.Clean) (hs : s.Steady)
    (h : Ensures .ofTypes s m fun a d => ∀ e ∈ exprs a, e.WellTyped d) : Reports s m exprs := by
  have hsound {a : α} {t : State} (hrun : m s = .ok a t) (hclean : t.context.journal.Clean) :=
    h a t hrun hclean False.elim (hs (hclean.of_suffix (hok hrun))).good
  refine ⟨fun hrun hclean => (hsound hrun hclean).1.toSound, fun hrun e he x hx hpoison => ?_, fun hrun => ?_⟩
  · exact Journal.hasProblems_of_isPoisoned (fun hclean => (hsound hrun hclean).2.2 e he) hx hpoison
  · exact Bool.of_not_eq_false (herror hrun)

lemma Ensures.reports [hm : KeepsJournal m] (hs : s.Steady)
    (h : Ensures .ofTypes s m fun a d => ∀ e ∈ exprs a, e.WellTyped d) :
    Reports s m exprs :=
  reports_of KeepsJournal.ok KeepsJournal.error hs h

/-- The functions that read an expression, one for each level of binding, at any depth. -/
inductive ReadsExpr : Parse Expr → Prop
  | primary (depth fuel : Nat) (env : Surroundings) : ReadsExpr (primary (expressions depth) fuel env)
  | trailing (depth fuel : Nat) (env : Surroundings) : ReadsExpr (trailing (expressions depth) fuel env)
  | leading (depth fuel : Nat) (env : Surroundings) (room : Nat) :
    ReadsExpr (leading (expressions depth) fuel env room)
  | binaryLevels (depth fuel : Nat) (env : Surroundings) (levels : Nat) :
      ReadsExpr (binaryLevels (expressions depth) fuel env levels)
  | conditional (depth fuel : Nat) (env : Surroundings) : ReadsExpr (conditional (expressions depth) fuel env)
  | single (depth : Nat) (env : Surroundings) : ReadsExpr ((expressions depth).single env)
  | whole (depth : Nat) (env : Surroundings) : ReadsExpr ((expressions depth).whole env)

lemma ReadsExpr.keepsJournal {m : Parse Expr} (hm : ReadsExpr m) : KeepsJournal m := by
  cases hm with
  | single depth env => exact ((sound_expressions depth).single env).toKeepsJournal
  | whole depth env => exact ((sound_expressions depth).whole env).toKeepsJournal
  | _ => infer_instance

lemma ReadsExpr.ensures {v : View} {m : Parse Expr} (hm : ReadsExpr m) : Ensures v s m fun e d => e.Good v d := by
  cases hm with
  | primary depth fuel env => exact primary_ensures
  | trailing depth fuel env => exact trailing_ensures
  | leading depth fuel env room => exact leading_ensures
  | binaryLevels depth fuel env levels => exact binaryLevels_ensures
  | conditional depth fuel env => exact conditional_ensures
  | single depth env => exact (sound_expressions depth).ensures_single v s env
  | whole depth env => exact (sound_expressions depth).ensures_whole v s env

/-- The functions that read expressions: one alone, the arguments of a call, the ones in a
statement, in declarations or in a whole source. The expressions they give are stated with them. -/
inductive ReadsExprs : {α : Type} → Parse α → (α → List Expr) → Prop
  | expression {m : Parse Expr} (hm : ReadsExpr m) : ReadsExprs m fun e => [e]
  | arguments (depth fuel : Nat) (env : Surroundings) : ReadsExprs (arguments (expressions depth) fuel env) id
  | statement (count : Nat) {env : Surroundings} {returns : Ty} (henv : env.returns = some returns)
    (hty : returns.isProper = true) :
      ReadsExprs ((partsFor count).statement env) fun st => st.nodes.flatMap Stmt.exprs
  | declarations (count fuel : Nat) : ReadsExprs (declarations (partsFor count) fuel) fun _ => []
  | program (count stop : Nat) : ReadsExprs (program (partsFor count) stop) fun _ => []

lemma steady_beginning (source : String) (kind : ShaderKind) (options : CompileOptions) :
    (beginning source kind options).Steady := fun _ =>
  sound_beginning

lemma ReadsExprs.reports (hm : ReadsExprs m exprs) (hs : s.Steady) : Reports s m exprs := by
  cases hm with
  | expression hm =>
    have hkeeps := hm.keepsJournal
    exact Ensures.reports hs (.weaken hm.ensures fun e d _ he => List.forall_mem_singleton.mpr he.1)
  | arguments depth fuel env =>
    exact Ensures.reports hs (.weaken arguments_ensures fun es d _ hes e he => (hes e he).1)
  | statement count henv hty =>
    have hparts : (partsFor count).Sound := inferInstance
    refine Ensures.reports hs (.weaken (hparts.ensures_statement _ s _ _ henv hty) fun st d _ hst e he => ?_)
    obtain ⟨x, hx, he⟩ := List.mem_flatMap.mp he
    exact (hst.1 x hx).2 e he
  | declarations count fuel =>
    exact Ensures.reports hs (.weaken declarations_ensures fun _ _ _ _ e he => absurd he List.not_mem_nil)
  | program count stop =>
    refine Ensures.reports_of (fun {_ t} hrun => ?_) (fun hrun => KeepsJournal.error (error_program.mp hrun)) hs
      fun _ t hrun hclean hfinal hs => ?_
    · obtain ⟨u, c, hdeclarations, hcloses, rfl⟩ := ok_program hrun
      exact (KeepsJournal.ok hdeclarations).trans hcloses.precedes.journal
    obtain ⟨ht, hle, -⟩ := program_clean hrun hclean hfinal hs
    exact ⟨ht, hle, fun e he => absurd he List.not_mem_nil⟩

end Grammar

/-! ### Accepted programs -/

namespace Program

/-- Nothing in the program stands for something missing, and nothing is generic but what is part of
the language. -/
structure IsWhole (p : Program) : Prop where
  nodes : ∀ e ∈ p.nodes, e.isPoison = false ∧ e.ty.isProper = true
  «variables» : ∀ v ∈ p.variables, v.ty.isProper = true
  functions : ∀ f ∈ p.functions.items, f.returns.isProper = true ∧ ∀ ty ∈ f.parameterTypes, ty.isProper = true
  structs : ∀ ty span, .struct ty span ∈ p.elements → ty.isProper = true

lemma Sound.isWhole {p : Program} (h : p.Sound) : p.IsWhole := by
  refine ⟨fun e he => ?_, fun v hv => ?_, fun f hf => ?_, fun ty span he => h.elements _ he⟩
  · obtain ⟨hproper, htyped⟩ := h.nodes e he
    refine ⟨?_, hproper⟩
    cases e with
    | poison => exact htyped.elim
    | _ => rfl
  · obtain ⟨n, hn⟩ := Array.mem_iff_getElem?.mp hv
    exact (h.variable_ hn).proper
  · exact (h.items f hf).2.declared (h.items f hf).1

/-- The discipline of poison. Whatever steps of checking have been taken, and wherever reading has
come to, an expression with a poisoned node is there only if something has been reported; an
accepted program has no poison in it, and no type that is missing or generic. Made of poisoned
operands, an expression is poisoned too, without any other effect. -/
theorem poison_discipline :
    (∀ c made, Check.Arises c made →
      ∀ e ∈ made.exprs, ∀ x ∈ e.nodes, x.isPoisoned = true → c.journal.hasProblems = true) ∧
    (∀ source kind options, (Grammar.beginning source kind options).Steady) ∧
    (∀ {α : Type} (s : Grammar.State) (m : Grammar.Parse α) (exprs : α → List Expr),
      s.Steady → Grammar.ReadsExprs m exprs → Grammar.Reports s m exprs) ∧
    (∀ source kind options p, (Program.parse source kind options).result = .ok p → p.IsWhole) ∧
    (∀ l op r, l.isPoisoned = true ∨ r.isPoisoned = true → Check.Spreads (Check.binary l op r)) ∧
    (∀ op e span, e.isPoisoned = true → Check.Spreads (Check.unary op e span)) ∧
    (∀ op e span, e.isPoisoned = true → Check.Spreads (Check.step op e span)) ∧
    (∀ b i span, b.isPoisoned = true ∨ i.isPoisoned = true → Check.Spreads (Check.index b i span)) ∧
    (∀ b name span, b.isPoisoned = true → Check.Spreads (Check.field b name span)) ∧
    (∀ name overloads arguments span, (∃ e ∈ arguments, e.isPoisoned = true) →
      Check.Spreads (Check.call name overloads arguments span)) ∧
    (∀ ty arguments span, (∃ e ∈ arguments, e.isPoisoned = true) →
      Check.Spreads (Check.constructor ty arguments span)) ∧
    (∀ e t f, e.ty = .bool ∨ e.isPoisoned = true →
      e.isPoisoned = true ∨ t.isPoisoned = true ∨ f.isPoisoned = true →
      Check.Spreads (Check.conditional e t f)) := by
  refine ⟨fun c made h e he x hx => ?_, Grammar.steady_beginning, fun s m exprs hs hm => hm.reports hs, ?_,
    fun l op r => Check.spreads_binary op, fun op e span => Check.spreads_unary op, fun op e span =>
      Check.spreads_step op,
    fun b i span => Check.spreads_index, fun b name span => Check.spreads_field name,
    fun name overloads as span => Check.spreads_call name overloads, fun ty as span =>
      Check.spreads_constructor ty,
    fun e t f => Check.spreads_conditional⟩
  · exact Journal.hasProblems_of_isPoisoned (fun hclean => (h.sound hclean).exprs e he) hx
  · exact fun source kind options p h => (sound_of_parse h).isWhole

/-- An unknown name is poison, which spreads to a sum without a further report. -/
theorem poison_discipline_unknown_name :
    let y : Check Expr := do
      Check.report (.unknownSymbol "y") ⟨0, 1⟩
      return Check.poisoned ⟨0, 1⟩
    let c : Context := { Context.initial .fragment {} with
      journal := .readingStarted 5 .fragment :: (Context.initial .fragment {}).journal }
    (y c).1.isPoisoned = true ∧ (y c).2.journal.hasProblems = true ∧
      Check.Spreads (Check.binary (y c).1 .add (.literal (.int 1) .int ⟨4, 5⟩)) := by
  intro y c
  have hy : Check.Arises (y c).2 ⟨[(y c).1], []⟩ := .expr (.start .fragment {} 5) (.unknown "y" ⟨0, 1⟩ ⟨0, 1⟩)
  obtain ⟨hreported, -, -, -, hbinary, -⟩ := poison_discipline
  refine ⟨rfl, ?_, hbinary _ .add _ (.inl rfl)⟩
  exact hreported _ _ hy _ List.mem_cons_self _ (Expr.mem_nodes.mpr (.inl rfl)) rfl

end Program

end Shading
