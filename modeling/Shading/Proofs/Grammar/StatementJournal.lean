import Shading.Proofs.Grammar.Journal

/-! Statements and declarations: here too, what has been reported stays, and reading stops only
after a report. Statements leave the scopes as they were, up to names that are bound in the
innermost one. What enters a scope leaves it again, so blocks, `for` loops, switches and the bodies
of functions leave all scopes as they found them. -/
namespace Shading

namespace Scopes

/-- Binds names one after the other. -/
def binds (s : Scopes) (bs : Bindings) : Scopes := bs.foldl (fun s b => s.bind b.1 b.2) s

lemma leave_binds_enter (s : Scopes) (bs : Bindings) : (s.enter.binds bs).leave = s := by
  have hscope (scope : Bindings) : ∃ scope', binds ⟨scope :: s.inner, s.global⟩ bs =
    ⟨scope' :: s.inner, s.global⟩ := by
    induction bs generalizing scope with
    | nil => exact ⟨scope, rfl⟩
    | cons b bs ih => exact ih (b :: scope)
  obtain ⟨scope, hscope⟩ := hscope []
  unfold enter
  rw [hscope, leave, List.tail_cons]

lemma eq_bind_of_insert? {s t : Scopes} {name : String} {symbol : Symbol} (h : s.insert? name symbol = some t) :
    ∃ symbol, t = s.bind name symbol := by
  unfold insert? at h
  split at h
  · cases h
    exact ⟨_, rfl⟩
  · cases h
  · cases h
    exact ⟨_, rfl⟩
  · cases h
    exact ⟨_, rfl⟩

end Scopes

namespace Grammar

variable {α β : Type}

-- Long steps are bound together from many parts, and the instances follow the parts.
set_option synthInstance.maxSize 1000

namespace State

variable {s t u : State}

/-- Names have been bound in the innermost scope. -/
structure Widens (s t : State) : Prop where
  elements : t.elements = s.elements
  functions : t.context.functions = s.context.functions
  scopes : ∃ bs, t.context.scopes = s.context.scopes.binds bs

lemma Stays.widens (h : s.Stays t) : s.Widens t := ⟨h.elements, h.functions, [], h.scopes⟩

lemma Widens.trans (h : s.Widens t) (k : t.Widens u) : s.Widens u := by
  obtain ⟨bs, hbs⟩ := h.scopes
  obtain ⟨cs, hcs⟩ := k.scopes
  refine ⟨k.elements.trans h.elements, k.functions.trans h.functions, bs ++ cs, ?_⟩
  rw [hcs, hbs, Scopes.binds, Scopes.binds, Scopes.binds, List.foldl_append]

/-- Names have been bound in the innermost scope, and the scope has been left. -/
def Leaves (s u : State) : Prop :=
  ∃ t, s.Widens t ∧ Stays { t with context := { t.context with scopes := t.context.scopes.leave } } u

end State

/-- The step binds names only in the innermost scope. -/
class Widens (m : Parse α) : Prop extends KeepsJournal m where
  widens : ∀ {s a t}, m s = .ok a t → s.Widens t

/-- The step leaves the innermost scope after it may have bound names in it. -/
class Leaves (m : Parse α) : Prop extends KeepsJournal m where
  leaves : ∀ {s a t}, m s = .ok a t → s.Leaves t

namespace Widens

instance (priority := low) (m : Parse α) [hm : Still m] : Widens m := ⟨fun h => (hm.stays h).widens⟩

instance bind (m : Parse α) (f : α → Parse β) [hm : Widens m] [hf : ∀ a, Widens (f a)] : Widens (m >>= f) where
  widens h := by
    obtain ⟨a, t, hrun, h⟩ := ok_bind h
    exact (hm.widens hrun).trans ((hf a).widens h)

instance (f : α → β) (m : Parse α) [Widens m] : Widens (f <$> m) :=
    inferInstanceAs (Widens (m >>= fun a => Pure.pure (f a)))

instance (p : Prop) [Decidable p] (m n : Parse α) [hm : Widens m] [hn : Widens n] :
    Widens (if p then m else n) := by
  split <;> assumption

instance (env : Surroundings) (opening : Word) (inside : Surroundings → Parse α) [∀ env, Widens (inside env)] :
    Widens (nested env opening inside) := by
  unfold nested; split <;> infer_instance

instance lift_bind (m : Check α) (f : α → Check β) [Widens (lift m)] [∀ a, Widens (lift (f a))] :
    Widens (lift (m >>= f)) :=
  inferInstanceAs (Widens (lift m >>= fun a => lift (f a)))

instance lift_mapM (f : α → Check β) [∀ a, Widens (lift (f a))] (as : List α) : Widens (lift (as.mapM f)) := by
  induction as with
  | nil => rw [List.mapM_nil]; infer_instance
  | cons a as ih => rw [List.mapM_cons]; infer_instance

instance (m : Check α) [h : Widens (lift m)] : Widens (liftM m : Parse α) := h

instance (name : String) (symbol : Symbol) (span : Span) : Widens (lift (Check.bindName name symbol span)) where
  widens {s a t} h := by
    obtain rfl : { s with context := (Check.bindName name symbol span s.context).2 } = t := by cases h; rfl
    rw [Check.bindName_eq]
    split
    · obtain ⟨bound, hbound⟩ := Scopes.eq_bind_of_insert? ‹_›
      exact ⟨rfl, rfl, [(name, bound)], hbound⟩
    · exact ⟨rfl, rfl, [], rfl⟩

instance (m : Modifiers) (ty : Ty) (name : String) (span : Span) (e : Option Expr) (storage : Storage) :
    Widens (lift (Check.declareVariable m ty name span e storage)) := by
  unfold Check.declareVariable; infer_instance

end Widens

namespace Leaves

instance bind (m : Parse α) (f : α → Parse β) [hm : Widens m] [hf : ∀ a, Leaves (f a)] : Leaves (m >>= f) where
  leaves h := by
    obtain ⟨a, t, hrun, h⟩ := ok_bind h
    obtain ⟨u, hu, hstays⟩ := (hf a).leaves h
    exact ⟨u, (hm.widens hrun).trans hu, hstays⟩

instance (p : Prop) [Decidable p] (m n : Parse α) [hm : Leaves m] [hn : Leaves n] :
    Leaves (if p then m else n) := by
  split <;> assumption

instance (f : Unit → Parse β) [hf : ∀ u, Still (f u)] : Leaves ((liftM Check.leaveScope : Parse Unit) >>= f) where
  leaves {s _ _} h := ⟨s, (State.Stays.refl s).widens, (hf ()).stays h⟩

instance enter (f : Unit → Parse β) [hf : ∀ u, Leaves (f u)] :
    Still ((liftM Check.enterScope : Parse Unit) >>= f) where
  stays {s a t} h := by
    obtain ⟨u, ⟨helements, hfunctions, bs, hscopes⟩, hstays⟩ := (hf ()).leaves h
    refine ⟨hstays.elements.trans helements, hstays.scopes.trans ?_, hstays.functions.trans hfunctions⟩
    dsimp only
    rw [hscopes]
    exact Scopes.leave_binds_enter ..

end Leaves

/-- The parts of statements: expressions bind no names, and inner statements bind names only in the
innermost scope. -/
class Widens.OfParts (parts : Parts) : Prop where
  expression : Still.OfInner parts.expression
  statement : ∀ env, Widens (parts.statement env)

namespace Widens

attribute [instance] OfParts.expression OfParts.statement

variable (parts : Parts) [OfParts parts] (env : Surroundings)

instance localDeclarators (m : Modifiers) (base : Ty) (n : Nat) (found : List Stmt) :
    Widens (localDeclarators parts env m base n found) := by
  induction n generalizing found with
  | zero => unfold Grammar.localDeclarators; infer_instance
  | succ n ih => unfold Grammar.localDeclarators; infer_instance

instance : Widens (localDeclaration parts env) := by
  unfold localDeclaration
  repeat' first | infer_instance | refine @bind _ _ _ _ inferInstance fun _ => ?_ | split

instance : Still (expressionStatement parts env) := by unfold expressionStatement; infer_instance

instance blockStatements (n : Nat) (found : List Stmt) : Widens (blockStatements parts env n found) := by
  induction n generalizing found with
  | zero => unfold Grammar.blockStatements; infer_instance
  | succ n ih =>
    unfold Grammar.blockStatements
    refine @bind _ _ _ _ inferInstance fun w => ?_
    split <;> infer_instance

instance (opening : Word) : Widens (blockBody parts env opening) := by unfold blockBody; infer_instance

instance : Still (blockStatement parts env) := by unfold blockStatement; infer_instance

instance : Still (condition parts env) := by unfold condition; infer_instance

instance : Widens (ifStatement parts env) := by unfold ifStatement; infer_instance

instance : Widens (loopBody parts env) := by unfold loopBody; infer_instance

instance : Widens (forInit parts env) := by unfold forInit; infer_instance

instance : Still (forCondition parts env) := by unfold forCondition; infer_instance

instance : Still (forStatement parts env) := by
  unfold forStatement
  refine @Still.bind _ _ _ _ inferInstance fun _ => @Still.bind _ _ _ _ inferInstance fun _ =>
    @Leaves.enter _ _ fun _ => ?_
  infer_instance

instance : Widens (whileStatement parts env) := by unfold whileStatement; infer_instance

instance : Widens (doStatement parts env) := by unfold doStatement; infer_instance

instance (selector : Option Ty) (e : Expr) : Check.Still (caseValue selector e) := by
  unfold caseValue; split <;> infer_instance

instance (values : List Int) (e : Expr) : Check.Still (addCaseValue values e) := by
  unfold addCaseValue; split <;> infer_instance

instance (selector : Option Ty) (cases : Cases) (w : Word) : Still (caseLabel parts env selector cases w) := by
  unfold caseLabel; infer_instance

instance (cases : Cases) (w : Word) : Still (defaultLabel cases w) := by unfold defaultLabel; infer_instance

instance switchCases (selector : Option Ty) (n : Nat) (cases : Cases) :
    Widens (switchCases parts env selector n cases) := by
  induction n generalizing cases with
  | zero => unfold Grammar.switchCases; infer_instance
  | succ n ih =>
    unfold Grammar.switchCases
    refine @bind _ _ _ _ inferInstance fun w => ?_
    split <;> infer_instance

instance : Still (switchStatement parts env) := by
  unfold switchStatement
  dsimp only
  infer_instance

instance (returns : Option Ty) (e : Expr) : Check.Still (returnedValue returns e) := by
  unfold returnedValue; split <;> infer_instance

instance (returns : Option Ty) (span : Span) : Check.Still (noReturnedValue returns span) := by
  unfold noReturnedValue; split <;> infer_instance

instance (w : Word) : Still (returned parts env w) := by unfold returned; infer_instance

instance : Still (returnStatement parts env) := by unfold returnStatement; infer_instance

instance (w : Word) (make : Span → Stmt) : Still (jumpEnd w make) := by unfold jumpEnd; infer_instance

instance : Still (breakStatement env) := by unfold breakStatement; infer_instance

instance : Still (continueStatement env) := by unfold continueStatement; infer_instance

instance : Still discardStatement := by unfold discardStatement; infer_instance

instance : Widens (statementWith parts env) := by
  unfold statementWith
  refine @bind _ _ _ _ inferInstance fun w => ?_
  split <;> infer_instance

instance statements (inner : Inner) [Still.OfInner inner] (fuel n : Nat) :
    Widens (statements inner fuel n env) := by
  induction n generalizing env with
  | zero => unfold Grammar.statements; infer_instance
  | succ n ih =>
    have : OfParts ⟨inner, Grammar.statements inner fuel n, fuel⟩ := ⟨inferInstance, ih⟩
    unfold Grammar.statements
    infer_instance

/-! ### Declarations -/

instance (e : Element) : KeepsJournal (addElement e) := .of_ok fun _ =>
    ⟨_, _, rfl, .refl _, fun hs => ⟨hs.journal, hs.words⟩⟩

instance fieldDeclarators (owner : String) (m : Modifiers) (base : Ty) (n : Nat) (found : List (Field Ty)) :
    Still (fieldDeclarators parts owner m base n found) := by
  induction n generalizing found with
  | zero => unfold Grammar.fieldDeclarators; infer_instance
  | succ n ih => unfold Grammar.fieldDeclarators; infer_instance

instance fieldDeclarations (owner : String) (n : Nat) (found : List (Field Ty)) :
    Still (fieldDeclarations parts owner n found) := by
  induction n generalizing found with
  | zero => unfold Grammar.fieldDeclarations; infer_instance
  | succ n ih => unfold Grammar.fieldDeclarations; infer_instance

instance (owner : String) (buffer : Bool) : Still (fields parts owner buffer) := by unfold fields; infer_instance

instance globalDeclarators (start : Nat) (m : Modifiers) (base : Ty) (n : Nat) (name : Word) :
    KeepsJournal (globalDeclarators parts start m base n name) := by
  induction n generalizing name with
  | zero => unfold Grammar.globalDeclarators; infer_instance
  | succ n ih => unfold Grammar.globalDeclarators; infer_instance

instance (start : Nat) (m : Modifiers) (base : Ty) (name : Word) :
    KeepsJournal (globalVariables parts start m base name) := by
  unfold globalVariables; infer_instance

instance (start : Nat) (m : Modifiers) : KeepsJournal (structDeclaration parts start m) := by
  unfold structDeclaration
  repeat' first | infer_instance | refine @KeepsJournal.bind _ _ _ _ inferInstance fun _ => ?_

instance (block : Nat) (fs : List (Field Ty)) : Check.KeepsJournal (bindFields block fs) := by
  unfold bindFields; infer_instance

instance (ty : Ty) : Still (blockInstance? parts ty) := by unfold blockInstance?; infer_instance

instance (m : Modifiers) (name : Word) (ty : Ty) (fs : List (Field Ty)) (named : Option (Word × Ty)) :
    Check.KeepsJournal (declareBlock m name ty fs named) := by
  unfold declareBlock; split <;> infer_instance

instance (start : Nat) (m : Modifiers) (name : Word) : KeepsJournal (interfaceBlock parts start m name) := by
  unfold interfaceBlock; infer_instance

instance (ty : Ty) (m : Modifiers) (span : Span) : Check.Still (checkParameter ty m span) := by
  unfold checkParameter; infer_instance

instance (base : Ty) (name : Option Word) : Still (parameterType parts base name) := by
  unfold parameterType; split <;> infer_instance

instance (first : Bool) : Still (parameter? parts first) := by
  unfold parameter?; infer_instance

instance parametersFrom (n : Nat) (found : List NamedParameter) : Still (parametersFrom parts n found) := by
  induction n generalizing found with
  | zero => unfold Grammar.parametersFrom; infer_instance
  | succ n ih =>
    unfold Grammar.parametersFrom
    refine @Still.bind _ _ _ _ inferInstance fun p => ?_
    split <;> infer_instance

instance : Still (parameters parts) := by unfold parameters; infer_instance

instance (p : NamedParameter) : Check.KeepsJournal (declareParameter p) := by
  unfold declareParameter
  refine @Check.KeepsJournal.bind _ _ _ _ inferInstance fun n => ?_
  split <;> infer_instance

instance (p : NamedParameter) : Widens (lift (declareParameter p)) := by
  refine @lift_bind _ _ _ _ inferInstance fun n => ?_
  split <;> infer_instance

instance (returns : Option Ty) (ps : List NamedParameter) (opening : Word) :
    Still (functionScope parts returns ps opening) := by unfold functionScope; infer_instance

instance (returns : Ty) (body : Stmt) (name : Word) : Check.Still (checkReturns returns body name) := by
  unfold checkReturns; infer_instance

instance (start number : Nat) (returns : Ty) (name : Word) (ps : List NamedParameter) (opening : Word) :
    Still (definition parts start number returns name ps opening) := by unfold definition; infer_instance

instance (start : Nat) (number : Option Nat) (returns : Ty) (name : Word) (ps : List NamedParameter)
    (opening : Word) :
    KeepsJournal (functionBody parts start number returns name ps opening) := by
  unfold functionBody
  split <;> infer_instance

instance (start : Nat) (m : Modifiers) (returns : Ty) (name : Word) :
    KeepsJournal (functionDeclaration parts start m returns name) := by
  unfold functionDeclaration
  repeat' first | infer_instance | refine @KeepsJournal.bind _ _ _ _ inferInstance fun _ => ?_ | split

instance : KeepsJournal (globalDeclaration parts) := by unfold globalDeclaration; infer_instance

instance declarations (n : Nat) : KeepsJournal (declarations parts n) := by
  induction n with
  | zero => unfold Grammar.declarations; infer_instance
  | succ n ih =>
    unfold Grammar.declarations
    refine @KeepsJournal.bind _ _ _ _ inferInstance fun w => ?_
    split <;> infer_instance

instance (count : Nat) : OfParts (partsFor count) := ⟨Still.expressions _, fun _ => statements _ _ _ _⟩

end Widens

/-! ### The end of the source

What can only be seen there is no problem found on the way, so that these steps have no such
instances. -/

/-- What is looked for after the last declaration. -/
def closing (stop : Nat) : Parse Unit := do
  checkEntryPoint stop
  let s ← get
  lift (checkCalls s.context [] s.context.calls.reverse)

lemma program_eq (parts : Parts) (stop : Nat) :
    program parts stop = declarations parts parts.fuel >>= fun _ => closing stop := rfl

/-- Only the journal gets longer, by events of the end of the source. -/
def Closes (c d : Context) : Prop := ∃ late : Journal, (∀ e ∈ late, e.occasion = .final) ∧
    d = { c with journal := late ++ c.journal }

namespace Closes

variable {c d e : Context}

lemma refl (c : Context) : Closes c c := ⟨[], List.forall_mem_nil _, rfl⟩

lemma trans (h : Closes c d) (k : Closes d e) : Closes c e := by
  obtain ⟨first, hfirst, rfl⟩ := h
  obtain ⟨second, hsecond, rfl⟩ := k
  exact ⟨second ++ first, List.forall_mem_append.mpr ⟨hsecond, hfirst⟩, by simp⟩

lemma precedes (h : Closes c d) : c.Precedes d := by
  obtain ⟨late, -, rfl⟩ := h
  exact ⟨rfl, List.suffix_append _ _, .refl _, fun hv => hv, fun hf => ⟨_, hf, rfl⟩⟩

lemma report {p : Problem} {span : Span} (hp : p.occasion = .final) : Closes c (Check.report p span c).2 :=
  ⟨[.problemFound ⟨p, span⟩], List.forall_mem_singleton.mpr hp, rfl⟩

end Closes

lemma closes_checkCalls {c0 c : Context} {reported : List Nat} {calls : List (Nat × Span)} :
    Closes c (checkCalls c0 reported calls c).2 := by
  induction calls generalizing c reported with
  | nil => exact .refl c
  | cons call calls ih =>
    unfold checkCalls
    split
    · exact ih
    · exact .trans (.report rfl) ih

lemma closes_closing (stop : Nat) (s : State) : ∃ c, Closes s.context c ∧
    closing stop s = .ok () { s with context := c } := by
  refine ⟨_, .trans ?_ closes_checkCalls, rfl⟩
  dsimp only
  unfold Check.reportIf
  split
  · exact .report rfl
  · exact .refl _

variable {parts : Parts} {stop : Nat} {s t : State}

lemma error_program {e : Stop} : program parts stop s = .error e t ↔
    declarations parts parts.fuel s = .error e t := by
  rw [program_eq, KeepsJournal.bind_eq]
  cases hrun : declarations parts parts.fuel s with
  | ok a u =>
    obtain ⟨c, -, hclosing⟩ := closes_closing stop u
    simp [hclosing]
  | error e' u => rfl

lemma ok_program (h : program parts stop s = .ok () t) :
    ∃ u c, declarations parts parts.fuel s = .ok () u ∧ Closes u.context c ∧ t = { u with context := c } := by
  rw [program_eq, KeepsJournal.bind_eq] at h
  cases hrun : declarations parts parts.fuel s with
  | ok a u =>
    rw [hrun] at h
    obtain ⟨c, hcloses, hclosing⟩ := closes_closing stop u
    cases hclosing.symm.trans h
    exact ⟨u, c, rfl, hcloses, rfl⟩
  | error e u =>
    rw [hrun] at h
    cases h

end Grammar
end Shading
