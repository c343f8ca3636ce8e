import Shading.Check.Declaration
import Shading.Grammar.Expression
import Shading.Grammar.Qualifiers

/-!
# Reading statements

Statements inside others are read by the function that is given, which is the same one with a
smaller bound. A block, a loop header and a switch open a scope. -/
namespace Shading.Grammar

structure Parts where
  expression : Inner
  statement : Surroundings → Parse Stmt
  fuel : Nat

/-- Whether a local declaration starts with the word: a modifier or the name of a type. -/
def startsDeclaration (scopes : Scopes) (w : Word) : Bool :=
  match w.kind with
  | .keyword k => match k with
    | .const | .layout | .uniform | .in_ | .out | .inout | .flat | .noperspective | .smooth
      | .buffer | .workgroup =>
      true
    | _ => false
  | .identifier => scopes.isType w.text
  | _ => false

def localDeclarators (parts : Parts) (env : Surroundings) (modifiers : Modifiers) (base : Ty) :
    Nat → List Stmt → Parse (List Stmt)
  | 0, _ => exhausted
  | n + 1, found => do
    let name ← expectIdentifier
    let ty ← arraySuffixes parts.expression parts.fuel env base name.span
    let initializer ← if ← acceptMark .eq then some <$> parts.expression.single env else pure none
    let stop := (initializer.map (·.span.stop)).getD (← lastEnd)
    let (number, initializer) ← Check.declareVariable modifiers ty name.text name.span initializer .local_
    let found := .declare number initializer ⟨name.span.start, stop⟩ :: found
    if ← acceptMark .comma then localDeclarators parts env modifiers base n found else return found.reverse

def localDeclaration (parts : Parts) (env : Surroundings) : Parse Stmt := do
  let start := (← peek).span.start
  let m ← modifiers parts.fuel
  Check.reportIf (!(m.flags.diff (.ofList [.const])).isEmpty || !m.layout.isEmpty) .localModifiers m.span
  let base ← typeName parts.expression parts.fuel env
  let declarations ← localDeclarators parts env m base parts.fuel []
  let _ ← expectMark .semicolon
  let span ← spanFrom start
  match declarations with
  | [.declare number initializer _] => return .declare number initializer span
  | declarations => return .block false declarations span

def expressionStatement (parts : Parts) (env : Surroundings) : Parse Stmt := do
  let e ← parts.expression.whole env
  let _ ← expectMark .semicolon
  return .expr e (← spanFrom e.span.start)

def blockStatements (parts : Parts) (env : Surroundings) : Nat → List Stmt → Parse (List Stmt)
  | 0, _ => exhausted
  | n + 1, found => do
    let w ← peek
    match w.kind with
    | .mark .rbrace =>
      advance
      return found.reverse
    | .endOfFile => unexpected w (.mark .rbrace)
    | _ => blockStatements parts env n ((← parts.statement env) :: found)

/-- Reads the body of a block after its opening brace. The scope is opened by the caller, because
the body of a function shares it with the parameters. -/
def blockBody (parts : Parts) (env : Surroundings) (opening : Word) : Parse Stmt := do
  let body ← nested env opening fun env => blockStatements parts env parts.fuel []
  return .block true body (← spanFrom opening.span.start)

def blockStatement (parts : Parts) (env : Surroundings) : Parse Stmt := do
  let opening ← next
  Check.enterScope
  let body ← blockBody parts env opening
  Check.leaveScope
  return body

def condition (parts : Parts) (env : Surroundings) : Parse Expr := do
  let _ ← expectMark .lparen
  let e ← parts.expression.whole env
  let _ ← expectMark .rparen
  Check.coerce e .bool

def ifStatement (parts : Parts) (env : Surroundings) : Parse Stmt := do
  let start := (← next).span.start
  let c ← condition parts env
  let t ← parts.statement env
  let f ← if (← accept? (.keyword .else_)).isSome then some <$> parts.statement env else pure none
  return .if_ c t f (← spanFrom start)

def loopBody (parts : Parts) (env : Surroundings) : Parse Stmt := parts.statement { env with inLoop := true }

def forInit (parts : Parts) (env : Surroundings) : Parse (Option Stmt) := do
  let w ← peek
  if w.kind = .mark .semicolon then
    advance
    return none
  else if startsDeclaration (← get).context.scopes w then some <$> localDeclaration parts env
  else some <$> expressionStatement parts env

def forCondition (parts : Parts) (env : Surroundings) : Parse (Option Expr) := do
  if ← looksAt (.mark .semicolon) then return none
  else
    let e ← parts.expression.whole env
    some <$> lift (Check.coerce e .bool)

def forStatement (parts : Parts) (env : Surroundings) : Parse Stmt := do
  let start := (← next).span.start
  let _ ← expectMark .lparen
  Check.enterScope
  let init ← forInit parts env
  let c ← forCondition parts env
  let _ ← expectMark .semicolon
  let step ← if ← looksAt (.mark .rparen) then pure none else some <$> parts.expression.whole env
  let _ ← expectMark .rparen
  let body ← loopBody parts env
  Check.leaveScope
  return .loop .for_ init c step body (← spanFrom start)

def whileStatement (parts : Parts) (env : Surroundings) : Parse Stmt := do
  let start := (← next).span.start
  let c ← condition parts env
  let body ← loopBody parts env
  return .loop .while_ none (some c) none body (← spanFrom start)

def doStatement (parts : Parts) (env : Surroundings) : Parse Stmt := do
  let start := (← next).span.start
  let body ← loopBody parts env
  let _ ← expect (.keyword .while_) (.keyword .while_)
  let c ← condition parts env
  let _ ← expectMark .semicolon
  return .loop .doWhile none (some c) none body (← spanFrom start)

/-- The labels of a switch so far, newest first; the statements of each are newest first too. -/
structure Cases where
  found : List (SwitchCase Stmt) := []
  values : List Int := []
  hasDefault : Bool := false

namespace Cases

def add (cases : Cases) (case : SwitchCase Stmt) : Cases := { cases with found := case :: cases.found }

def push (cases : Cases) (s : Stmt) : Cases :=
  match cases.found with
  | [] => cases
  | case :: more =>
    { cases with found := { case with body := s :: case.body, span := case.span.cover s.span } :: more }

def toList (cases : Cases) : List (SwitchCase Stmt) :=
  (cases.found.map fun case => { case with body := case.body.reverse }).reverse

end Cases

def caseValue (selector : Option Ty) (e : Expr) : Check Expr :=
  match selector with
  | some ty => Check.coerce e ty
  | none => return e

def addCaseValue (values : List Int) (e : Expr) : Check (List Int) := do
  match e.constantInt? with
  | some v =>
    Check.reportIf (values.contains v) (.duplicateCase v) e.span
    return v :: values
  | none =>
    Check.reportIf (!e.isPoison) .caseNotConstant e.span
    return values

def caseLabel (parts : Parts) (env : Surroundings) (selector : Option Ty) (cases : Cases)
    (w : Word) : Parse Cases := do
  let e ← parts.expression.whole env
  let e ← caseValue selector e
  let _ ← expectMark .colon
  let values ← addCaseValue cases.values e
  return { cases with values }.add ⟨some (e.constantInt?.getD 0), [], ← spanFrom w.span.start⟩

def defaultLabel (cases : Cases) (w : Word) : Parse Cases := do
  let _ ← expectMark .colon
  Check.reportIf cases.hasDefault .duplicateDefault w.span
  return { cases with hasDefault := true }.add ⟨none, [], ← spanFrom w.span.start⟩

def switchCases (parts : Parts) (env : Surroundings) (selector : Option Ty) : Nat → Cases →
    Parse (List (SwitchCase Stmt))
  | 0, _ => exhausted
  | n + 1, cases => do
    let w ← peek
    match w.kind with
    | .mark .rbrace =>
      advance
      return cases.toList
    | .keyword .case_ =>
      advance
      switchCases parts env selector n (← caseLabel parts env selector cases w)
    | .keyword .default_ =>
      advance
      switchCases parts env selector n (← defaultLabel cases w)
    | _ =>
      if cases.found.isEmpty then
        advance
        unexpected w (.keyword .case_)
      else switchCases parts env selector n (cases.push (← parts.statement env))

def switchStatement (parts : Parts) (env : Surroundings) : Parse Stmt := do
  let start := (← next).span.start
  let _ ← expectMark .lparen
  let selector ← parts.expression.whole env
  let _ ← expectMark .rparen
  let valid := selector.isPoisoned || (selector.ty.isScalar && selector.ty.isInteger)
  Check.reportIf (!valid) (.typeMismatch .int selector.ty) selector.span
  let opening ← expectMark .lbrace
  let cases ← nested { env with inSwitch := true } opening fun env => do
    Check.enterScope
    let cases ← switchCases parts env (if valid then some selector.ty else none) parts.fuel {}
    Check.leaveScope
    return cases
  return .switch selector cases (← spanFrom start)

def returnedValue (returns : Option Ty) (e : Expr) : Check Expr := do
  match returns with
  | some ty =>
    if ty.isVoid then
      Check.report .valueFromVoid e.span
      return e
    else Check.coerce e ty
  | none => return e

def noReturnedValue (returns : Option Ty) (span : Span) : Check Unit :=
  match returns with
  | some ty => Check.reportIf (!ty.isVoid) (.missingReturnValue ty) span
  | none => pure ()

def returned (parts : Parts) (env : Surroundings) (w : Word) : Parse (Option Expr) := do
  if ← looksAt (.mark .semicolon) then
    noReturnedValue env.returns w.span
    return none
  else
    let e ← parts.expression.whole env
    some <$> lift (returnedValue env.returns e)

def returnStatement (parts : Parts) (env : Surroundings) : Parse Stmt := do
  let w ← next
  let value ← returned parts env w
  let _ ← expectMark .semicolon
  return .return_ value (← spanFrom w.span.start)

def jumpEnd (w : Word) (make : Span → Stmt) : Parse Stmt := do
  let _ ← expectMark .semicolon
  return make (← spanFrom w.span.start)

def breakStatement (env : Surroundings) : Parse Stmt := do
  let w ← next
  Check.reportIf (!env.inLoop && !env.inSwitch) .strayBreak w.span
  jumpEnd w .break_

def continueStatement (env : Surroundings) : Parse Stmt := do
  let w ← next
  Check.reportIf (!env.inLoop) .strayContinue w.span
  jumpEnd w .continue_

def discardStatement : Parse Stmt := do
  let w ← next
  Check.reportIf ((← get).context.kind != .fragment) .strayDiscard w.span
  jumpEnd w .discard

def statementWith (parts : Parts) (env : Surroundings) : Parse Stmt := do
  let w ← peek
  match w.kind with
  | .mark .lbrace => blockStatement parts env
  | .mark .semicolon =>
    advance
    return .empty w.span
  | .keyword .if_ => ifStatement parts env
  | .keyword .for_ => forStatement parts env
  | .keyword .while_ => whileStatement parts env
  | .keyword .do_ => doStatement parts env
  | .keyword .switch_ => switchStatement parts env
  | .keyword .return_ => returnStatement parts env
  | .keyword .break_ => breakStatement env
  | .keyword .continue_ => continueStatement env
  | .keyword .discard => discardStatement
  | _ =>
    if startsDeclaration (← get).context.scopes w then localDeclaration parts env
    else expressionStatement parts env

def statements (expression : Inner) (fuel : Nat) : Nat → Surroundings → Parse Stmt
  | 0, _ => exhausted
  | n + 1, env => statementWith ⟨expression, statements expression fuel n, fuel⟩ env

end Shading.Grammar
