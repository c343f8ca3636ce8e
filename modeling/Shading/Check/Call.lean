import Shading.Check.Operator
import Shading.Check.Overload

/-!
# Checked calls

A call names the function that its arguments select, with every argument converted to the type of
its parameter. An argument that is written back has to have the parameter's own type and be
assignable. -/
namespace Shading.Check

def passArgument (argument : Expr) (ty : Ty) (isOut : Bool) : Check Expr := do
  if isOut then
    reportIf (argument.ty != ty) (.typeMismatch ty argument.ty) argument.span
    let _ ← assignable argument
    return argument
  else coerce argument ty

def passArguments (f : Function) (types : List Ty) (arguments : List Expr) : Check (List Expr) :=
  ((arguments.zip types).zip (f.parameters.map Parameter.isOut)).mapM fun ((a, ty), isOut) =>
    passArgument a ty isOut

def returnType (f : Function) (binding : Option Nat) : Ty :=
  match f.returns, binding with
  | .generic s, some i => (Ty.choices s)[i]?.getD f.returns
  | ty, _ => ty

/-- Keeps in mind that a function of the program is called, so that a missing body is found. -/
def noteCall (number : Nat) (span : Span) : Check Unit :=
  modify fun c => if c.functions.isBase number then c else { c with calls := (number, span) :: c.calls }

def candidates (c : Context) (overloads : List Nat) (arguments : List Expr) : List Candidate :=
  overloads.filterMap fun number => Candidate.of? number (c.functionAt number) arguments

def call (name : String) (overloads : List Nat) (arguments : List Expr) (span : Span) : Check Expr := do
  if arguments.any Expr.isPoisoned then return poisoned span
  let c ← get
  match Resolution.of (candidates c overloads arguments) with
  | .none_ =>
    report (.noOverload name (arguments.map Expr.ty)) span
    return poisoned span
  | .ambiguous =>
    report (.ambiguousCall name (arguments.map Expr.ty)) span
    return poisoned span
  | .chosen best =>
    let f := c.functionAt best.function
    let arguments ← passArguments f best.parameters arguments
    noteCall best.function span
    return .call best.function arguments (returnType f best.binding) span

end Shading.Check
