import Shading.Check.Operator

/-!
# Checked constructors

A type used as a function. What the arguments become is decided by the type and their shapes;
components are converted whether they convert by themselves or not, elements and fields only as an
assignment would. -/
namespace Shading.Check

def castWhole (argument : Expr) (target : Ty) (span : Span) : Check Expr := do
  return (← cast argument target).withSpan span

/-- Casts the components of scalar and vector arguments and counts them. An argument of another type
is reported. -/
def castComponents (ty : Ty) (done : List Expr) (count : Nat) : List Expr → Check (Option (List Expr × Nat))
  | [] => return some (done.reverse, count)
  | a :: as => do
    if !(a.ty.isScalar || a.ty.isVector) then
      report (.badConstructorArgument a.ty ty) a.span
      return none
    match a.ty.withComponent? ty.component with
    | none => return none
    | some target =>
      let a ← cast a target
      castComponents ty (a :: done) (count + target.rows) as

def compound (ty : Ty) (arguments : List Expr) (span : Span) : Check Expr := do
  match ← castComponents ty [] 0 arguments with
  | none => return poisoned span
  | some (arguments, count) =>
    if count = ty.slots then return .construct .compound arguments ty span
    else
      report (.badArguments ty (.scalars ty.slots count)) span
      return poisoned span

def fromSingle? (ty : Ty) (argument : Expr) (span : Span) : Option (Check Expr) :=
  let sameShape := argument.ty.rows = ty.rows ∧ argument.ty.columns = ty.columns
  if argument.ty.isScalar then some do
    let argument ← cast argument ty.component
    return .construct (if ty.isMatrix then .diagonal else .splat) [argument] ty span
  else if ty.isMatrix && argument.ty.isMatrix then
    if sameShape then some (castWhole argument ty span)
    else some do
      match argument.ty.withComponent? ty.component with
      | none => return poisoned span
      | some target => return .construct .resize [← cast argument target] ty span
  else if ty.isVector && argument.ty.isVector && sameShape then some (castWhole argument ty span)
  else none

def vectorOrMatrix (ty : Ty) (arguments : List Expr) (span : Span) : Check Expr :=
  match arguments with
  | [argument] => (fromSingle? ty argument span).getD (compound ty arguments span)
  | _ => compound ty arguments span

def badArguments (ty : Ty) (fault : ArgumentFault) (span : Span) : Check Expr := do
  report (.badArguments ty fault) span
  return poisoned span

def arrayConstructor (element : Ty) (size : Option Nat) (arguments : List Expr) (span : Span) : Check Expr := do
  let count := arguments.length
  match size with
  | some n => if n ≠ count then return ← badArguments (.array element size) (.elements n count) span
  | none => pure ()
  let ty ← arrayOf element (some count)
  return .construct .array (← arguments.mapM (coerce · element)) ty span

def structConstructor (ty : Ty) (fields : List (Field Ty)) (arguments : List Expr) (span : Span) : Check Expr := do
  let count := arguments.length
  if fields.length ≠ count then badArguments ty (.fields fields.length count) span
  else
    let arguments ← (arguments.zip fields).mapM fun (a, f) => coerce a f.ty
    return .construct .struct arguments ty span

def scalarConstructor (ty : Ty) (arguments : List Expr) (span : Span) : Check Expr :=
  match arguments with
  | [argument] =>
    if argument.ty.isScalar then castWhole argument ty span else badArguments ty .notOneScalar span
  | _ => badArguments ty .notOneScalar span

def constructor (ty : Ty) (arguments : List Expr) (span : Span) : Check Expr :=
  if arguments.any Expr.isPoisoned then return poisoned span
  else if arguments.isEmpty then badArguments ty .none_ span
  else match ty with
    | .array element size => arrayConstructor element size arguments span
    | .struct _ _ fields false => structConstructor ty fields arguments span
    | .scalar _ => scalarConstructor ty arguments span
    | .vector .. | .matrix .. => vectorOrMatrix ty arguments span
    | _ => do
      report (.notConstructible ty) span
      return poisoned span

end Shading.Check
