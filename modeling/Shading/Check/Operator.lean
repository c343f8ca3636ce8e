import Shading.Check.Assignable
import Shading.Check.Conversion
import Shading.Ty.Operands

/-!
# Checked operators

Operators applied to checked operands. Operands are converted as the operator asks, and an operator
between literals is computed on the spot. A poisoned operand poisons the result without a further
report. -/
namespace Shading.Check

def poisoned (span : Span) : Expr := .poison .poison span

def foldBinary (op : Operator) (left right : Expr) (result : Ty) (span : Span) : Check (Option Expr) :=
  match left, right with
  | .literal l (.scalar s) _, .literal r (.scalar _) _ =>
    match Literal.binary op s l r with
    | .value v => return some (.literal v result span)
    | .open_ => return none
    | .divisionByZero => do
      report .divisionByZero span
      return none
  | _, _ => return none

def foldUnary? (op : Operator) (operand : Expr) (span : Span) : Option Expr :=
  match operand with
  | .literal v (.scalar s) _ => (Literal.unary? op s v).map (.literal · (.scalar s) span)
  | _ => none

/-- A literal takes the component type of the other operand where it fits; an assignment leaves its
left side alone. -/
def adaptLiterals (op : Operator) (left right : Expr) : Expr × Expr :=
  if op = .comma then (left, right)
  else
    let left := if op.isAssignment || right.isLiteral then left else (left.retype? right.ty.component).getD left
    let right := if left.isLiteral && !op.isAssignment then right else (right.retype? left.ty.component).getD right
    (left, right)

def binary (left : Expr) (op : Operator) (right : Expr) : Check Expr := do
  let span := left.span.cover right.span
  if left.isPoisoned || right.isPoisoned then return poisoned span
  if op.isAssignment then
    if !(← assignable left) then return poisoned span
  let (left, right) := adaptLiterals op left right
  match op.operands? left.ty right.ty with
  | none =>
    report (.binaryMismatch op left.ty right.ty) span
    return poisoned span
  | some types =>
    let left ← if op.isAssignment then pure left else coerce left types.left
    let right ← coerce right types.right
    let folded ← if op.isAssignment then pure none else foldBinary op left right types.result span
    return folded.getD (.binary op left right types.result span)

def takesUnary (op : Operator) (ty : Ty) : Bool :=
  match op with
  | .add | .sub => ty.isNumeric
  | .logicalNot => ty = .bool
  | .bitNot => ty.isInteger
  | .increment | .decrement => ty.isNumeric && !ty.isMatrix
  | _ => false

def unary (op : Operator) (operand : Expr) (span : Span) : Check Expr := do
  if operand.isPoisoned then return poisoned span
  if !takesUnary op operand.ty then
    report (.unaryMismatch op operand.ty) span
    return poisoned span
  if op.isStep then
    if !(← assignable operand) then return poisoned span
  return (foldUnary? op operand span).getD (.unary op operand operand.ty span)

def step (op : Operator) (operand : Expr) (span : Span) : Check Expr := do
  if operand.isPoisoned then return poisoned span
  if !takesUnary op operand.ty then
    report (.unaryMismatch op operand.ty) span
    return poisoned span
  if !(← assignable operand) then return poisoned span
  return .step op operand operand.ty span

/-- A literal branch takes the type of the other branch where it fits. -/
def adaptBranches (t f : Expr) : Expr × Expr :=
  if t.ty = f.ty then (t, f)
  else match t.retype? f.ty, f.retype? t.ty with
    | some t, _ => (t, f)
    | none, some f => (t, f)
    | none, none => (t, f)

def conditional (condition whenTrue whenFalse : Expr) : Check Expr := do
  let span := condition.span.cover whenFalse.span
  let condition ← coerce condition .bool
  if condition.isPoisoned || whenTrue.isPoisoned || whenFalse.isPoisoned then return poisoned span
  let (t, f) := adaptBranches whenTrue whenFalse
  match t.ty.common? f.ty with
  | none =>
    report (.branchMismatch t.ty f.ty) span
    return poisoned span
  | some ty =>
    let t ← coerce t ty
    let f ← coerce f ty
    match condition.constantBool? with
    | some true => return t
    | some false => return f
    | none => return .conditional condition t f ty span

end Shading.Check
