import Shading.Operator
import Shading.Ty.Coercion

/-!
# Operand types

Which types a binary operator takes and what it yields: its operands are first converted to the
types given here. A compound assignment is typed as the operator it applies, whose result must go
back into the left side as it is. -/
namespace Shading

structure Operands where
  left : Ty
  right : Ty
  result : Ty
deriving DecidableEq

namespace Operands

def both (ty result : Ty) : Operands := ⟨ty, ty, result⟩

def shaped? (component left right : Ty) (result : Ty → Ty → Option Ty) : Option Operands := do
  let l ← left.withComponent? component
  let r ← right.withComponent? component
  return ⟨l, r, ← result l r⟩

/-- Matrix products. Inner dimensions agree: the columns on the left are the rows on the right,
where a vector on the left counts as one row and a vector on the right as one column. -/
def product? (component left right : Ty) : Option Operands :=
  match left, right with
  | .matrix _ c r, .matrix _ d q =>
    if c = q then shaped? component left right fun _ _ => Ty.matrix? component d.toNat r.toNat else none
  | .matrix _ c r, .vector _ n =>
    if c = n then shaped? component left right fun _ _ => Ty.vector? component r.toNat else none
  | .vector _ n, .matrix _ d q =>
    if n = q then shaped? component left right fun _ _ => Ty.vector? component d.toNat else none
  | _, _ => none

/-- Component by component; a scalar goes with every component of the other side. -/
def componentwise? (component left right : Ty) : Option Operands :=
  shaped? component left right fun l r =>
    if left.isScalar then some r
    else if right.isScalar then some l
    else if left.rows = right.rows ∧ left.columns = right.columns then some l
    else none

def isProduct (left right : Ty) : Bool :=
  (left.isMatrix && (right.isMatrix || right.isVector)) || (left.isVector && right.isMatrix)

/-- Shifts keep the left type; the amount is a scalar or has as many entries. -/
def shift? (left right : Ty) : Option Operands :=
  if right.isScalar || left.rows = right.rows then some ⟨left, right, left⟩ else none

def integersOnly : Operator → Bool
  | .rem | .shl | .shr | .bitAnd | .bitOr | .bitXor => true
  | _ => false

def arithmetic? (op : Operator) (left right : Ty) : Option Operands :=
  if !(left.isNumeric && right.isNumeric) then none
  else if integersOnly op && !(left.isInteger && right.isInteger) then none
  else if op = .shl ∨ op = .shr then shift? left right
  else do
    let component ← left.component.common? right.component
    if op = .mul ∧ isProduct left right then product? component left right
    else componentwise? component left right

def logical? (left right : Ty) : Option Operands :=
  if left = .bool ∧ right = .bool then some (both .bool .bool) else none

/-- Arrays and structs are compared whole and only with their own type. -/
def equality? (left right : Ty) : Option Operands :=
  if left.isArray || left.isStruct then
    if left = right then some ⟨left, right, .bool⟩ else none
  else do
    let common ← left.common? right
    if common.scalar?.isSome then some (both common .bool) else none

def order? (left right : Ty) : Option Operands :=
  if left.isScalar && right.isScalar then do
    let common ← left.common? right
    if common.isNumeric then some (both common .bool) else none
  else none

def simple? (op : Operator) (left right : Ty) : Option Operands :=
  match op with
  | .logicalAnd | .logicalOr | .logicalXor => logical? left right
  | .eq | .ne => equality? left right
  | .lt | .gt | .le | .ge => order? left right
  | .add | .sub | .mul | .div | .rem | .shl | .shr | .bitAnd | .bitOr | .bitXor => arithmetic? op left right
  | _ => none

end Operands

def Operator.operands? (op : Operator) (left right : Ty) : Option Operands :=
  if op = .comma then some ⟨left, right, right⟩
  else if op = .assign then if right.converts left then some (.both left left) else none
  else if op.isAssignment then do
    let types ← Operands.simple? op.underlying left right
    if types.left = left ∧ types.result.converts left then some ⟨left, types.right, left⟩ else none
  else Operands.simple? op left right

end Shading
