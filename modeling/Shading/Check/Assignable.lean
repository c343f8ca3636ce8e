import Shading.Context

/-!
# Assignable expressions

What can be written to: a variable that is not protected, a part of one, or a swizzle that names no
component twice. -/
namespace Shading

def Variable.protection? (v : Variable) : Option Protection :=
  let outside := v.storage = .global || v.storage = .block
  if v.modifiers.isConst then some .constant
  else if outside && v.modifiers.has .uniform then some .uniform
  else if outside && v.modifiers.has .input && !v.modifiers.has .output then some .input
  else if v.modifiers.has .readonly then some .readonly
  else none

def Expr.obstacle? (declared : Nat → Option Variable) : Expr → Option Report
  | .poison .. => none
  | .variable_ n _ span =>
    match declared n with
    | some v => v.protection?.map fun why => ⟨.protected_ why v.name, span⟩
    | none => some ⟨.notAssignable, span⟩
  | .field base _ _ _ _ | .index base _ _ _ => base.obstacle? declared
  | .swizzle base components _ span =>
    if components.eraseDups.length = components.length then base.obstacle? declared
    else some ⟨.repeatedSwizzleTarget, span⟩
  | e => some ⟨.notAssignable, e.span⟩

namespace Check

def assignable (e : Expr) : Check Bool := do
  match e.obstacle? ((← get).variables[·]?) with
  | some r => report r.problem r.span; return false
  | none => return true

end Check
end Shading
