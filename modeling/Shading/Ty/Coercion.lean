import Shading.Ty

/-!
# Implicit conversions

A value converts by itself along the ladder of scalars, component by component in vectors and
matrices of one shape. The cost of a conversion is the number of steps up the ladder; poison
converts at no cost in both directions, and a generic type is reached through the cheapest of the
types it stands for. -/
namespace Shading.Ty

def plainCost? (a b : Ty) : Option Nat :=
  if a = b then some 0
  else if a.isPoison || b.isPoison then some 0
  else match a, b with
    | .scalar s, .scalar t => s.cost? t
    | .vector s n, .vector t m => if n = m then s.cost? t else none
    | .matrix s c r, .matrix t d q => if c = d ∧ r = q then s.cost? t else none
    | _, _ => none

def cost? (a b : Ty) : Option Nat :=
  if a = b then some 0
  else match b with
    | .generic s => ((choices s).filterMap (plainCost? a)).min?
    | _ => plainCost? a b

def converts (a b : Ty) : Bool := (cost? a b).isSome

def common? (a b : Ty) : Option Ty :=
  if a.converts b then some b else if b.converts a then some a else none

@[simp] theorem plainCost?_self (a : Ty) : plainCost? a a = some 0 := by simp [plainCost?]

@[simp] theorem cost?_self (a : Ty) : cost? a a = some 0 := by simp [cost?]

@[simp] theorem converts_self (a : Ty) : converts a a = true := by simp [converts]

@[simp] theorem common?_self (a : Ty) : common? a a = some a := by simp [common?]

end Shading.Ty
