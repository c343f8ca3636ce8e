import Shading.Check.Conversion

/-!
# Overloads

Which function of an overload set a call means: the one whose parameters the arguments reach at the
least total cost. A generic parameter type is bound to one of the types it stands for, the same
place in the list for all parameters. If two overloads cost the least and take different types, the
call is ambiguous. -/
namespace Shading

namespace Overload

/-- The cost of passing an argument. A literal that fits the parameter passes even where its type
does not convert. -/
def argumentCost? (argument : Expr) (target : Ty) : Option Nat :=
  (argument.ty.cost? target).or ((argument.retype? target).map fun _ => 1)

def totalCost? : List Expr → List Ty → Option Nat
  | a :: as, t :: ts => do return (← argumentCost? a t) + (← totalCost? as ts)
  | _, _ => some 0

def bindGeneric (choice : Nat) : Ty → Option Ty
  | .generic s => (Ty.choices s)[choice]?
  | ty => some ty

end Overload

structure Candidate where
  function : Nat
  cost : Nat
  parameters : List Ty
  /-- The choice to which generic types are bound, if there are any. -/
  binding : Option Nat

namespace Candidate

/-- The cheaper one; the first if they cost the same. -/
def better (a b : Candidate) : Candidate := if b.cost < a.cost then b else a

def cheapest? : List Candidate → Option Candidate
  | [] => none
  | c :: cs => some (cs.foldl better c)

def bound? (number : Nat) (parameters : List Ty) (arguments : List Expr) (choice : Nat) : Option Candidate := do
  let types ← parameters.mapM (Overload.bindGeneric choice)
  let cost ← Overload.totalCost? arguments types
  return ⟨number, cost, types, some choice⟩

def of? (number : Nat) (f : Function) (arguments : List Expr) : Option Candidate :=
  let parameters := f.parameterTypes
  if parameters.length ≠ arguments.length then none
  else if parameters.any Ty.isGeneric then
    cheapest? ((List.range 4).filterMap (bound? number parameters arguments))
  else (Overload.totalCost? arguments parameters).map (⟨number, ·, parameters, none⟩)

end Candidate

inductive Resolution where
  | none_
  | ambiguous
  | chosen (candidate : Candidate)

/-- The best candidate so far, and whether one that costs the same takes other types. -/
structure Search where
  best : Option Candidate := none
  ambiguous : Bool := false

/-- Looks at the next candidate. Ties with one that is no longer the best do not count. -/
def Search.step (s : Search) (c : Candidate) : Search :=
  match s.best with
  | none => { best := some c }
  | some best =>
    let ambiguous := s.ambiguous || c.cost == best.cost && best.parameters != c.parameters
    if c.cost < best.cost then { best := some c } else { s with ambiguous }

def Resolution.of (candidates : List Candidate) : Resolution :=
  let s : Search := candidates.foldl Search.step {}
  match s.best with
  | none => .none_
  | some best => if s.ambiguous then .ambiguous else .chosen best

end Shading
