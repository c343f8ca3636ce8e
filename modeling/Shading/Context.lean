import Shading.Event
import Shading.Program

/-!
# Contexts

What is known while a program is being read: its tables so far, the names in scope and the journal.
A checking step is a function on contexts; it reports what is wrong and goes on. -/
namespace Shading

structure Context where
  kind : ShaderKind
  types : TypeTable
  «variables» : Array Variable := #[]
  functions : Arena Function
  scopes : Scopes := {}
  /-- The calls of functions of the program so far, newest first. -/
  calls : List (Nat × Span) := []
  journal : Journal := []

abbrev Check := StateM Context

namespace Context

/-- A context in which only the builtin names are known. The options are for writing a program, and
none of them is needed here. -/
def initial (kind : ShaderKind) (_ : CompileOptions) : Context where
  kind
  types := .initial
  functions := { base := Intrinsic.signatures.toArray }
  journal := [.builtinsMade Ty.builtin.length Intrinsic.signatures.length]

def variableAt (c : Context) (number : Nat) : Variable := c.variables.getD number default

def functionAt (c : Context) (number : Nat) : Function := (c.functions.get? number).getD default

end Context

namespace Check

def note (e : Event) : Check Unit := modify fun c => { c with journal := e :: c.journal }

def report (p : Problem) (span : Span) : Check Unit := note (.problemFound ⟨p, span⟩)

def reportIf (condition : Bool) (p : Problem) (span : Span) : Check Unit :=
  if condition then report p span else pure ()

def arrayOf (element : Ty) (size : Option Nat) : Check Ty := do
  modify fun c => { c with types := c.types.addArray element size }
  return .array element size

def declareStruct (name : String) (fields : List (Field Ty)) (block : Bool) : Check Ty := do
  let ty := (← get).types.nextStruct name fields block
  modify fun c => { c with types := c.types.push ty }
  return ty

def addVariable (v : Variable) : Check Nat := do
  let number := (← get).variables.size
  modify fun c => { c with «variables» := c.variables.push v }
  return number

def enterScope : Check Unit := modify fun c => { c with scopes := c.scopes.enter }

def leaveScope : Check Unit := modify fun c => { c with scopes := c.scopes.leave }

def tryBind (name : String) (symbol : Symbol) : Check Bool := do
  match (← get).scopes.insert? name symbol with
  | some scopes => modify fun c => { c with scopes }; return true
  | none => return false

def bindName (name : String) (symbol : Symbol) (span : Span) : Check Bool := do
  let free ← tryBind name symbol
  reportIf (!free) (.duplicateSymbol name) span
  return free

end Check
end Shading
