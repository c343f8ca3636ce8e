import Shading.Options
import Shading.Scope
import Shading.Stmt

/-!
# Programs

A checked program: its declarations in source order and the tables of everything they name.
-/
namespace Shading

inductive Element where
  | struct (ty : Ty) (span : Span)
  | block (number : Nat) (span : Span)
  | global (number : Nat) (initializer : Option Expr) (span : Span)
  | prototype (function : Nat) (span : Span)
  | definition (function : Nat) (parameters : List Nat) (body : Stmt) (span : Span)

def Element.span : Element → Span
  | struct _ span | block _ span | global _ _ span | prototype _ span | definition _ _ _ span => span

structure Program where
  kind : ShaderKind
  options : CompileOptions
  types : TypeTable
  «variables» : Array Variable
  functions : Arena Function
  scopes : Scopes
  elements : List Element

instance : Inhabited Variable := ⟨⟨"", .poison, {}, .global, .point 0, none⟩⟩

instance : Inhabited Function := ⟨⟨"", .void, [], {}, .point 0, none, false, 0⟩⟩

namespace Program

def variableAt (p : Program) (number : Nat) : Variable := p.variables.getD number default

def functionAt (p : Program) (number : Nat) : Function := (p.functions.get? number).getD default

def entryPoint? (p : Program) : Option Nat :=
  p.elements.findSome? fun
    | .definition f _ _ _ => if (p.functionAt f).isMain then some f else none
    | _ => none

def globals (p : Program) : List Nat :=
  p.elements.filterMap fun
    | .global n _ _ => some n
    | _ => none

def isHarmless (p : Program) (number : Nat) : Bool :=
  let f := p.functionAt number
  f.modifiers.has .pureFn || f.intrinsic.isSome

end Program
end Shading
