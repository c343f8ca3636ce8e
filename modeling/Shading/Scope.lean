import Shading.Declaration
import Shading.Ty.Table

/-!
# Scopes

Names and what they stand for: a stack of scopes over the builtin names. An inner name hides an
outer one, and functions of one name in one scope form an overload set. -/
namespace Shading

inductive Symbol where
  | type (ty : Ty)
  | variable_ (number : Nat)
  /-- An overload set; never empty. -/
  | functions (numbers : List Nat)
  /-- A member of an interface block without a name, which is known by its own name. -/
  | field (block : Nat) (index : Nat)
deriving DecidableEq

abbrev Bindings := List (String × Symbol)

namespace Bindings

def aliases : Ty → List String
  | .vector .float n => [s!"vec{n.toNat}"]
  | .vector .int n => [s!"ivec{n.toNat}"]
  | .vector .uint n => [s!"uvec{n.toNat}"]
  | .vector .bool n => [s!"bvec{n.toNat}"]
  | .matrix .float c r => s!"mat{c.toNat}x{r.toNat}" :: if c = r then [s!"mat{c.toNat}"] else []
  | _ => []

def overloads (name : String) : List Nat :=
  Intrinsic.signatures.zipIdx.filterMap fun (f, i) => if f.name = name then some i else none

def builtin : Bindings :=
  Ty.nameable.flatMap (fun ty => (ty.name :: aliases ty).map fun name => (name, .type ty))
    ++ (Intrinsic.signatures.map Function.name).eraseDups.map fun name => (name, .functions (overloads name))

end Bindings

/-- The scopes of a program, innermost first; below them lie the builtin names. The outermost one is
never left. -/
structure Scopes where
  inner : List Bindings := []
  global : Bindings := []

namespace Scopes

def enter (s : Scopes) : Scopes := { s with inner := [] :: s.inner }

/-- Leaves the innermost scope; the global scope stays. -/
def leave (s : Scopes) : Scopes := { s with inner := s.inner.tail }

def depth (s : Scopes) : Nat := s.inner.length

def isGlobal (s : Scopes) : Bool := s.inner.isEmpty

def current (s : Scopes) : Bindings := s.inner.headD s.global

def isBound (s : Scopes) (name : String) : Bool := (s.current.lookup name).isSome

def find? (s : Scopes) (name : String) : Option Symbol :=
  match s.inner.findSome? (·.lookup name) with
  | some symbol => some symbol
  | none => (s.global.lookup name).or (Bindings.builtin.lookup name)

def type? (s : Scopes) (name : String) : Option Ty :=
  match s.find? name with
  | some (.type ty) => some ty
  | _ => none

def isType (s : Scopes) (name : String) : Bool := (s.type? name).isSome

def isBuiltinType (name : String) : Bool :=
  match Bindings.builtin.lookup name with
  | some (.type _) => true
  | _ => false

/-- Adds a binding to the innermost scope; it hides an older one of the same name. -/
def bind (s : Scopes) (name : String) (symbol : Symbol) : Scopes :=
  match s.inner with
  | [] => { s with global := (name, symbol) :: s.global }
  | scope :: rest => { s with inner := ((name, symbol) :: scope) :: rest }

/-- The overloads that a new function joins: those of its own scope, and at the global level the
builtin ones. -/
def joined (s : Scopes) (name : String) : List Nat :=
  match if s.isGlobal then Bindings.builtin.lookup name else none with
  | some (.functions numbers) => numbers
  | _ => []

/-- Binds a name in the innermost scope; fails if it is bound there, unless both are functions. -/
def insert? (s : Scopes) (name : String) (symbol : Symbol) : Option Scopes :=
  match s.current.lookup name, symbol with
  | some (.functions old), .functions new => some (s.bind name (.functions (old ++ new)))
  | some _, _ => none
  | none, .functions new => some (s.bind name (.functions (s.joined name ++ new)))
  | none, symbol => some (s.bind name symbol)

@[simp] theorem leave_enter (s : Scopes) : s.enter.leave = s := rfl

end Scopes
end Shading
