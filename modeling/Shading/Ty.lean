import Shading.Scalar
import Shading.Modifiers

/-!
# Types

Types are trees. An array is its element type and size, so two arrays are the same type exactly when
these agree; a struct carries the number of its declaration, so two structs with the same fields are
still different types. -/
namespace Shading

inductive Dim where
  | two | three | four
deriving DecidableEq, Repr

namespace Dim

def all : List Dim := [two, three, four]

def toNat : Dim → Nat
  | two => 2 | three => 3 | four => 4

def ofNat? : Nat → Option Dim
  | 2 => some two
  | 3 => some three
  | 4 => some four
  | _ => none

@[simp] theorem ofNat?_toNat (d : Dim) : ofNat? d.toNat = some d := by cases d <;> rfl

end Dim

structure Field (τ : Type) where
  name : String
  ty : τ
  modifiers : Modifiers
  span : Span
deriving DecidableEq, Repr

inductive Ty where
  | void
  | scalar (s : Scalar)
  | vector (s : Scalar) (size : Dim)
  /-- Stored column by column; each column is a vector with one entry per row. -/
  | matrix (s : Scalar) (columns rows : Dim)
  /-- A missing size is known only when the program runs. -/
  | array (element : Ty) (size : Option Nat)
  /-- A struct, or the type of an interface block; `id` is the number of its declaration. -/
  | struct (id : Nat) (name : String) (fields : List (Field Ty)) (block : Bool)
  /-- Any of the scalar and the vectors over it; only in signatures of intrinsics. -/
  | generic (s : Scalar)
  /-- The type of an expression that could not be checked; it fits everywhere, so one mistake is
  reported once. -/
  | poison
  /-- Stands for a type name without a meaning. -/
  | invalid

namespace Ty

mutual
def decEq : (a b : Ty) → Decidable (a = b)
  | .void, b => match b with
    | .void => isTrue rfl
    | .scalar .. | .vector .. | .matrix .. | .array .. | .struct .. | .generic .. | .poison | .invalid =>
      isFalse nofun
  | .scalar s, b => match b with
    | .scalar t => decidable_of_iff (s = t) (by simp)
    | .void | .vector .. | .matrix .. | .array .. | .struct .. | .generic .. | .poison | .invalid => isFalse nofun
  | .vector s n, b => match b with
    | .vector t m => decidable_of_iff (s = t ∧ n = m) (by simp)
    | .void | .scalar .. | .matrix .. | .array .. | .struct .. | .generic .. | .poison | .invalid => isFalse nofun
  | .matrix s c r, b => match b with
    | .matrix t d q => decidable_of_iff (s = t ∧ c = d ∧ r = q) (by simp)
    | .void | .scalar .. | .vector .. | .array .. | .struct .. | .generic .. | .poison | .invalid => isFalse nofun
  | .array e n, b => match b with
    | .array f m =>
      have := decEq e f
      decidable_of_iff (n = m ∧ e = f) (by simp [and_comm])
    | .void | .scalar .. | .vector .. | .matrix .. | .struct .. | .generic .. | .poison | .invalid =>
      isFalse nofun
  | .struct i n fs k, b => match b with
    | .struct j m gs l =>
      have := decEqFields fs gs
      decidable_of_iff (i = j ∧ n = m ∧ fs = gs ∧ k = l) (by simp)
    | .void | .scalar .. | .vector .. | .matrix .. | .array .. | .generic .. | .poison | .invalid => isFalse nofun
  | .generic s, b => match b with
    | .generic t => decidable_of_iff (s = t) (by simp)
    | .void | .scalar .. | .vector .. | .matrix .. | .array .. | .struct .. | .poison | .invalid => isFalse nofun
  | .poison, b => match b with
    | .poison => isTrue rfl
    | .void | .scalar .. | .vector .. | .matrix .. | .array .. | .struct .. | .generic .. | .invalid =>
      isFalse nofun
  | .invalid, b => match b with
    | .invalid => isTrue rfl
    | .void | .scalar .. | .vector .. | .matrix .. | .array .. | .struct .. | .generic .. | .poison =>
      isFalse nofun
def decEqFields : (fs gs : List (Field Ty)) → Decidable (fs = gs)
  | [], [] => isTrue rfl
  | [], _ :: _ | _ :: _, [] => isFalse nofun
  | ⟨n, t, a, p⟩ :: fs, ⟨m, u, b, q⟩ :: gs =>
    have := decEq t u
    have := decEqFields fs gs
    decidable_of_iff (n = m ∧ a = b ∧ p = q ∧ t = u ∧ fs = gs)
      (by simp only [List.cons.injEq, Field.mk.injEq]; grind)
end

instance : DecidableEq Ty := decEq

instance : Inhabited Ty := ⟨.poison⟩

abbrev bool : Ty := .scalar .bool
abbrev int : Ty := .scalar .int
abbrev uint : Ty := .scalar .uint
abbrev float : Ty := .scalar .float

def genericLetter : Scalar → String
  | .float => "F" | .half => "H" | .int => "I" | .uint => "U" | .bool => "B" | .short => "S" | .ushort => "W"

def splitDimensions (name : String) : String × String :=
  let cs := name.toList
  (String.ofList (cs.takeWhile (· != '[')), String.ofList (cs.dropWhile (· != '[')))

/-- The name of an array type; the outer dimension comes first, so an array of two `float[3]` is
`float[2][3]`. -/
def arrayName (element : String) (size : Option Nat) : String :=
  let (base, dimensions) := splitDimensions element
  match size with
  | some n => s!"{base}[{n}]{dimensions}"
  | none => s!"{base}[]{dimensions}"

def name : Ty → String
  | .void => "void"
  | .scalar s => s.name
  | .vector s n => s!"{s.name}{n.toNat}"
  | .matrix s c r => s!"{s.name}{c.toNat}x{r.toNat}"
  | .array e n => arrayName e.name n
  | .struct _ name _ _ => name
  | .generic s => s!"__gen{genericLetter s}Type"
  | .poison => "<poison>"
  | .invalid => "<invalid>"

def choices (s : Scalar) : List Ty := .scalar s :: Dim.all.map (.vector s)

def scalar? : Ty → Option Scalar
  | .scalar s | .vector s _ | .matrix s _ _ => some s
  | _ => none

/-- The component type of a vector or matrix; any other type is its own component. -/
def component : Ty → Ty
  | .vector s _ | .matrix s _ _ => .scalar s
  | ty => ty

def rows : Ty → Nat
  | .vector _ n => n.toNat
  | .matrix _ _ r => r.toNat
  | _ => 1

def columns : Ty → Nat
  | .matrix _ c _ => c.toNat
  | _ => 1

def column? : Ty → Option Ty
  | .matrix s _ r => some (.vector s r)
  | _ => none

def fields? : Ty → Option (List (Field Ty))
  | .struct _ _ fs _ => some fs
  | _ => none

def leaf : Ty → Ty
  | .array e _ => e.leaf
  | ty => ty

mutual
def slots : Ty → Nat
  | .scalar _ => 1
  | .vector _ n => n.toNat
  | .matrix _ c r => r.toNat * c.toNat
  | .array e (some n) => e.slots * n
  | .struct _ _ fs _ => slotsOfFields fs
  | _ => 0
def slotsOfFields : List (Field Ty) → Nat
  | [] => 0
  | ⟨_, ty, _, _⟩ :: fs => ty.slots + slotsOfFields fs
end

/-- The number of scalars as a word of 64 bits, which nested arrays can exceed. -/
def slotWord (ty : Ty) : UInt64 := .ofNat ty.slots

mutual
def containsUnsized : Ty → Bool
  | .array _ none => true
  | .array e (some _) => e.containsUnsized
  | .struct _ _ fs _ => anyUnsized fs
  | _ => false
def anyUnsized : List (Field Ty) → Bool
  | [] => false
  | ⟨_, ty, _, _⟩ :: fs => ty.containsUnsized || anyUnsized fs
end

mutual
def depth : Ty → Nat
  | .array e _ => 1 + e.depth
  | .struct _ _ fs _ => 1 + depthOfFields fs
  | _ => 0
def depthOfFields : List (Field Ty) → Nat
  | [] => 0
  | ⟨_, ty, _, _⟩ :: fs => max ty.depth (depthOfFields fs)
end

def maxDepth : Nat := 8

def isScalar : Ty → Bool
  | .scalar _ => true
  | _ => false

def isVector : Ty → Bool
  | .vector .. => true
  | _ => false

def isMatrix : Ty → Bool
  | .matrix .. => true
  | _ => false

def isArray : Ty → Bool
  | .array .. => true
  | _ => false

def isStruct : Ty → Bool
  | .struct .. => true
  | _ => false

def isVoid : Ty → Bool
  | .void => true
  | _ => false

def isGeneric : Ty → Bool
  | .generic _ => true
  | _ => false

def isPoison : Ty → Bool
  | .poison | .invalid => true
  | _ => false

def isUnsizedArray : Ty → Bool
  | .array _ none => true
  | _ => false

def isNumeric (ty : Ty) : Bool := ty.scalar?.any Scalar.isNumeric

def isBoolean (ty : Ty) : Bool := ty.scalar?.any (·.kind == .boolean)

def isInteger (ty : Ty) : Bool := ty.scalar?.any Scalar.isInteger

def vector? (component : Ty) (size : Nat) : Option Ty :=
  if size = 1 then some component
  else match component, Dim.ofNat? size with
    | .scalar s, some d => some (.vector s d)
    | _, _ => none

def matrix? (component : Ty) (columns rows : Nat) : Option Ty :=
  match component, Dim.ofNat? columns, Dim.ofNat? rows with
  | .scalar s, some c, some r => if s.isFloat then some (.matrix s c r) else none
  | _, _, _ => none

def withComponent? (shape component : Ty) : Option Ty :=
  match shape with
  | .scalar _ => some component
  | .vector _ n => match component with
    | .scalar s => some (.vector s n)
    | _ => none
  | .matrix _ c r => matrix? component c.toNat r.toNat
  | _ => none

end Ty
end Shading
