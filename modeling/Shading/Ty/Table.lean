import Shading.Arena
import Shading.Ty

/-!
# Type tables

The types of a program in the order in which they were made: first the builtin ones, then each array
and each struct that the program declares. Asking again for an array gives the array that is there;
every struct declaration is a new type. -/
namespace Shading

namespace Ty

def vectorsOf (s : Scalar) : List Ty := Dim.all.map (.vector s)

def matricesOf (s : Scalar) : List Ty := Dim.all.flatMap fun c => Dim.all.map (.matrix s c)

def nameable : List Ty :=
  .void :: Scalar.all.map .scalar
    ++ [Scalar.float, .half, .int, .uint, .bool, .short, .ushort].flatMap vectorsOf
    ++ [Scalar.float, .half].flatMap matricesOf

def builtin : List Ty :=
  nameable ++ [Scalar.float, .half, .int, .uint, .bool].map .generic ++ [.poison, .invalid]

end Ty

/-- The builtin types and the declared ones, in the order in which they were made. -/
abbrev TypeTable := Arena Ty

namespace TypeTable

def initial : TypeTable := { base := Ty.builtin.toArray }

def indexOf? (table : TypeTable) (ty : Ty) : Option Nat :=
  match table.base.findIdx? (· == ty) with
  | some i => some i
  | none => (table.items.findIdx? (· == ty)).map (table.base.size + ·)

def addArray (table : TypeTable) (element : Ty) (size : Option Nat) : TypeTable :=
  if table.items.contains (.array element size) then table else table.push (.array element size)

def nextStruct (table : TypeTable) (name : String) (fields : List (Field Ty)) (block : Bool) : Ty :=
  .struct table.next name fields block

end TypeTable
end Shading
