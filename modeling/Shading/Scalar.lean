/-!
# Scalars

The scalar types. The numeric ones stand on a ladder, `ushort < short < uint < int < half < float`,
along which values convert by themselves; `bool` converts to nothing. -/
namespace Shading

inductive ScalarKind where
  | float
  | signed
  | unsigned
  | boolean
deriving DecidableEq, Repr

inductive Scalar where
  | bool | int | uint | short | ushort | float | half
deriving DecidableEq, Repr

namespace Scalar

def all : List Scalar := [bool, int, uint, short, ushort, float, half]

def name : Scalar → String
  | bool => "bool" | int => "int" | uint => "uint" | short => "short" | ushort => "ushort"
  | float => "float" | half => "half"

def kind : Scalar → ScalarKind
  | bool => .boolean
  | int | short => .signed
  | uint | ushort => .unsigned
  | float | half => .float

def width (_ : Scalar) : Nat := 32

def minWidth : Scalar → Nat
  | short | ushort | half => 16
  | _ => 32

/-- The place on the ladder of conversions; zero for `bool`. -/
def rank : Scalar → Nat
  | bool => 0 | ushort => 1 | short => 2 | uint => 3 | int => 4 | half => 5 | float => 6

def isNumeric (s : Scalar) : Bool := s.kind != .boolean

def isInteger (s : Scalar) : Bool := s.kind == .signed || s.kind == .unsigned

def isFloat (s : Scalar) : Bool := s.kind == .float

def isRelaxed (s : Scalar) : Bool := s.minWidth < s.width

def singleMax : Float := 3.4028234663852886e38

def minValue : Scalar → Float
  | half => -65504.0
  | float => -singleMax
  | short => -32768.0
  | int => -2147483648.0
  | bool | uint | ushort => 0.0

def maxValue : Scalar → Float
  | half => 65504.0
  | float => singleMax
  | short => 32767.0
  | int => 2147483647.0
  | ushort => 65535.0
  | uint => 4294967295.0
  | bool => 1.0

def inRange (s : Scalar) (v : Float) : Bool := s.minValue ≤ v && v ≤ s.maxValue

def hasInteger (s : Scalar) (i : Int) : Bool :=
  match s with
  | int => -0x80000000 ≤ i && i < 0x80000000
  | uint => 0 ≤ i && i < 0x100000000
  | short => -0x8000 ≤ i && i < 0x8000
  | ushort => 0 ≤ i && i < 0x10000
  | bool | float | half => false

def cost? (a b : Scalar) : Option Nat :=
  if a = b then some 0
  else if a.isNumeric && b.isNumeric && a.rank ≤ b.rank then some (b.rank - a.rank)
  else none

theorem rank_injective {a b : Scalar} (h : a.rank = b.rank) : a = b := by
  cases a <;> cases b <;> first | rfl | contradiction

@[simp] theorem cost?_self (a : Scalar) : a.cost? a = some 0 := by simp [cost?]

end Scalar
end Shading
