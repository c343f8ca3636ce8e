import Shading.Number.Text
import Shading.Operator
import Shading.Scalar

/-!
# Literals

Constant values of scalar types, and the operators on them. Integers are words of 32 bits, read as
signed or unsigned numbers as their type says, and computed in 64 bits; floating-point numbers are
kept as doubles. An operator whose result has no literal, or no meaning, is left for the program to
compute. -/
namespace Shading

inductive Literal where
  | bool (value : Bool)
  | int (value : Int)
  | float (value : Number.Double)
deriving DecidableEq, Repr, Inhabited

namespace Literal

def toFloat : Literal → Float
  | bool b => if b then 1.0 else 0.0
  | int i => Float.ofInt i
  | float x => x.toFloat

def int? : Literal → Option Int
  | int i => some i
  | _ => none

def bool? : Literal → Option Bool
  | bool b => some b
  | _ => none

def text : Literal → String
  | bool b => toString b
  | int i => toString i
  | float x => Number.text Number.plainStyle x

def zero (s : Scalar) : Literal :=
  match s.kind with
  | .boolean => bool false
  | .float => float .zero
  | .signed | .unsigned => int 0

/-- The integer that is left when the fraction is cut off. What lies outside of 64 bits is taken for
the nearest integer inside, and a NaN for none. -/
def whole? : Literal → Option Int
  | bool b => some b.toInt
  | int i => some i
  | float x => if x.toFloat.isNaN then none else some x.toFloat.toInt64.toInt

/-- The value in another scalar type, if that type holds it. A fraction is cut off where the type
has none. -/
def cast? (target : Scalar) (v : Literal) : Option Literal :=
  match target.kind with
  | .boolean => some (bool (v.toFloat != 0.0))
  | .float => if target.inRange v.toFloat then some (float (.ofFloat v.toFloat)) else none
  | .signed | .unsigned => (v.whole?.filter target.hasInteger).map int

def word (i : Int) : BitVec 32 := BitVec.ofInt 32 i

def ofWord (s : Scalar) (w : BitVec 32) : Int :=
  match s.kind with
  | .unsigned => w.toNat
  | _ => w.toInt

def long (i : Int) : BitVec 64 := BitVec.ofInt 64 i

/-- The lower half of 64 bits, as an integer of the type. -/
def wrap (s : Scalar) (w : BitVec 64) : Int := ofWord s (w.setWidth 32)

inductive Folded where
  | value (result : Literal)
  | open_
  | divisionByZero
deriving Repr, Inhabited

def unary? (op : Operator) (s : Scalar) (v : Literal) : Option Literal :=
  match op, v with
  | .add, int i => some (int i)
  | .add, float x => some (float x)
  | .sub, int i => some (int (wrap s (-long i)))
  | .sub, float x => some (float x.neg)
  | .logicalNot, bool b => some (bool !b)
  | .bitNot, int i => some (int (wrap s (~~~ long i)))
  | _, _ => none

def binaryBool (op : Operator) (a b : Bool) : Folded :=
  match op with
  | .logicalAnd => .value (bool (a && b))
  | .logicalOr => .value (bool (a || b))
  | .logicalXor | .ne => .value (bool (a != b))
  | .eq => .value (bool (a == b))
  | _ => .open_

/-- Division toward zero, in the signedness of the type. -/
def quotient (s : Scalar) (a b : Int) : Int :=
  if s.kind = .signed then ((word a).sdiv (word b)).toInt else ((word a).udiv (word b)).toNat

/-- The remainder has the sign of the dividend. -/
def remainder (s : Scalar) (a b : Int) : Int :=
  if s.kind = .signed then ((word a).srem (word b)).toInt else ((word a).umod (word b)).toNat

def shiftRight (s : Scalar) (a : Int) (amount : Nat) : BitVec 64 :=
  if s.kind = .signed then ((word a).sshiftRight amount).signExtend 64 else (word a >>> amount).setWidth 64

def binaryInt (op : Operator) (s : Scalar) (a b : Int) : Folded :=
  match op with
  | .add => .value (int (wrap s (long a + long b)))
  | .sub => .value (int (wrap s (long a - long b)))
  | .mul => .value (int (wrap s (long a * long b)))
  | .div => if b = 0 then .divisionByZero else .value (int (quotient s a b))
  | .rem => if b = 0 then .divisionByZero else .value (int (remainder s a b))
  | .shl => if 0 ≤ b ∧ b < 32 then .value (int (wrap s (long a <<< b.toNat))) else .open_
  | .shr => if 0 ≤ b ∧ b < 32 then .value (int (wrap s (shiftRight s a b.toNat))) else .open_
  | .bitAnd => .value (int (wrap s (long a &&& long b)))
  | .bitOr => .value (int (wrap s (long a ||| long b)))
  | .bitXor => .value (int (wrap s (long a ^^^ long b)))
  | .eq => .value (bool (a == b))
  | .ne => .value (bool (a != b))
  | .lt => .value (bool (a < b))
  | .gt => .value (bool (a > b))
  | .le => .value (bool (a ≤ b))
  | .ge => .value (bool (a ≥ b))
  | _ => .open_

def held (s : Scalar) (x : Float) : Folded :=
  if x.isFinite && x.abs ≤ s.maxValue then .value (float (.ofFloat x)) else .open_

def binaryFloat (op : Operator) (s : Scalar) (a b : Float) : Folded :=
  match op with
  | .add => held s (a + b)
  | .sub => held s (a - b)
  | .mul => held s (a * b)
  | .div => if b == 0.0 then .open_ else held s (a / b)
  | .eq => .value (bool (a == b))
  | .ne => .value (bool (a != b))
  | .lt => .value (bool (a < b))
  | .gt => .value (bool (a > b))
  | .le => .value (bool (a ≤ b))
  | .ge => .value (bool (a ≥ b))
  | _ => .open_

def binary (op : Operator) (s : Scalar) : Literal → Literal → Folded
  | bool a, bool b => binaryBool op a b
  | int a, int b => binaryInt op s a b
  | float a, float b => binaryFloat op s a.toFloat b.toFloat
  | _, _ => .open_

end Literal
end Shading
