import Shading.Literal
import Shading.Ty

/-!
# Variables and functions

What a program declares besides types. Expressions name a variable or a function by its number in
the program. -/
namespace Shading

inductive Storage where
  | global
  | block
  | parameter
  | local_
deriving DecidableEq, Repr

structure Variable where
  /-- Empty for parameters and interface blocks without a name. -/
  name : String
  ty : Ty
  modifiers : Modifiers
  storage : Storage
  span : Span
  /-- The value of a `const` variable that is known when the program is compiled. -/
  constant : Option Literal := none

inductive Intrinsic where
  | abs | sign | floor | ceil | fract | min | max | clamp | mix | step | smoothStep | sqrt
    | inverseSqrt | pow | exp | log
  | exp2 | log2 | sin | cos | tan | length | distance | dot | cross | normalize | reflect | fma | saturate
deriving DecidableEq, Repr

namespace Intrinsic

def name : Intrinsic → String
  | abs =>
    "abs" | sign => "sign" | floor => "floor" | ceil => "ceil" | fract => "fract" | min => "min" | max => "max"
  | clamp => "clamp" | mix => "mix" | step => "step" | smoothStep => "smoothstep" | sqrt => "sqrt"
  | inverseSqrt => "inversesqrt" | pow => "pow" | exp => "exp" | log => "log" | exp2 => "exp2" | log2 => "log2"
  | sin => "sin" | cos => "cos" | tan => "tan" | length => "length" | distance => "distance" | dot => "dot"
  | cross => "cross" | normalize => "normalize" | reflect => "reflect" | fma => "fma" | saturate => "saturate"

end Intrinsic

structure Parameter where
  ty : Ty
  modifiers : Modifiers := {}

def Parameter.isOut (p : Parameter) : Bool := p.modifiers.has .output

structure Function where
  name : String
  returns : Ty
  parameters : List Parameter
  modifiers : Modifiers
  span : Span
  intrinsic : Option Intrinsic := none
  /-- Whether the body has been seen. -/
  defined : Bool
  /-- The place among the functions of the program. -/
  ordinal : Nat

namespace Function

def isMain (f : Function) : Bool := f.name == "main"

def parameterTypes (f : Function) : List Ty := f.parameters.map (·.ty)

end Function

namespace Intrinsic

def signature (i : Intrinsic) (parameters : List Ty) (returns : Ty) : Function where
  name := i.name
  returns
  parameters := parameters.map fun ty => { ty }
  modifiers := {}
  span := .point 0
  intrinsic := some i
  defined := true
  ordinal := 0

def overFloat (s : Scalar) : List Function :=
  let g := Ty.generic s
  let one := Ty.scalar s
  let three := Ty.vector s .three
  [floor, ceil, fract, sqrt, inverseSqrt, exp, log, exp2, log2, sin, cos, tan, normalize,
    saturate].map (signature · [g] g)
    ++ [signature pow [g, g] g, signature mix [g, g, g] g, signature mix [g, g, one] g,
      signature step [g, g] g, signature step [one, g] g,
      signature smoothStep [g, g, g] g, signature smoothStep [one, one, g] g,
      signature length [g] one, signature distance [g, g] one, signature dot [g, g] one,
      signature cross [three, three] three, signature reflect [g, g] g, signature fma [g, g, g] g]

def overNumber (s : Scalar) : List Function :=
  let g := Ty.generic s
  let one := Ty.scalar s
  [signature min [g, g] g, signature min [g, one] g, signature max [g, g] g, signature max [g, one] g,
    signature clamp [g, g, g] g, signature clamp [g, one, one] g]

/-- All functions that the language provides; their places are their numbers. -/
def signatures : List Function :=
  [Scalar.float, .half, .int].flatMap (fun s =>
    [signature abs [.generic s] (.generic s), signature sign [.generic s] (.generic s)])
    ++ [Scalar.float, .half].flatMap overFloat
    ++ [Scalar.float, .half, .int, .uint].flatMap overNumber

end Intrinsic
end Shading
