import Shading.Number.Shortest

/-!
# Texts of doubles

Two ways to write a double, both with the fewest digits that read back: one for GLSL, which keeps a
point and turns to a power of ten for very large and very small numbers, and a plain one for
messages. -/
namespace Shading.Number

/-- How a number is laid out. A number has its leading digit at the power of ten `p`. -/
structure TextStyle where
  /-- Written with a power of ten from this `p` on. -/
  scientificFrom : Option Int
  /-- Written with a power of ten below this `p`. -/
  scientificBelow : Option Int
  /-- Whole numbers end in `.0`. -/
  pointZero : Bool

/-- Scientific from `1e16` on and below `1e-4`, otherwise always with a point. -/
def glslStyle : TextStyle := ⟨some 16, some (-4), true⟩

/-- Always positional, and whole numbers without a point. -/
def plainStyle : TextStyle := ⟨none, none, false⟩

def scientific (digits : String) (power : Int) : String :=
  let head := (digits.take 1).toString
  let tail := (digits.drop 1).toString
  if tail.isEmpty then s!"{head}e{power}" else s!"{head}.{tail}e{power}"

def zeros (n : Nat) : String := String.ofList (List.replicate n '0')

def positional (digits : String) (exponent : Int) (pointZero : Bool) : String :=
  let count : Int := digits.length
  if 0 ≤ exponent then
    digits ++ zeros exponent.toNat ++ (if pointZero then ".0" else "")
  else if -exponent < count then
    let whole := (count + exponent).toNat
    let head := (digits.take whole).toString
    let tail := (digits.drop whole).toString
    s!"{head}.{tail}"
  else
    "0." ++ zeros (-exponent - count).toNat ++ digits

def Decimal.text (d : Decimal) (style : TextStyle) : String :=
  let digits := toString d.digits
  let power : Int := d.exponent + digits.length - 1
  if style.scientificFrom.any (· ≤ power) || style.scientificBelow.any (power < ·) then
    scientific digits power
  else positional digits d.exponent style.pointZero

def text (style : TextStyle) (x : Double) : String :=
  let sign := if x.isNegative then "-" else ""
  if x.biased = 0x7ff then
    if x.fraction = 0 then sign ++ "inf" else "NaN"
  else if x.biased = 0 ∧ x.fraction = 0 then
    sign ++ "0" ++ (if style.pointZero then ".0" else "")
  else sign ++ (shortest (.ofDouble x)).text style

end Shading.Number
