import Shading.Number.Double

/-!
# Shortest decimals

The fewest decimal digits that read back as a given double. Everything is exact arithmetic on
natural numbers: a double is `m · 2 ^ q`, the reals that round to it form an interval, and for one
digit, two digits and so on the two neighbours of the double on that decimal grid are tried until
one lies in the interval. -/
namespace Shading.Number

/-- A positive finite double `mantissa · 2 ^ exponent`; `lowerGap` is the distance to the lower end
of the reals that round to it, in quarters of a unit of the mantissa. The distance to the upper end
is always two quarters. -/
structure Binary where
  mantissa : Nat
  exponent : Int
  lowerGap : Nat
deriving DecidableEq, Repr

/-- A decimal number `digits · 10 ^ exponent`. -/
structure Decimal where
  digits : Nat
  exponent : Int
deriving DecidableEq, Repr

/-- The magnitude of a finite double. A power of two with a smaller neighbour half as far away as
the larger one has a lower gap of one quarter. -/
def Binary.ofDouble (x : Double) : Binary :=
  if x.biased = 0 then ⟨x.fraction, -1074, 2⟩
  else ⟨0x10000000000000 + x.fraction, (x.biased : Int) - 1075, if x.fraction = 0 ∧ x.biased ≠ 1 then 1 else 2⟩

namespace Binary

/-- `t · 2 ^ (exponent - 2) · 10 ^ (- k)` and one unit of it, as numerator and denominator. -/
def scaled (b : Binary) (t : Nat) (k : Int) : Nat × Nat :=
  let e := b.exponent - 2
  ((t <<< e.toNat) * Nat.pow 10 (-k).toNat, Nat.pow 10 k.toNat <<< (-e).toNat)

/-- Whether `c · 10 ^ k` rounds to the double: it lies between the ends, which themselves count for
an even mantissa. -/
def reads (b : Binary) (c : Nat) (k : Int) : Bool :=
  let (low, unit) := b.scaled (4 * b.mantissa - b.lowerGap) k
  let (high, _) := b.scaled (4 * b.mantissa + 2) k
  if b.mantissa % 2 = 0 then low ≤ c * unit && c * unit ≤ high else low < c * unit && c * unit < high

def magnitude (b : Binary) : Int :=
  let guess := ((Nat.log2 b.mantissa : Int) + b.exponent) * 30103 / 100000
  let atLeast (e : Int) : Bool := let (n, d) := b.scaled (4 * b.mantissa) e; d ≤ n
  if atLeast (guess + 1) then guess + 1 else if atLeast guess then guess else guess - 1

/-- The better of the two neighbours on the grid `10 ^ k`, if one of them reads back; of two equally
near, the larger. -/
def neighbour? (b : Binary) (k : Int) : Option Decimal :=
  let (n, d) := b.scaled (4 * b.mantissa) k
  let low := n / d
  let lowReads := b.reads low k
  let highReads := b.reads (low + 1) k
  if lowReads && highReads then some ⟨if 2 * (n % d) < d then low else low + 1, k⟩
  else if lowReads then some ⟨low, k⟩
  else if highReads then some ⟨low + 1, k⟩
  else none

/-- Tries grids with one digit more each time; seventeen digits always suffice. -/
def search (b : Binary) (top : Int) : Nat → Nat → Decimal
  | 0, count => (b.neighbour? (top - count)).getD ⟨0, 0⟩
  | more + 1, count => (b.neighbour? (top - count)).getD (b.search top more (count + 1))

end Binary

def Decimal.stripZeros (d : Decimal) : Nat → Decimal
  | 0 => d
  | n + 1 => if d.digits ≠ 0 ∧ d.digits % 10 = 0 then Decimal.stripZeros ⟨d.digits / 10, d.exponent + 1⟩ n else d

def shortest (b : Binary) : Decimal := (b.search b.magnitude 17 0).stripZeros 20

end Shading.Number
