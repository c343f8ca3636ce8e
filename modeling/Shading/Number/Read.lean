import Shading.Number.Double

/-!
# Reading decimals

The double nearest to a decimal number, in exact arithmetic; a number halfway between two doubles
goes to the one whose last bit is zero. Digits beyond the eight hundredth can only tell a number
apart from such a halfway point, which never has more than 767 digits, so all of them together count
as one digit. -/
namespace Shading.Number

/-- The quotient rounded to the nearest integer, halves to the even one. -/
def roundDiv (n d : Nat) : Nat :=
  let q := n / d
  let r := n % d
  if 2 * r < d then q else if 2 * r = d then q + q % 2 else q + 1

/-- The power of two of the last bit of the double nearest to `n / d`: 52 places below the leading
bit, but no smaller than the smallest double. -/
def lastPlace (n d : Nat) : Int :=
  let guess : Int := (Nat.log2 n : Int) - Nat.log2 d
  let leading := if d <<< guess.toNat ≤ n <<< (-guess).toNat then guess else guess - 1
  max (-1074) (leading - 52)

/-- The bits of the double nearest to `n / d`, for positive `n` and `d`; too large a number becomes
infinity. -/
def nearestBits (n d : Nat) : Nat :=
  let q := lastPlace n d
  let m := roundDiv (n <<< (-q).toNat) (d <<< q.toNat)
  min ((q + 1074).toNat * 0x10000000000000 + m) (0x7ff * 0x10000000000000)

/-- A decimal number: its digits, and the power of ten of the last one. -/
structure Numerals where
  digits : List Char
  exponent : Int

namespace Numerals

def value (digits : List Char) : Nat := digits.foldl (fun n c => n * 10 + (c.toNat - '0'.toNat)) 0

def strip (digits : List Char) : List Char := digits.dropWhile (· == '0')

/-- At most 801 digits, the last of which stands for everything that was cut off. -/
def shorten (x : Numerals) : Numerals :=
  match x.digits.drop 800 with
  | [] => x
  | tail => ⟨x.digits.take 800 ++ [if tail.all (· == '0') then '0' else '1'], x.exponent + tail.length - 1⟩

/-- The nearest double. Numbers far outside the range of doubles are not computed. -/
def toDouble (x : Numerals) : Double :=
  let x : Numerals := shorten ⟨strip x.digits, x.exponent⟩
  let top := x.exponent + x.digits.length
  if x.digits.isEmpty ∨ top < -400 then .zero
  else if 400 < top then .infinity
  else
    let m := value x.digits
    ⟨UInt64.ofNat (nearestBits (m * Nat.pow 10 x.exponent.toNat) (Nat.pow 10 (-x.exponent).toNat))⟩

end Numerals
end Shading.Number
