import Shading.Number.Read

/-!
# Numerals

The numbers that number tokens spell. An integer is decimal, octal after a leading `0` or
hexadecimal after `0x`, and may end in `u`; it has to stay below 2 ^ 64. A floating-point number may
end in `f`; its exponent takes digits only up to a limit. -/
namespace Shading.Numeral

def digit? (base : Nat) (c : Char) : Option Nat :=
  let n :=
    if c.isDigit then some (c.toNat - '0'.toNat)
    else if 'a' ≤ c ∧ c ≤ 'f' then some (c.toNat - 'a'.toNat + 10)
    else if 'A' ≤ c ∧ c ≤ 'F' then some (c.toNat - 'A'.toNat + 10)
    else none
  n.filter (· < base)

def bound : Nat := 0x10000000000000000

/-- The number that digits of a base spell. Once it has reached `bound` it takes no more digits. -/
def value? (base : Nat) (digits : List Char) : Option Nat :=
  digits.foldlM (fun n c => (digit? base c).map fun d => if n < bound then n * base + d else n) 0

def dropEnding (endings : List Char) (cs : List Char) : List Char × Bool :=
  match cs.reverse with
  | c :: rest => if endings.contains c then (rest.reverse, true) else (cs, false)
  | [] => (cs, false)

def magnitude? (digits : List Char) : Option Nat :=
  match digits with
  | [] => none
  | ['0'] => some 0
  | '0' :: 'x' :: rest | '0' :: 'X' :: rest => if rest.isEmpty then none else value? 16 rest
  | '0' :: rest => value? 8 rest
  | _ => value? 10 digits

def integer? (cs : List Char) : Option (Nat × Bool) :=
  let (digits, unsigned) := dropEnding ['u', 'U'] cs
  (magnitude? digits).bind fun n => if n < bound then some (n, unsigned) else none

/-- An exponent that has reached this takes no more digits. -/
def exponentLimit : Nat := 0x10000

/-- The number that the digits of an exponent spell. Once it has reached the limit the digits that
are left are passed over, so it stays below ten times the limit. -/
def exponentDigits (digits : List Char) : Nat :=
  digits.foldl (fun n c => if n < exponentLimit then n * 10 + (c.toNat - '0'.toNat) else n) 0

def exponent : List Char → Int
  | '-' :: digits => -(exponentDigits digits)
  | '+' :: digits => exponentDigits digits
  | digits => exponentDigits digits

def float (cs : List Char) : Number.Double :=
  let body := (dropEnding ['f', 'F'] cs).1
  let isMark (c : Char) : Bool := c == 'e' || c == 'E'
  let number := body.takeWhile (!isMark ·)
  let power := exponent ((body.dropWhile (!isMark ·)).drop 1)
  let whole := number.takeWhile (· != '.')
  let fraction := (number.dropWhile (· != '.')).drop 1
  Number.Numerals.toDouble ⟨whole ++ fraction, power - fraction.length⟩

end Shading.Numeral
