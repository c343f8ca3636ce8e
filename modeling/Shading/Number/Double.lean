/-!
# Doubles

Numbers of double precision as their 64 bits: a sign, eleven bits of exponent and 52 bits of
fraction. Doubles are equal if all their bits are, so the two zeros differ and nothing is lost of a
NaN. Arithmetic and comparison go through `Float`. -/
namespace Shading.Number

structure Double where
  bits : UInt64
deriving DecidableEq, Repr, Inhabited

namespace Double

def ofFloat (x : Float) : Double := ⟨x.toBits⟩

def toFloat (x : Double) : Float := Float.ofBits x.bits

def zero : Double := ⟨0⟩

def infinity : Double := ⟨0x7ff0000000000000⟩

/-- The sign bit, which zeros and NaNs have too. -/
def isNegative (x : Double) : Bool := x.bits.toNat.testBit 63

def biased (x : Double) : Nat := x.bits.toNat / 0x10000000000000 % 0x800

def fraction (x : Double) : Nat := x.bits.toNat % 0x10000000000000

def neg (x : Double) : Double := ⟨x.bits ^^^ 0x8000000000000000⟩

@[simp] theorem isNegative_neg (x : Double) : x.neg.isNegative = !x.isNegative := by
  have top : Nat.testBit 0x8000000000000000 63 = true := by decide
  simp [neg, isNegative, top]

end Double
end Shading.Number
