import Shading.Spirv.Op

/-!
# Instructions

An instruction of a module keeps ids and plain numbers apart; its words mix them. A template is an
instruction whose id is still open, and says with which other instructions it may share one. -/
namespace Shading.Spirv

inductive Operand where
  | id (id : Nat)
  | number (value : UInt32)
deriving DecidableEq

namespace Operand

def word : Operand → UInt32
  | id n => UInt32.ofNat n
  | number w => w

def id? : Operand → Option Nat
  | id n => some n
  | number _ => none

def ids (list : List Nat) : List Operand := list.map id

def numbers (list : List UInt32) : List Operand := list.map number

end Operand

/-- An instruction: the operation, the type of its result, the id of its result, and the
operands. -/
structure Instruction where
  op : Op
  type : Option Nat := none
  result : Option Nat := none
  operands : List Operand := []
deriving DecidableEq

namespace Instruction

def tail (i : Instruction) : List UInt32 :=
  (i.type.map UInt32.ofNat).toList ++ (i.result.map UInt32.ofNat).toList ++ i.operands.map Operand.word

def size (i : Instruction) : Nat := i.type.toList.length + i.result.toList.length + i.operands.length + 1

def maxSize : Nat := 0xffff

/-- The words of an instruction. The first one holds their number and the operation. -/
def words (i : Instruction) : List UInt32 :=
  UInt32.ofNat (i.size % 0x10000 * 0x10000 + i.op.code.toNat) :: i.tail

@[simp] theorem length_words (i : Instruction) : i.words.length = i.size := by
  cases i with
  | mk op type result operands => cases type <;> cases result <;> simp [words, size, tail] <;> omega

end Instruction

inductive Sharing where
  | shared
  /-- With those of the same key, which is not written: arrays that differ by the stride alone. -/
  | keyed (key : Nat)
  /-- With none: structs that differ by the decorations of their members. -/
  | unique
  /-- There is no result; it is written once all the same. -/
  | noResult
deriving DecidableEq

structure Template where
  op : Op
  type : Option Nat := none
  operands : List Operand := []
  sharing : Sharing := .shared
deriving DecidableEq

def Operand.key : Operand → List Nat
  | id n => [0, n]
  | number w => [1, w.toNat]

def Sharing.key : Sharing → List Nat
  | shared => [0, 0]
  | keyed n => [1, n]
  | unique => [2, 0]
  | noResult => [3, 0]

namespace Template

/-- Numbers that tell a template from all others; tables of templates are ordered by them. -/
def key (t : Template) : List Nat :=
  t.op.code.toNat :: t.type.elim 0 (· + 1) :: (t.sharing.key ++ t.operands.flatMap Operand.key)

def instruction (t : Template) (id : Nat) : Instruction :=
  { op := t.op, type := t.type, result := if t.sharing = .noResult then none else some id, operands := t.operands }

def isConstant (t : Template) : Bool :=
  t.op matches .constant | .constantTrue | .constantFalse | .constantComposite

def constituents (t : Template) : List Nat :=
  if t.op = .constantComposite then t.operands.filterMap Operand.id? else []

end Template

def packed (a b c d : UInt8) : UInt32 :=
  UInt32.ofNat (a.toNat + 0x100 * b.toNat + 0x10000 * c.toNat + 0x1000000 * d.toNat)

/-- Bytes as words, with at least one zero byte at the end. -/
def packedBytes (done : List UInt32) : List UInt8 → List UInt32
  | a :: b :: c :: d :: rest => packedBytes (packed a b c d :: done) rest
  | [a, b, c] => (packed a b c 0 :: done).reverse
  | [a, b] => (packed a b 0 0 :: done).reverse
  | [a] => (packed a 0 0 0 :: done).reverse
  | [] => (0 :: done).reverse

def textWords (text : String) : List UInt32 := packedBytes [] text.toUTF8.data.toList

def textOperands (text : String) : List Operand := Operand.numbers (textWords text)

end Shading.Spirv
