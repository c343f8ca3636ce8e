/-!
# Operators

The operators of expressions and how tightly they bind. The reader climbs these levels, and the
writer of GLSL sets its parentheses by them. -/
namespace Shading

/-- Binding levels: the smaller, the tighter. -/
abbrev Precedence := Nat

namespace Precedence

def parentheses : Precedence := 1
def trailing : Precedence := 2
def leading : Precedence := 3
def multiplicative : Precedence := 4
def additive : Precedence := 5
def shift : Precedence := 6
def relational : Precedence := 7
def equality : Precedence := 8
def bitAnd : Precedence := 9
def bitXor : Precedence := 10
def bitOr : Precedence := 11
def logicalAnd : Precedence := 12
def logicalXor : Precedence := 13
def logicalOr : Precedence := 14
def conditional : Precedence := 15
def assignment : Precedence := 16
def sequence : Precedence := 17
def expression : Precedence := 18

end Precedence

inductive Operator where
  | add | sub | mul | div | rem | shl | shr
  | lt | gt | le | ge | eq | ne
  | logicalAnd | logicalOr | logicalXor
  | bitAnd | bitOr | bitXor
  | logicalNot | bitNot
  | assign | addAssign | subAssign | mulAssign | divAssign | remAssign | shlAssign | shrAssign
  | andAssign | orAssign | xorAssign
  | increment | decrement
  | comma
deriving DecidableEq, Repr

namespace Operator

def all : List Operator :=
  [add, sub, mul, div, rem, shl, shr, lt, gt, le, ge, eq, ne, logicalAnd, logicalOr, logicalXor,
    bitAnd, bitOr, bitXor,
   logicalNot, bitNot, assign, addAssign, subAssign, mulAssign, divAssign, remAssign, shlAssign,
     shrAssign, andAssign,
   orAssign, xorAssign, increment, decrement, comma]

def symbol : Operator → String
  | add => "+" | sub => "-" | mul => "*" | div => "/" | rem => "%" | shl => "<<" | shr => ">>"
  | lt => "<" | gt => ">" | le => "<=" | ge => ">=" | eq => "==" | ne => "!="
  | logicalAnd => "&&" | logicalOr => "||" | logicalXor => "^^"
  | bitAnd => "&" | bitOr => "|" | bitXor => "^"
  | logicalNot => "!" | bitNot => "~"
  | assign => "=" | addAssign => "+=" | subAssign => "-=" | mulAssign => "*=" | divAssign => "/="
  | remAssign => "%=" | shlAssign => "<<=" | shrAssign => ">>=" | andAssign => "&=" | orAssign => "|="
  | xorAssign => "^="
  | increment => "++" | decrement => "--"
  | comma => ","

def ofSymbol? (symbol : String) : Option Operator := all.find? fun op => op.symbol == symbol

def precedence : Operator → Precedence
  | mul | div | rem => Precedence.multiplicative
  | add | sub => Precedence.additive
  | shl | shr => Precedence.shift
  | lt | gt | le | ge => Precedence.relational
  | eq | ne => Precedence.equality
  | bitAnd => Precedence.bitAnd
  | bitXor => Precedence.bitXor
  | bitOr => Precedence.bitOr
  | logicalAnd => Precedence.logicalAnd
  | logicalXor => Precedence.logicalXor
  | logicalOr => Precedence.logicalOr
  | comma => Precedence.sequence
  | logicalNot | bitNot => Precedence.leading
  | increment | decrement => Precedence.trailing
  | _ => Precedence.assignment

def isAssignment : Operator → Bool
  | assign | addAssign | subAssign | mulAssign | divAssign | remAssign | shlAssign | shrAssign
  | andAssign | orAssign | xorAssign => true
  | _ => false

/-- The operator that a compound assignment applies; any other operator stays itself. -/
def underlying : Operator → Operator
  | addAssign => add | subAssign => sub | mulAssign => mul | divAssign => div | remAssign => rem
  | shlAssign => shl | shrAssign => shr | andAssign => bitAnd | orAssign => bitOr | xorAssign => bitXor
  | op => op

/-- Arithmetic and bitwise operators, whose result is of the kind of their operands. -/
def isArithmetic : Operator → Bool
  | add | sub | mul | div | rem | shl | shr | bitAnd | bitOr | bitXor => true
  | _ => false

def isComparison : Operator → Bool
  | lt | gt | le | ge | eq | ne => true
  | _ => false

def isLogical : Operator → Bool
  | logicalAnd | logicalOr | logicalXor => true
  | _ => false

def isStep : Operator → Bool
  | increment | decrement => true
  | _ => false

theorem mem_all (op : Operator) : op ∈ all := by cases op <;> decide

end Operator
end Shading
