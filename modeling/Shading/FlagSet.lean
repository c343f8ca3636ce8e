/-!
# Flag sets

Sets over a small list of flags, kept as bits. A flag's place in the list is its bit.
-/
namespace Shading

/-- A type whose values are listed in bit order. -/
class Flag (α : Type) where
  all : List α
  index : α → Nat

structure FlagSet (α : Type) where
  bits : Nat
deriving DecidableEq, Repr, Inhabited

namespace FlagSet

variable {α : Type} [Flag α]

def empty : FlagSet α := ⟨0⟩

def contains (s : FlagSet α) (a : α) : Bool := s.bits.testBit (Flag.index a)

def insert (s : FlagSet α) (a : α) : FlagSet α := ⟨s.bits ||| 1 <<< Flag.index a⟩

def ofList (flags : List α) : FlagSet α := flags.foldl insert empty

/-- The set with these bits; bits of no flag are dropped. -/
def ofBits (bits : Nat) : FlagSet α := ofList ((Flag.all : List α).filter fun a => bits.testBit (Flag.index a))

def toList (s : FlagSet α) : List α := Flag.all.filter s.contains

def isEmpty (s : FlagSet α) : Bool := s.bits == 0

def union (s t : FlagSet α) : FlagSet α := ⟨s.bits ||| t.bits⟩

def inter (s t : FlagSet α) : FlagSet α := ⟨s.bits &&& t.bits⟩

def diff (s t : FlagSet α) : FlagSet α := ofList (s.toList.filter fun a => !t.contains a)

def meets (s t : FlagSet α) : Bool := !(s.inter t).isEmpty

end FlagSet
end Shading
