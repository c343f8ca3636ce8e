/-!
# Arenas

A numbered store in two layers: a frozen base, shared by every program, and the items a program
adds. One number names an item of either layer, and a number stays valid because items are only ever
appended. -/
namespace Shading

structure Arena (α : Type) where
  base : Array α
  items : Array α := #[]
deriving Inhabited

namespace Arena

variable {α : Type}

def size (a : Arena α) : Nat := a.base.size + a.items.size

def isEmpty (a : Arena α) : Bool := a.size == 0

def next (a : Arena α) : Nat := a.size

def push (a : Arena α) (x : α) : Arena α := { a with items := a.items.push x }

def get? (a : Arena α) (i : Nat) : Option α :=
  if i < a.base.size then a.base[i]? else a.items[i - a.base.size]?

def isBase (a : Arena α) (i : Nat) : Bool := i < a.base.size

/-- Whether the item may be replaced: it exists and is not frozen. -/
def isOwned (a : Arena α) (i : Nat) : Bool := a.base.size ≤ i && i < a.size

/-- Changes an item of the upper layer; frozen and missing items stay as they are. -/
def modify (a : Arena α) (i : Nat) (f : α → α) : Arena α :=
  if i < a.base.size then a else { a with items := a.items.modify (i - a.base.size) f }

def owned (a : Arena α) : List (Nat × α) :=
  a.items.toList.zipIdx.map fun (x, i) => (a.base.size + i, x)

@[simp] theorem base_push (a : Arena α) (x : α) : (a.push x).base = a.base := rfl

theorem get?_push_next (a : Arena α) (x : α) : (a.push x).get? a.next = some x := by
  simp [get?, push, next, size]

theorem get?_push_of_lt {a : Arena α} {x : α} {i : Nat} (h : i < a.size) : (a.push x).get? i = a.get? i := by
  by_cases hi : i < a.base.size
  · simp [get?, push, hi]
  · have hlt : i - a.base.size < a.items.size := by simp only [size] at h; omega
    simp [get?, push, hi, Array.getElem?_push, Nat.ne_of_lt hlt]

end Arena
end Shading
