import Shading.Ty

/-!
# Memory layouts

Where the members of a block lie in memory. Scalars are aligned to 4 bytes, vectors of two entries
to 8 and larger ones to 16; a matrix is an array of its columns. The uniform layout (`std140`)
rounds the alignment of arrays, structs and matrix columns up to 16, the storage layout (`std430`)
does not.

All numbers are 32-bit. What does not fit becomes `limit`, which no real size reaches because sizes
are multiples of four. -/
namespace Shading

inductive MemoryLayout where
  | std140
  | std430
deriving DecidableEq, Repr

/-- The numbers of a type that decide where its values lie. -/
structure Metrics where
  alignment : Nat := 0
  /-- With the padding at the end of arrays and structs; zero for an array without a size. -/
  size : Nat := 0
  /-- The distance of two columns in a matrix or an array of matrices, otherwise zero. -/
  matrixStride : Nat := 0
  /-- The distance of two elements of an array, otherwise zero. -/
  arrayStride : Nat := 0
deriving DecidableEq, Repr, Inhabited

/-- Why a member cannot lie where it should. -/
inductive Misplacement where
  | tooSmall (minimum : Nat)
  | misaligned (alignment : Nat)
  /-- The member ends past 4 GiB. -/
  | overflow
deriving DecidableEq, Repr

/-- Where a member lies; a wrong offset is used all the same, with a note of what is wrong. -/
structure Placement where
  offset : Nat
  metrics : Metrics
  problem : Option Misplacement
deriving DecidableEq, Repr, Inhabited

namespace MemoryLayout

/-- The largest 32-bit number, which stands for everything beyond. -/
def limit : Nat := 0xffffffff

def alignTo (offset alignment : Nat) : Nat :=
  if offset + (alignment - 1) ≤ limit then (offset + (alignment - 1)) / alignment * alignment else limit

def name : MemoryLayout → String
  | std140 => "std140" | std430 => "std430"

/-- The alignment of an array, struct or matrix column with this alignment inside. -/
def roundUp (layout : MemoryLayout) (alignment : Nat) : Nat :=
  match layout with
  | std140 => max alignment 16
  | std430 => alignment

end MemoryLayout

namespace Metrics

def overflows (m : Metrics) : Bool := m.size == MemoryLayout.limit || m.arrayStride == MemoryLayout.limit

def ofArray (layout : MemoryLayout) (element : Metrics) (count : Option Nat) : Metrics :=
  let alignment := layout.roundUp element.alignment
  let stride := MemoryLayout.alignTo element.size alignment
  { alignment, size := min (stride * count.getD 0) MemoryLayout.limit,
    matrixStride := element.matrixStride, arrayStride := stride }

def ofVector (size : Dim) : Metrics :=
  { alignment := if size = .two then 8 else 16, size := 4 * size.toNat }

def ofMatrix (layout : MemoryLayout) (columns rows : Dim) : Metrics :=
  let stride := layout.roundUp (ofVector rows).alignment
  { alignment := stride, size := stride * columns.toNat, matrixStride := stride }

/-- Room for at least the alignment that a member asks for; only powers of two count. -/
def withAlignment (m : Metrics) (align : Option Nat) : Metrics :=
  match align with
  | some n => if n.isPowerOfTwo then { m with alignment := max m.alignment n } else m
  | none => m

end Metrics

namespace Placement

/-- The end of a member, unless it lies past 4 GiB. -/
def stop? (offset : Nat) (metrics : Metrics) : Option Nat :=
  if offset + metrics.size ≤ MemoryLayout.limit ∧ !metrics.overflows ∧ offset ≠ MemoryLayout.limit then
    some (offset + metrics.size)
  else none

/-- What is wrong with an offset that was asked for, when the members before end at `next`. -/
def check (explicit next alignment : Nat) : Option Misplacement :=
  if explicit < next then some (.tooSmall next)
  else if alignment ≠ 0 ∧ explicit % alignment ≠ 0 then some (.misaligned alignment)
  else none

/-- Places a member after the members that end at `next`; without `next` an earlier member ended
past 4 GiB. The second result is the end of the new member. -/
def place (next : Option Nat) (metrics : Metrics) (modifiers : Modifiers) : Placement × Option Nat :=
  match next with
  | none => (⟨MemoryLayout.limit, metrics, none⟩, none)
  | some next =>
    let metrics := metrics.withAlignment modifiers.layout.align
    let offset := modifiers.layout.offset.getD (MemoryLayout.alignTo next metrics.alignment)
    let problem := modifiers.layout.offset.bind fun explicit => check explicit next metrics.alignment
    match stop? offset metrics with
    | some stop => (⟨offset, metrics, problem⟩, some stop)
    | none => (⟨offset, metrics, problem.or (some .overflow)⟩, none)

def stop (p : Placement) : Nat :=
  if p.problem = some .overflow then MemoryLayout.limit else min (p.offset + p.metrics.size) MemoryLayout.limit

end Placement

def Metrics.ofPlacements (layout : MemoryLayout) (placements : List Placement) : Metrics :=
  let alignment := layout.roundUp ((placements.map (·.metrics.alignment)).max?.getD 4)
  let stop := (placements.getLast?.map Placement.stop).getD 0
  { alignment, size := MemoryLayout.alignTo stop alignment }

namespace MemoryLayout

mutual
/-- Whether values of the type can lie in memory; booleans cannot. -/
def supports : Ty → Bool
  | .scalar s | .vector s _ | .matrix s _ _ => s.kind != .boolean
  | .array e _ => supports e
  | .struct _ _ fs _ => supportsAll fs
  | _ => false
def supportsAll : List (Field Ty) → Bool
  | [] => true
  | ⟨_, ty, _, _⟩ :: fs => supports ty && supportsAll fs
end

mutual
def metrics (layout : MemoryLayout) : Ty → Metrics
  | .scalar _ => { alignment := 4, size := 4 }
  | .vector _ n => .ofVector n
  | .matrix _ c r => .ofMatrix layout c r
  | .array e n => .ofArray layout (layout.metrics e) n
  | .struct _ _ fs _ => .ofPlacements layout (layout.placeAfter (some 0) fs)
  | _ => {}
def placeAfter (layout : MemoryLayout) (next : Option Nat) : List (Field Ty) → List Placement
  | [] => []
  | ⟨_, ty, modifiers, _⟩ :: fs =>
    let placed := Placement.place next (layout.metrics ty) modifiers
    placed.1 :: layout.placeAfter placed.2 fs
end

def place (layout : MemoryLayout) (fields : List (Field Ty)) : List Placement := layout.placeAfter (some 0) fields

/-- Larger alignments first; members of one alignment keep their order. -/
def byAlignment {α : Type} (alignment : α → Nat) (items : List α) : List α :=
  items.mergeSort fun a b => alignment b ≤ alignment a

end MemoryLayout
end Shading
