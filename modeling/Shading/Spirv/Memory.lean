import Shading.Spirv.Value

/-!
# Memory

Reading and writing variables. An access is a way into a variable that is not written yet; a target
is what an assignment changes, which may be some components of a vector in memory. Values that leave
or enter a block are taken apart and put together again where the two representations of their type
differ. -/
namespace Shading.Spirv

structure Access where
  base : Nat
  storage : StorageClass
  layout : Option MemoryLayout := none
  indices : List Nat := []
  ty : Ty

def Access.step (a : Access) (index : Nat) (ty : Ty) : Access := { a with indices := a.indices ++ [index], ty }

inductive Target where
  | memory (access : Access)
  | components (vector : Access) (mask : List (Fin 4))

def Target.select (mask : List (Fin 4)) : Target → Target
  | memory a => components a mask
  | components a inner => components a (mask.map fun c => inner.getD c.val 0)

namespace Build

/-- Where a variable lies. A variable that has not been written is a problem, and zero stands for
it. -/
def variableAccess (number : Nat) (ty : Ty) : Build Access := do
  let v := (← read).program.variableAt number
  match (← get).places[number]? with
  | some place => return { base := place.pointer, storage := place.storage, layout := place.layout, ty := v.ty }
  | none =>
    report (.variableUnavailable v.name)
    return { base := 0, storage := .function, ty }

def localVariable (ty : Ty) : Build Nat := do
  let type ← typeOf ty
  let pointer ← pointerType type .function
  let id ← fresh
  let declaration : Instruction :=
    { op := .variable_, type := pointer, result := id, operands := [.number StorageClass.function.code] }
  modify fun b => { b with body := { b.body with locals := declaration :: b.body.locals } }
  relax id ty
  return id

def temporary (ty : Ty) : Build Access := return { base := ← localVariable ty, storage := .function, ty }

def pointer (a : Access) : Build Nat := do
  if a.indices.isEmpty then return a.base
  let type ← typeIn a.layout a.ty
  let pointer ← pointerType type a.storage
  compute .accessChain pointer (Operand.ids (a.base :: a.indices))

mutual
def relayout (source dest : Option MemoryLayout) (value : Nat) : Ty → Build Nat
  | .struct id name fields block => do
    let sourceId ← typeIn source (.struct id name fields block)
    let destId ← typeIn dest (.struct id name fields block)
    if sourceId = destId then return value
    let parts ← relayoutFields source dest value 0 fields
    compute .compositeConstruct destId (Operand.ids parts)
  | .array e (some n) => do
    let sourceId ← typeIn source (.array e (some n))
    let destId ← typeIn dest (.array e (some n))
    if sourceId = destId then return value
    let parts ← (List.range n).mapM fun i => do
      let type ← typeIn source e
      let part ← extractAs type value [i]
      relayout source dest part e
    compute .compositeConstruct destId (Operand.ids parts)
  | ty => do
    let sourceId ← typeIn source ty
    let destId ← typeIn dest ty
    if sourceId != destId then report (.typeNotCopied ty)
    return value
def relayoutFields (source dest : Option MemoryLayout) (value i : Nat) : List (Field Ty) → Build (List Nat)
  | [] => return []
  | ⟨_, ty, _, _⟩ :: fields => do
    let type ← typeIn source ty
    let part ← extractAs type value [i]
    let moved ← relayout source dest part ty
    return moved :: (← relayoutFields source dest value (i + 1) fields)
end

def load (a : Access) : Build Nat := do
  let p ← pointer a
  let type ← typeIn a.layout a.ty
  let id ← compute .load type [.id p]
  relax id a.ty
  relayout a.layout none id a.ty

def store (a : Access) (value : Nat) : Build Unit := do
  let value ← relayout none a.layout value a.ty
  let p ← pointer a
  emit .store (Operand.ids [p, value])

def loadTarget (t : Target) (ty : Ty) : Build Nat :=
  match t with
  | .memory a => load a
  | .components a mask => do
    let value ← load a
    swizzle value mask ty

/-- For each component of a vector of `size` entries, where it comes from when the masked ones are
replaced: the entries of the old vector are numbered first, then those of the new one. -/
def replacement (size : Nat) (mask : List (Fin 4)) : List Nat :=
  (List.range size).map fun i => match mask.findIdx? (·.val == i) with
    | some k => size + k
    | none => i

def storeTarget (t : Target) (value : Nat) : Build Unit :=
  match t with
  | .memory a => store a value
  | .components a mask => do
    let old ← load a
    let chosen := Operand.numbers ((replacement a.ty.rows mask).map UInt32.ofNat)
    let new ← match mask with
      | [c] => result .compositeInsert a.ty (Operand.ids [value, old] ++ [.number (.ofNat c.val)])
      | _ => result .vectorShuffle a.ty (Operand.ids [old, value] ++ chosen)
    store a new

end Build
end Shading.Spirv
