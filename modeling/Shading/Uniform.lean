import Shading.Event
import Shading.Memory.Layout
import Shading.Program

/-!
# Loose uniforms

The uniform variables outside interface blocks, packed one after the other: larger alignments first,
and within one alignment in the order of the source. The list ends before the first one that would
end past 4 GiB. -/
namespace Shading

structure Uniform where
  name : String
  ty : Ty
  offset : Nat
  size : Nat
  alignment : Nat

namespace Uniform

def candidates (p : Program) (layout : MemoryLayout) : List (Variable × Metrics) :=
  p.globals.filterMap fun n =>
    let v := p.variableAt n
    if v.modifiers.has .uniform && MemoryLayout.supports v.ty then some (v, layout.metrics v.ty) else none

def pack (next : Nat) : List (Variable × Metrics) → List Uniform × List Event
  | [] => ([], [])
  | (v, m) :: more =>
    let start := MemoryLayout.alignTo next m.alignment
    if start + m.size ≤ MemoryLayout.limit ∧ start ≠ MemoryLayout.limit then
      let packed := pack (start + m.size) more
      (⟨v.name, v.ty, start, m.size, m.alignment⟩ :: packed.1, packed.2)
    else ([], [.uniformTooFar v.name])

end Uniform

/-- The loose uniforms of a program with their places, and what there is to say about the others. -/
def Program.uniforms (p : Program) (layout : MemoryLayout) : List Uniform × List Event :=
  let candidates := Uniform.candidates p layout
  let tooLarge := candidates.filterMap fun (v, m) =>
    if m.overflows then some (Event.uniformTooLarge v.name) else none
  let fitting := candidates.filter fun (_, m) => !m.overflows
  let packed := Uniform.pack 0 (MemoryLayout.byAlignment (·.2.alignment) fitting)
  (packed.1, tooLarge ++ packed.2)

end Shading
