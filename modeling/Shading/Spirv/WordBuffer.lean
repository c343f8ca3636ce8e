import Shading.Spirv.Instruction

/-!
# Word buffers

The words of instructions one after another. The first word of an instruction has sixteen bits for
the length, so a buffer remembers the first instruction that is longer than that. -/
namespace Shading.Spirv

structure WordBuffer where
  /-- The newest first. -/
  words : List UInt32 := []
  /-- The length of the first instruction that is too long. -/
  oversized : Option Nat := none
deriving DecidableEq

namespace WordBuffer

/-- An instruction at the end; one from a template has its id by now. -/
def write (b : WordBuffer) (i : Instruction) : WordBuffer where
  words := i.words.reverse ++ b.words
  oversized := b.oversized.or (if Instruction.maxSize < i.size then some i.size else none)

/-- One buffer after another; the first instruction that is too long counts. -/
def append (b other : WordBuffer) : WordBuffer where
  words := other.words ++ b.words
  oversized := b.oversized.or other.oversized

def writeAll (b : WordBuffer) (is : List Instruction) : WordBuffer := is.foldl write b

def ofNewest (is : List Instruction) : WordBuffer := is.foldr (fun i b => b.write i) {}

end WordBuffer
end Shading.Spirv
