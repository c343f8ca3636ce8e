import Shading.Spirv.WordBuffer
import Mathlib.Data.List.Basic

/-! The words of instructions can be taken apart again. The first word of an instruction tells how
many words it has, so that a reader who follows these numbers finds the instructions that have been
written, and nothing else. -/
namespace Shading.Spirv

/-! ### Buffers -/

namespace WordBuffer

variable {b c : WordBuffer} {i : Instruction} {is js : List Instruction}

@[simp] lemma append_empty : b.append {} = b := by
  simp [append]

lemma append_write : b.append (c.write i) = (b.append c).write i := by
  simp [append, write, Option.or_assoc]

lemma append_writeAll : b.append (c.writeAll is) = (b.append c).writeAll is := by
  induction is generalizing c with
  | nil => rfl
  | cons i is ih =>
    change b.append ((c.write i).writeAll is) = ((b.append c).write i).writeAll is
    rw [ih, append_write]

lemma writeAll_append : b.writeAll (is ++ js) = (b.writeAll is).writeAll js := List.foldl_append

lemma ofNewest_eq : ofNewest is = writeAll {} is.reverse := List.foldl_reverse.symm

lemma append_ofNewest : b.append (ofNewest is) = b.writeAll is.reverse := by
  rw [ofNewest_eq, append_writeAll, append_empty]

lemma words_writeAll : (b.writeAll is).words.reverse = b.words.reverse ++ is.flatMap Instruction.words := by
  induction is generalizing b with
  | nil => simp [writeAll]
  | cons i is ih =>
    change ((b.write i).writeAll is).words.reverse = _
    rw [ih, write, List.reverse_append, List.reverse_reverse, List.append_assoc, List.flatMap_cons]

/-- What has once been too long is not forgotten, and nothing else counts as too long. -/
lemma oversized_writeAll_eq_none_iff :
    (b.writeAll is).oversized = none ↔ b.oversized = none ∧ ∀ i ∈ is, i.size ≤ Instruction.maxSize := by
  induction is generalizing b with
  | nil => simp [writeAll]
  | cons i is ih =>
    change ((b.write i).writeAll is).oversized = none ↔ _
    rw [ih, write, List.forall_mem_cons]
    simp [and_assoc]

end WordBuffer

/-! ### Taking words apart -/

/-- The upper half of a word. -/
def upperHalf (w : UInt32) : Nat := w.toNat / 0x10000

/-- Cuts words into instructions, as the upper half of the first word of each tells its length. None
if a length is zero or more than what is left. -/
def cut : List UInt32 → Option (List (List UInt32))
  | [] => some []
  | w :: rest =>
    if 0 < upperHalf w ∧ upperHalf w ≤ rest.length + 1 then
      (cut (rest.drop (upperHalf w - 1))).map ((w :: rest).take (upperHalf w) :: ·)
    else none
termination_by words => words.length
decreasing_by
  simp only [List.length_drop, List.length_cons]
  omega

/-- What the words of one instruction say: the number of the operation, which is the lower half of
the first word, and the numbers after it. -/
def readPiece : List UInt32 → Option (Nat × List Nat)
  | [] => none
  | w :: rest => some (w.toNat % 0x10000, rest.map UInt32.toNat)

/-- What the instructions in a list of words say. -/
def readWords (ws : List UInt32) : Option (List (Nat × List Nat)) := (cut ws).bind (·.mapM readPiece)

lemma Op.code_lt (op : Op) : op.code.toNat < 0x10000 := by
  cases op <;> decide

def Operand.toNat : Operand → Nat
  | id n => n
  | number w => w.toNat

namespace Instruction

variable {i : Instruction}

/-- What an instruction says: its operation by number, then the type, the result and the operands,
as far as a word can hold them. -/
def content (i : Instruction) : Nat × List Nat :=
  (i.op.code.toNat, (i.type.toList ++ i.result.toList ++ i.operands.map Operand.toNat).map (· % 0x100000000))

lemma size_pos (i : Instruction) : 0 < i.size := Nat.succ_pos _

/-- The first word of an instruction that is not too long tells its length and its operation. -/
lemma toNat_head (h : i.size ≤ maxSize) :
    (UInt32.ofNat (i.size % 0x10000 * 0x10000 + i.op.code.toNat)).toNat = i.size * 0x10000 + i.op.code.toNat := by
  have hcode := i.op.code_lt
  unfold maxSize at h
  rw [UInt32.toNat_ofNat_of_lt' (by unfold UInt32.size; omega)]
  omega

lemma upperHalf_head (h : i.size ≤ maxSize) :
    upperHalf (UInt32.ofNat (i.size % 0x10000 * 0x10000 + i.op.code.toNat)) = i.size := by
  have hcode := i.op.code_lt
  rw [upperHalf, toNat_head h]
  omega

/-- The words after the first one are the numbers that the instruction says. -/
lemma map_toNat_tail : i.tail.map UInt32.toNat = i.content.2 := by
  have hoperand (o : Operand) : o.word.toNat = o.toNat % 0x100000000 := by
    cases o with
    | id n => exact UInt32.toNat_ofNat'
    | number w => exact (Nat.mod_eq_of_lt w.toNat_lt).symm
  rcases i with ⟨op, _ | t, _ | r, operands⟩ <;> simp [tail, content, hoperand, UInt32.toNat_ofNat']

lemma readPiece_words (h : i.size ≤ maxSize) : readPiece i.words = some i.content := by
  have hcode := i.op.code_lt
  have hop : (i.size * 0x10000 + i.op.code.toNat) % 0x10000 = i.op.code.toNat := by omega
  rw [words, readPiece, toNat_head h, map_toNat_tail, hop]
  rfl

lemma cut_words_append (h : i.size ≤ maxSize) (rest : List UInt32) :
    cut (i.words ++ rest) = (cut rest).map (i.words :: ·) := by
  have hlength := i.length_words
  have hpos := i.size_pos
  unfold words at hlength ⊢
  rw [List.length_cons] at hlength
  rw [List.cons_append, cut, upperHalf_head h, if_pos ⟨hpos, by rw [List.length_append]; omega⟩]
  have htail : i.size - 1 = i.tail.length := by omega
  have hall : i.size = i.tail.length + 1 := by omega
  rw [htail, List.drop_left]
  rw [hall, List.take_succ_cons, List.take_left]

end Instruction

lemma cut_flatMap_words {is : List Instruction} (h : ∀ i ∈ is, i.size ≤ Instruction.maxSize) :
    cut (is.flatMap Instruction.words) = some (is.map Instruction.words) := by
  induction is with
  | nil => simp [cut]
  | cons i is ih =>
    rw [List.forall_mem_cons] at h
    rw [List.flatMap_cons, Instruction.cut_words_append h.1, ih h.2]
    rfl

lemma readWords_flatMap_words {is : List Instruction} (h : ∀ i ∈ is, i.size ≤ Instruction.maxSize) :
    readWords (is.flatMap Instruction.words) = some (is.map Instruction.content) := by
  rw [readWords, cut_flatMap_words h, Option.bind_some, List.mapM_map]
  induction is with
  | nil => rfl
  | cons i is ih =>
    rw [List.forall_mem_cons] at h
    rw [List.mapM_cons, Function.comp_apply, Instruction.readPiece_words h.1, ih h.2]
    rfl

end Shading.Spirv
