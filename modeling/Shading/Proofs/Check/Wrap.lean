import Mathlib.Data.List.Basic
import Shading.Literal

/-! Integers are computed in 64 bits. The lower half of what comes out is what words of 32 bits
compute. -/
namespace Shading.Literal

@[simp] lemma setWidth_long (a : Int) : (long a).setWidth 32 = word a := by
  apply BitVec.eq_of_toNat_eq
  simp only [long, word, BitVec.toNat_setWidth, BitVec.toNat_ofInt]
  omega

lemma setWidth_long_add (a b : Int) : (long a + long b).setWidth 32 = word a + word b := by
  simp [BitVec.setWidth_add]

lemma setWidth_long_mul (a b : Int) : (long a * long b).setWidth 32 = word a * word b := by
  simp [BitVec.setWidth_mul]

lemma setWidth_long_neg (a : Int) : (-long a).setWidth 32 = -word a := by
  simp [BitVec.setWidth_neg_of_le]

lemma setWidth_long_sub (a b : Int) : (long a - long b).setWidth 32 = word a - word b := by
  rw [BitVec.sub_eq_add_neg, BitVec.sub_eq_add_neg, BitVec.setWidth_add _ _ (by decide),
    setWidth_long_neg, setWidth_long]

lemma setWidth_shiftRight (s : Scalar) (a : Int) (amount : Nat) : (shiftRight s a amount).setWidth 32 =
    if s.kind = .signed then (word a).sshiftRight amount else word a >>> amount := by
  have hsigned (w : BitVec 32) : (w.signExtend 64).setWidth 32 = w := by
    apply BitVec.eq_of_getLsbD_eq
    intro i hi
    have hlong : i < 64 := by omega
    simp only [BitVec.getLsbD_setWidth, BitVec.getLsbD_signExtend, hi, hlong, decide_true, Bool.true_and, if_true]
  unfold shiftRight
  split
  · exact hsigned _
  · exact BitVec.setWidth_setWidth_of_le _ (by decide)

end Shading.Literal
