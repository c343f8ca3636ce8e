import Mathlib
import Shading.Spirv.Instruction

/-! Texts in a module. The words of a text hold its bytes, the lowest first, and then zeros: at
least one, and no more than fill the last word. A text without a zero byte is what stands before the
first zero, whatever follows its words. -/
namespace Shading.Spirv

/-- The four bytes of a word, the lowest first. -/
def wordBytes (w : UInt32) : List UInt8 :=
  [.ofNat w.toNat, .ofNat (w.toNat / 0x100), .ofNat (w.toNat / 0x10000), .ofNat (w.toNat / 0x1000000)]

/-- The bytes that words hold, up to the first zero. -/
def unpackedBytes (words : List UInt32) : List UInt8 := (words.flatMap wordBytes).takeWhile (· ≠ 0)

@[simp] lemma wordBytes_packed (a b c d : UInt8) : wordBytes (packed a b c d) = [a, b, c, d] := by
  have ha := a.toNat_lt
  have hb := b.toNat_lt
  have hc := c.toNat_lt
  have hd := d.toNat_lt
  have hword : (packed a b c d).toNat = a.toNat + 0x100 * b.toNat + 0x10000 * c.toNat + 0x1000000 * d.toNat := by
    refine UInt32.toNat_ofNat_of_lt' ?_
    change _ < 2 ^ 32
    omega
  unfold wordBytes
  rw [hword]
  simp only [List.cons.injEq, ← UInt8.toNat_inj, UInt8.toNat_ofNat', and_true]
  omega

@[simp] lemma wordBytes_zero : wordBytes 0 = [0, 0, 0, 0] := rfl

lemma bytes_packedBytes (done : List UInt32) (bytes : List UInt8) :
    (packedBytes done bytes).flatMap wordBytes =
      done.reverse.flatMap wordBytes ++ (bytes ++ List.replicate (4 - bytes.length % 4) 0) := by
  fun_induction packedBytes done bytes with
  | case1 done a b c d rest ih =>
    have hzeros : (rest.length + 1 + 1 + 1 + 1) % 4 = rest.length % 4 := by omega
    simp [ih, hzeros]
  | case2 done a b c => simp
  | case3 done a b => simp
  | case4 done a => simp
  | case5 done => simp

lemma length_packedBytes (done : List UInt32) (bytes : List UInt8) :
    (packedBytes done bytes).length = done.length + (bytes.length / 4 + 1) := by
  fun_induction packedBytes done bytes with
  | case1 done a b c d rest ih =>
    simp only [ih, List.length_cons]
    omega
  | case2 done a b c => simp
  | case3 done a b => simp
  | case4 done a => simp
  | case5 done => simp

lemma unpackedBytes_append {bytes : List UInt8} (h : 0 ∉ bytes) (rest : List UInt32) :
    unpackedBytes (packedBytes [] bytes ++ rest) = bytes := by
  have hzeros : ∃ n, 4 - bytes.length % 4 = n + 1 := ⟨3 - bytes.length % 4, by omega⟩
  obtain ⟨n, hn⟩ := hzeros
  unfold unpackedBytes
  rw [List.flatMap_append, bytes_packedBytes, hn, List.replicate_succ, List.reverse_nil,
    List.flatMap_nil, List.nil_append,
    List.append_assoc, List.takeWhile_append_of_pos fun b hb => decide_eq_true (ne_of_mem_of_not_mem hb h)]
  simp

/-- The bytes of a text. -/
def textBytes (text : String) : List UInt8 := text.toUTF8.data.toList

lemma textBytes_injective {a b : String} (h : textBytes a = textBytes b) : a = b :=
  String.toByteArray_inj.mp (ByteArray.ext (Array.toList_inj.mp h))

/-- Operands around two texts tell the texts apart, if as many stand in front of them. -/
lemma text_of_operands {a b : String} (ha : 0 ∉ textBytes a) (hb : 0 ∉ textBytes b)
    (front front' back back' : List Operand)
    (hfront : front.length = front'.length)
    (h : (front ++ textOperands a ++ back).map Operand.word =
    (front' ++ textOperands b ++ back').map Operand.word) : a = b := by
  have hwords (text : String) : (textOperands text).map Operand.word = packedBytes [] (textBytes text) := by
    simp [textOperands, Operand.numbers, Function.comp_def, Operand.word, textWords, textBytes]
  simp only [List.map_append, hwords, List.append_assoc] at h
  have hback := (List.append_inj h (by simpa using hfront)).2
  have hread := congrArg unpackedBytes hback
  rw [unpackedBytes_append ha, unpackedBytes_append hb] at hread
  exact textBytes_injective hread

/-- The words of a text are read back as the text, and only zeros follow it. Two different texts
therefore never give the same operands of a name, of an entry point or of a linkage decoration,
whatever else these say. -/
theorem text_words_decode (bytes : List UInt8) (h : 0 ∉ bytes) :
    (packedBytes [] bytes).length = bytes.length / 4 + 1 ∧
    unpackedBytes (packedBytes [] bytes) = bytes ∧
    (∀ b ∈ ((packedBytes [] bytes).flatMap wordBytes).drop bytes.length, b = 0) ∧
    (∀ text : String, textBytes text = bytes → textWords text = packedBytes [] bytes ∧
      ∀ other : String, 0 ∉ textBytes other → other ≠ text →
      (∀ target target', (Operand.id target :: textOperands text).map Operand.word ≠
        (Operand.id target' :: textOperands other).map Operand.word) ∧
      (∀ stage stage' main main' interface interface',
        (.number stage :: .id main :: textOperands text ++ Operand.ids interface).map Operand.word ≠
        (.number stage' :: .id main' :: textOperands other ++ Operand.ids interface').map Operand.word) ∧
      (∀ target target' kind kind',
        (.id target :: .number Decoration.linkageAttributes.code ::
        Operand.numbers (textWords text ++ [kind])).map Operand.word ≠
        (.id target' :: .number Decoration.linkageAttributes.code ::
        Operand.numbers (textWords other ++ [kind'])).map Operand.word)) := by
  refine ⟨?_, ?_, fun b hb => ?_, fun text htext => ⟨?_, fun other hother hne => ?_⟩⟩
  · simpa using length_packedBytes [] bytes
  · simpa using unpackedBytes_append h []
  · rw [bytes_packedBytes, List.reverse_nil, List.flatMap_nil, List.nil_append, List.drop_left] at hb
    exact List.eq_of_mem_replicate hb
  · rw [← htext]
    rfl
  · subst htext
    refine ⟨fun target target' heq => ?_, fun stage stage' main main' interface interface' heq => ?_,
      fun target target' kind kind' heq => ?_⟩
    · refine hne (text_of_operands h hother [.id target] [.id target'] [] [] rfl ?_).symm
      simpa using heq
    · exact hne (text_of_operands h hother [.number stage, .id main] [.number stage', .id main'] _ _ rfl heq).symm
    · refine hne (text_of_operands h hother [.id target, .number Decoration.linkageAttributes.code]
        [.id target', .number Decoration.linkageAttributes.code] [.number kind] [.number kind'] rfl ?_).symm
      simpa [textOperands, Operand.numbers] using heq

/-- The terminator of a text of four bytes takes a word of its own. -/
theorem text_words_decode_main : 0 ∉ textBytes "main" ∧ (packedBytes [] (textBytes "main")).length = 2 ∧
    unpackedBytes (packedBytes [] (textBytes "main")) = textBytes "main" := by
  have h : 0 ∉ textBytes "main" := by decide
  obtain ⟨hlength, hread, -, -⟩ := text_words_decode (textBytes "main") h
  exact ⟨h, hlength, hread⟩

end Shading.Spirv
