import Shading.Proofs.Spirv.Trace

/-! The words of a module can be read: they tell the instructions that have been written, and
nothing else. -/
namespace Shading

namespace Spirv

namespace Module

variable {m : Module}

lemma take_words (m : Module) : m.words.take 5 = m.header :=
    (List.take_left : (m.header ++ _).take m.header.length = _)

lemma drop_words (m : Module) : m.words.drop 5 = m.code.words.reverse :=
  (List.drop_left : (m.header ++ _).drop m.header.length = _)

end Module

end Spirv

namespace Program

open Spirv (Builder Build Trace Instruction Module WordBuffer)

variable {p : Program} {version : SpirvVersion}

/-- Everything that is written for a program can be read from the words of its module. A reader who
starts after the five words of the header and goes on by the length that each first word tells finds
the first instructions, the names, the decorations, the types, constants and global variables, and
the functions, each of them whole, and ends where the module ends. A program without problems has no
module only if something that is written for it has more words than a length can tell. -/
theorem words_framed {source : String} {kind : ShaderKind} {options : CompileOptions}
    (hp : (Program.parse source kind options).result = .ok p) :
    ∃ tr : Trace, (p.start version).Run tr (p.written version) ∧
    (∀ m, (p.toSpirv version).result = .ok m → m.words.take 5 = m.header ∧
      ∃ functions : List Instruction, functions.Perm (tr.on .functions) ∧
        let written := (p.written version).preamble p ++ tr.on .names ++ tr.on .decorations ++
        tr.on .globals ++ functions
        Spirv.cut (m.words.drop 5) = some (written.map Instruction.words) ∧
        Spirv.readWords (m.words.drop 5) = some (written.map Instruction.content)) ∧
    ((p.written version).journal.hasProblems = false →
      ((∃ count, (p.toSpirv version).result = .error (.tooManyWords count)) ↔
        ∃ i ∈ (p.written version).preamble p ++ tr.map (·.2), 0xffff < i.size)) := by
  obtain ⟨tr, hrun, hbody⟩ := exists_run (sound_of_parse hp) version
  obtain ⟨functions, hfunctions, hinstructions⟩ := hrun.instructions_module hbody ⟨p, version⟩
  have hcode := hrun.code_module ⟨p, version⟩
  have hsizes : ((p.written version).module ⟨p, version⟩).code.oversized = none ↔
      ∀ i ∈ ((p.written version).module ⟨p, version⟩).instructions, i.size ≤ Instruction.maxSize := by
    rw [hcode, WordBuffer.oversized_writeAll_eq_none_iff, and_iff_right rfl]
  refine ⟨tr, hrun, fun m hm => ⟨m.take_words, functions, hfunctions, ?_⟩, fun hproblems => ?_⟩
  · obtain ⟨-, hsize, rfl⟩ := toSpirv_eq_ok_iff.mp hm
    have hwords : ((p.written version).module ⟨p, version⟩).words.drop 5 =
        ((p.written version).module ⟨p, version⟩).instructions.flatMap Instruction.words := by
      rw [Module.drop_words, hcode, WordBuffer.words_writeAll]
      rfl
    rw [hwords, Spirv.cut_flatMap_words (hsizes.mp hsize),
      Spirv.readWords_flatMap_words (hsizes.mp hsize), hinstructions]
    exact ⟨rfl, rfl⟩
  · have hmem (i : Instruction) : i ∈ ((p.written version).module ⟨p, version⟩).instructions ↔
        i ∈ (p.written version).preamble p ++ tr.map (·.2) := by
      simp only [hinstructions, List.mem_append, Trace.mem_map_snd, hfunctions.mem_iff, or_assoc]
    have hnone := not_congr hsizes
    rw [← ne_eq, Option.ne_none_iff_exists'] at hnone
    simp only [toSpirv_eq_tooManyWords_iff, hproblems, true_and, hnone, hmem, not_forall, not_le, exists_prop]
    rfl

/-- A function with a variable, and a struct with a name. -/
theorem words_framed_struct : ∃ p m tr, (Program.parse
      "struct A { ivec2 v; }; A a; int f(int x) { int y = x; return y; } void main() { a.v.x = f(1); }"
      .fragment {}).result = .ok p ∧ (p.toSpirv .v10).result = .ok m ∧
      (m.words.length, m.instructions.length) = (163, 45) ∧
    (p.start .v10).Run tr (p.written .v10) ∧ (∃ functions : List Instruction, functions.Perm (tr.on .functions) ∧
      Spirv.readWords (m.words.drop 5) = some
      (((p.written .v10).preamble p ++ tr.on .names ++ tr.on .decorations ++ tr.on .globals
        ++ functions).map Instruction.content)) ∧
    ∀ i ∈ (p.written .v10).preamble p ++ tr.map (·.2), i.size ≤ 0xffff := by
  have hwritten : ∃ p m, (Program.parse
      "struct A { ivec2 v; }; A a; int f(int x) { int y = x; return y; } void main() { a.v.x = f(1); }"
      .fragment {}).result = .ok p ∧ (p.toSpirv .v10).result = .ok m ∧
        (m.words.length, m.instructions.length) = (163, 45) :=
    exists_written (by decide +kernel)
  obtain ⟨p, m, hp, hm, hsizes⟩ := hwritten
  obtain ⟨tr, hrun, hread, hlong⟩ := @words_framed p .v10 _ _ _ hp
  obtain ⟨-, functions, hfunctions, -, hread⟩ := hread m hm
  refine ⟨p, m, tr, hp, hm, hsizes, hrun, ⟨functions, hfunctions, hread⟩, fun i hi => Nat.not_lt.mp fun hlt => ?_⟩
  obtain ⟨count, herror⟩ := (hlong (toSpirv_eq_ok_iff.mp hm).1).mpr ⟨i, hi, hlt⟩
  cases hm.symm.trans herror

end Program
end Shading
