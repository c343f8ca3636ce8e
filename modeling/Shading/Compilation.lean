import Shading.Grammar.Source

/-!
# Compilations

What comes of compiling a source: a result or the reason why there is none, and in any case the
journal. -/
namespace Shading

inductive CompileError where
  | sourceTooLarge (length : Nat)
  | tooManyWords (count : Nat)
  | failed (diagnostics : Diagnostics)

namespace CompileError

def maxSourceLength : Nat := 0x7ffffe

def message : CompileError → String
  | sourceTooLarge length => s!"source is too large: {length} characters, the maximum is {maxSourceLength}"
  | tooManyWords count => s!"too many words in a single instruction: {count}"
  | failed diagnostics => "compilation failed:\n" ++ diagnostics.text

def diagnostics? : CompileError → Option Diagnostics
  | failed diagnostics => some diagnostics
  | _ => none

end CompileError

/-- The outcome of a compilation; the journal is newest first. -/
structure Compilation (α : Type) where
  result : Except CompileError α
  journal : Journal

namespace Compilation

def andThen {α β : Type} (c : Compilation α) (f : α → Compilation β) : Compilation β :=
  match c.result with
  | .ok a => let d := f a; ⟨d.result, d.journal ++ c.journal⟩
  | .error e => ⟨.error e, c.journal⟩

def map {α β : Type} (f : α → β) (c : Compilation α) : Compilation β := ⟨c.result.map f, c.journal⟩

end Compilation

/-- Reads and checks a source. Too long a source is not looked at. -/
def Program.parse (source : String) (kind : ShaderKind) (options : CompileOptions) : Compilation Program :=
  let length := source.length
  if CompileError.maxSourceLength < length then ⟨.error (.sourceTooLarge length), [.sourceRejected length]⟩
  else match Program.read source kind options with
    | (some program, journal) => ⟨.ok program, journal⟩
    | (none, journal) => ⟨.error (.failed journal.diagnostics), journal⟩

end Shading
