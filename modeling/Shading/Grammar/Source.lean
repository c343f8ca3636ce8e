import Shading.Grammar.Declaration
import Shading.Token.Scan

/-!
# Reading programs

From source text to a checked program, or to the problems it has. What can only be seen at the end
of the source, a missing `main` or body, is looked for only in a source that keeps to the
grammar. -/
namespace Shading

namespace Grammar

def checkEntryPoint (stop : Nat) : Parse Unit := do
  let s ← get
  let hasMain := s.elements.any fun
    | .definition f _ _ _ => (s.context.functionAt f).isMain
    | _ => false
  Check.reportIf (s.context.kind.requiresEntryPoint && !hasMain) .missingMain (.point stop)

def checkCalls (c : Context) (reported : List Nat) : List (Nat × Span) → Check Unit
  | [] => return ()
  | (f, span) :: more => do
    if (c.functionAt f).defined || reported.contains f then checkCalls c reported more
    else
      Check.report (.undefinedFunction (c.functionAt f).name) span
      checkCalls c (f :: reported) more

def program (parts : Parts) (stop : Nat) : Parse Unit := do
  declarations parts parts.fuel
  checkEntryPoint stop
  let s ← get
  lift (checkCalls s.context [] s.context.calls.reverse)

def partsFor (count : Nat) : Parts :=
  let fuel := count + 2
  ⟨expressions fuel, statements (expressions fuel) fuel fuel, fuel⟩

def start (words : List Word) (context : Context) : State :=
  match words with
  | [] => { front := ⟨.endOfFile, "", .point 0, []⟩, rest := [], context }
  | w :: ws => { front := w, rest := ws, context }

def finish (source : String) (kind : ShaderKind) (options : CompileOptions) : State :=
  let bytes := source.utf8ByteSize
  let words := Word.ofTokens (tokenize source)
  let context := Context.initial kind options
  let context := { context with journal := .readingStarted bytes kind :: context.journal }
  match (program (partsFor words.length) bytes).run (start words context) with
  | .ok _ s | .error _ s => s

end Grammar

def Program.read (source : String) (kind : ShaderKind) (options : CompileOptions) : Option Program × Journal :=
  let s := Grammar.finish source kind options
  let c := s.context
  if c.journal.hasProblems then (none, .readingFailed c.journal.reports.length :: c.journal)
  else
    (some { kind, options, types := c.types, «variables» := c.variables, functions := c.functions,
            scopes := c.scopes,
            elements := s.elements.reverse }, c.journal)

end Shading
