import Shading.CommandLine.Help
import Shading.CommandLine.Invocation
import Shading.CommandLine.OptionsFile
import Shading.Glsl.Source
import Shading.Json.Quote
import Shading.Location
import Shading.Snippet
import Shading.Spirv.Module
import Shading.Uniform

/-!
# Running a command line

What an invocation makes of the files it reads: what it writes where, what it says on the way, and
how it ends. -/
namespace Shading

def Uniform.json (us : List Uniform) : String :=
  let member := fun (key value : String) => s!"    {Json.quote key}: {value}"
  let object := fun (u : Uniform) => "  \x7b\n" ++ ",\n".intercalate
    [member "name" (Json.quote u.name), member "type_name" (Json.quote u.ty.name),
      member "offset" (toString u.offset),
     member "size" (toString u.size), member "alignment" (toString u.alignment)] ++ "\n  \x7d"
  if us.isEmpty then "[]" else "[\n" ++ ",\n".intercalate (us.map object) ++ "\n]"

namespace CommandLine

inductive Artifact where
  | text (text : String)
  | words (words : List UInt32)

def Artifact.size : Artifact → Nat
  | text s => s.utf8ByteSize
  | words ws => 4 * ws.length

inductive Failure where
  | unreadable (path : String)
  | unwritable (path : String)
  | badOptionsFile (path : String)
  | rejected (path : String) (errors : Nat)
  | notCompiled (error : CompileError)

def Failure.message : Failure → String
  | unreadable path => s!"failed to read '{path}'"
  | unwritable path => s!"failed to write '{path}'"
  | badOptionsFile path => s!"invalid options file '{path}'"
  | rejected path errors =>
    s!"could not compile '{path}' due to {errors} previous error" ++ (if errors = 1 then "" else "s")
  | notCompiled error => error.message

/-! ### Messages -/

def threshold : Nat → Level
  | 0 => .warn
  | 1 => .info
  | 2 => .debug
  | _ => .trace

def line (text : String) : String := text ++ "\n"

def logText (verbosity : Nat) (events : List Event) : String :=
  String.join ((events.filter fun e => e.level.rank ≤ (threshold verbosity).rank).map fun e => line e.line)

def stageKey : Stage → String
  | .lexical => "lexical" | .grammatical => "syntax" | .semantic => "semantic" | .capacity => "capacity"

def severityKey : Severity → String
  | .error => "error" | .warning => "warning"

def locationJson (l : Location) : String := s!"\x7b\"line\":{l.line},\"column\":{l.column}\x7d"

def diagnosticJson (path : String) (lines : LineTable) (d : Diagnostic) : String :=
  let fields := [("file", Json.quote path), ("kind", Json.quote (stageKey d.stage)),
    ("severity", Json.quote (severityKey d.severity)), ("message", Json.quote d.message),
    ("start", locationJson (lines.location d.span.start)), ("end", locationJson (lines.location d.span.stop))]
  "\x7b" ++ ",".intercalate (fields.map fun (key, value) => Json.quote key ++ ":" ++ value) ++ "\x7d"

def diagnosticText (format : MessageFormat) (path source : String) (ds : Diagnostics) : String :=
  match format with
  | .human => ds.snippets source path
  | .json =>
    let lines := LineTable.ofString source
    String.join (ds.toList.map fun d => line (diagnosticJson path lines d))

/-! ### Runs -/

structure Attempt where
  messages : String
  result : Except Failure Artifact

structure Outcome where
  exitCode : Nat
  messages : String
  output : Option Artifact := none
  written : Option (String × Artifact) := none

def Stop.outcome : Stop → Outcome
  | rejected =>
    { exitCode := 2, messages := line "error: the arguments are not understood" ++ "\n" ++ line Help.usage }
  | version => { exitCode := 0, messages := "", output := some (.text (line Help.versionText)) }
  | help full => { exitCode := 0, messages := "", output := some (.text (Help.text full)) }

namespace Invocation

def compile (i : Invocation) (options : CompileOptions) (source : String) : Compilation Artifact :=
  (Program.parse source i.kind options).andThen fun p =>
    match i.reflect, i.target with
    | some layout, _ =>
      let (uniforms, events) := p.uniforms layout
      ⟨.ok (.text (Uniform.json uniforms)), .uniformsListed uniforms.length :: events.reverse⟩
    | none, .glsl => (p.toGlsl i.api i.glslVersion).map .text
    | none, .spirv => (p.toSpirv i.spirvVersion).map fun m => .words m.words

def optionsFrom (i : Invocation) (config : Option String) : Except Failure CompileOptions :=
  match i.config, config with
  | none, _ => .ok (i.options {})
  | some path, none => .error (.unreadable path)
  | some path, some text => match CompileOptions.ofJson? text with
    | some given => .ok (i.options given)
    | none => .error (.badOptionsFile path)

/-- Runs an invocation up to its output, given what is in the source and in the options file; none
for what cannot be read. -/
def attempt (i : Invocation) (source config : Option String) : Attempt :=
  match source, i.optionsFrom config with
  | none, _ => ⟨"", .error (.unreadable i.input)⟩
  | some _, .error failure => ⟨"", .error failure⟩
  | some source, .ok options =>
    let c := i.compile options source
    let log := logText i.verbosity (.compilationStarted i.input i.kind :: c.journal.reverse)
    match c.result with
    | .ok artifact => ⟨log, .ok artifact⟩
    | .error (.failed ds) =>
      ⟨log ++ diagnosticText i.messageFormat i.input source ds, .error (.rejected i.input ds.errorCount)⟩
    | .error e => ⟨log, .error (.notCompiled e)⟩

def fail (messages : String) (failure : Failure) : Outcome :=
  { exitCode := 1, messages := messages ++ line ("error: " ++ failure.message) }

def finish (i : Invocation) (writable : String → Bool) (a : Attempt) : Outcome :=
  match a.result, i.output with
  | .error failure, _ => fail a.messages failure
  | .ok artifact, none => { exitCode := 0, messages := a.messages, output := some artifact }
  | .ok artifact, some path =>
    if writable path then
      { exitCode := 0, messages := a.messages ++ logText i.verbosity [.outputWritten artifact.size path],
        written := some (path, artifact) }
    else fail a.messages (.unwritable path)

end Invocation
end CommandLine
end Shading
