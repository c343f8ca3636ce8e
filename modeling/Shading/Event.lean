import Shading.Options
import Shading.Problem

/-!
# Events

What happens during a compilation, for those who want to follow it: each event has a level, the part
of the compiler it comes from, and a text. -/
namespace Shading

inductive Level where
  | error | warn | info | debug | trace
deriving DecidableEq, Repr

namespace Level

def name : Level → String
  | error => "ERROR" | warn => "WARN" | info => "INFO" | debug => "DEBUG" | trace => "TRACE"

def rank : Level → Nat
  | error => 0 | warn => 1 | info => 2 | debug => 3 | trace => 4

end Level

inductive Event where
  | builtinsMade (types functions : Nat)
  | sourceRejected (length : Nat)
  | readingStarted (bytes : Nat) (kind : ShaderKind)
  | readingFailed (errors : Nat)
  | functionDeclared (name : String) (ordinal : Nat)
  | problemFound (report : Report)
  | uniformTooLarge (name : String)
  | uniformTooFar (name : String)
  | uniformsListed (count : Nat)
  | glslStarted (version : GlslVersion) (api : TargetApi) (elements : Nat)
  | glslFinished (bytes : Nat)
  | spirvStarted (version : SpirvVersion) (kind : ShaderKind) (elements : Nat)
  | spirvFinished (words bound : Nat)
  | instructionShared (id : Nat)
  | structShared (name : String) (id : Nat)
  | structAdopted (name : String) (id : Nat)
  | functionStarted (name : String) (id : Nat)
  | statementSkipped (span : Span)
  | compilationStarted (path : String) (kind : ShaderKind)
  | outputWritten (bytes : Nat) (path : String)

namespace Event

def level : Event → Level
  | uniformTooLarge _ | uniformTooFar _ => .warn
  | compilationStarted .. | outputWritten .. => .info
  | sourceRejected _ | readingStarted .. | readingFailed _ | uniformsListed _ | glslStarted .. | glslFinished _
  | spirvStarted .. | spirvFinished .. => .debug
  | builtinsMade .. | functionDeclared .. | problemFound _ | instructionShared _ | structShared ..
  | structAdopted ..
  | functionStarted .. | statementSkipped _ => .trace

def origin : Event → String
  | builtinsMade .. => "aksl::builtins"
  | sourceRejected _ => "aksl::compiler"
  | readingStarted .. | readingFailed _ | functionDeclared .. => "aksl::parser"
  | problemFound _ => "aksl::diag"
  | uniformTooLarge _ | uniformTooFar _ => "aksl::program"
  | glslStarted .. | glslFinished _ => "aksl::codegen::glsl"
  | spirvStarted .. | spirvFinished .. | instructionShared _ | structShared .. | structAdopted .. =>
    "aksl::codegen::spirv"
  | functionStarted .. | statementSkipped _ => "aksl::codegen::spirv::function"
  | compilationStarted .. | outputWritten .. | uniformsListed _ => "akslc"

def stageName : Stage → String
  | .lexical => "Lexical" | .grammatical => "Syntax" | .semantic => "Semantic" | .capacity => "Capacity"

def text : Event → String
  | builtinsMade types functions => s!"Built the builtin module: {types} types, {functions} functions."
  | sourceRejected length => s!"Rejecting a source of {length} characters"
  | readingStarted bytes kind => s!"Parsing {bytes} bytes as a {kind.name} program"
  | readingFailed errors => s!"Parsing failed with {errors} error(s)"
  | functionDeclared name ordinal => s!"Declared function '{name}' as #{ordinal}"
  | problemFound r => s!"{stageName r.problem.stage} error at {r.span.text}: {r.problem.message}"
  | uniformTooLarge name => s!"Uniform '{name}' does not fit in a uniform block"
  | uniformTooFar name => s!"Uniform '{name}' ends past 4 GiB"
  | uniformsListed count => s!"Reflected {count} uniforms"
  | glslStarted version api elements => s!"Generating {version.directive} for {api.name} ({elements} elements)"
  | glslFinished bytes => s!"Generated {bytes} bytes of GLSL"
  | spirvStarted version kind elements =>
    s!"Generating SPIR-V {version.name} for a {kind.name} program ({elements} elements)"
  | spirvFinished words bound => s!"Generated {words} words of SPIR-V, id bound {bound}"
  | instructionShared id => s!"Instruction cache hit: {id}"
  | structShared name id => s!"Struct '{name}' reuses laid out id {id}"
  | structAdopted name id => s!"Struct '{name}' adopts layout-free id {id}"
  | functionStarted name id => s!"Generating function '{name}' as %{id}"
  | statementSkipped span => s!"Skipping unreachable statement at {span.dashed}"
  | compilationStarted path kind => s!"Compiling '{path}' as a {kind.name} program"
  | outputWritten bytes path => s!"Wrote {bytes} bytes to '{path}'"

def line (e : Event) : String := s!"[{e.level.name}] {e.origin}: {e.text}"

def report? : Event → Option Report
  | problemFound r => some r
  | _ => none

end Event

/-- Events of a compilation, the newest first. -/
abbrev Journal := List Event

namespace Journal

def reports (j : Journal) : List Report := j.foldl
    (fun found e => match e.report? with | some r => r :: found | none => found) []

def diagnostics (j : Journal) : Diagnostics := (j.reports.map Report.diagnostic).toArray

def hasProblems (j : Journal) : Bool := j.any fun e => e.report?.isSome

end Journal
end Shading
