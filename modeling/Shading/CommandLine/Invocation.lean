import Shading.Memory.Layout
import Shading.Options

/-!
# Invocations

What the words of a command line ask for. Options may stand before, between and after the operand; a
value stands in the next word, or in the same one after `=`, or right after a short option. A word
that starts with a dash is never the value of the option before it. Every option but `-v` may be
given once. -/
namespace Shading.CommandLine

inductive OutputLanguage where
  | glsl
  | spirv
deriving DecidableEq, Repr

inductive MessageFormat where
  | human
  | json
deriving DecidableEq, Repr

inductive Switch where
  | minify | precision | forceHighPrecision | verbose
  | help | version
deriving DecidableEq, Repr

inductive Setting where
  | output | target | kind | api | glslVersion | spirvVersion | emitNames | config | reflect | messageFormat
deriving DecidableEq, Repr

inductive OptionName where
  | switch (s : Switch)
  | setting (s : Setting)
deriving DecidableEq, Repr

namespace OptionName

def all : List OptionName :=
  [.setting .output, .setting .target, .setting .kind, .setting .api, .setting .glslVersion,
    .setting .spirvVersion,
   .switch .minify, .switch .precision, .switch .forceHighPrecision, .setting .emitNames, .setting .config,
   .setting .reflect, .setting .messageFormat, .switch .verbose, .switch .help, .switch .version]

def long : OptionName → String
  | .switch .minify => "minify"
  | .switch .precision => "precision"
  | .switch .forceHighPrecision => "force-high-precision"
  | .switch .verbose => "verbose"
  | .switch .help => "help"
  | .switch .version => "version"
  | .setting .output => "output"
  | .setting .target => "target"
  | .setting .kind => "kind"
  | .setting .api => "api"
  | .setting .glslVersion => "glsl-version"
  | .setting .spirvVersion => "spirv-version"
  | .setting .emitNames => "emit-names"
  | .setting .config => "config"
  | .setting .reflect => "reflect"
  | .setting .messageFormat => "message-format"

def letter? : OptionName → Option Char
  | .setting .output => some 'o'
  | .setting .target => some 't'
  | .setting .kind => some 'k'
  | .switch .verbose => some 'v'
  | .switch .help => some 'h'
  | .switch .version => some 'V'
  | _ => none

def ofLong? (name : String) : Option OptionName := all.find? fun o => o.long == name

def ofLetter? (c : Char) : Option OptionName := all.find? fun o => o.letter? == some c

end OptionName

/-- Why a command line is not read to its end. -/
inductive Stop where
  | rejected
  | version
  | help (full : Bool)
deriving DecidableEq, Repr

structure Draft where
  input : Option String := none
  output : Option String := none
  target : Option OutputLanguage := none
  kind : Option ShaderKind := none
  api : Option TargetApi := none
  glslVersion : Option GlslVersion := none
  spirvVersion : Option SpirvVersion := none
  minify : Bool := false
  precision : Bool := false
  forceHighPrecision : Bool := false
  emitNames : Option Bool := none
  config : Option String := none
  reflect : Option MemoryLayout := none
  messageFormat : Option MessageFormat := none
  verbosity : Nat := 0

def assign {α : Type} (old new : Option α) : Except Stop (Option α) :=
  if old.isSome || new.isNone then .error .rejected else .ok new

def path? (value : String) : Option String := if value.isEmpty then none else some value

def target? : String → Option OutputLanguage
  | "glsl" => some .glsl
  | "spirv" => some .spirv
  | _ => none

def kind? : String → Option ShaderKind
  | "vertex" => some .vertex
  | "fragment" => some .fragment
  | "compute" => some .compute
  | "library" => some .base
  | _ => none

def api? : String → Option TargetApi
  | "opengl" => some .openGl
  | "opengl-es" => some .openGlEs
  | "vulkan" => some .vulkan
  | _ => none

def bool? : String → Option Bool
  | "true" => some true
  | "false" => some false
  | _ => none

def layout? : String → Option MemoryLayout
  | "std140" => some .std140
  | "std430" => some .std430
  | _ => none

def messageFormat? : String → Option MessageFormat
  | "human" => some .human
  | "json" => some .json
  | _ => none

namespace Draft

def set (d : Draft) (s : Setting) (value : String) : Except Stop Draft := do
  match s with
  | .output => return { d with output := ← assign d.output (path? value) }
  | .target => return { d with target := ← assign d.target (target? value) }
  | .kind => return { d with kind := ← assign d.kind (kind? value) }
  | .api => return { d with api := ← assign d.api (api? value) }
  | .glslVersion => return { d with glslVersion := ← assign d.glslVersion (GlslVersion.ofText? value) }
  | .spirvVersion => return { d with spirvVersion := ← assign d.spirvVersion (SpirvVersion.ofText? value) }
  | .emitNames => return { d with emitNames := ← assign d.emitNames (bool? value) }
  | .config => return { d with config := ← assign d.config (path? value) }
  | .reflect => return { d with reflect := ← assign d.reflect (layout? value) }
  | .messageFormat => return { d with messageFormat := ← assign d.messageFormat (messageFormat? value) }

def turnOn (d : Draft) (full : Bool) : Switch → Except Stop Draft
  | .minify => if d.minify then .error .rejected else .ok { d with minify := true }
  | .precision => if d.precision then .error .rejected else .ok { d with precision := true }
  | .forceHighPrecision =>
    if d.forceHighPrecision then .error .rejected else .ok { d with forceHighPrecision := true }
  | .verbose => .ok { d with verbosity := d.verbosity + 1 }
  | .help => .error (.help full)
  | .version => .error .version

def addOperand (d : Draft) (word : String) : Except Stop Draft := do
  return { d with input := ← assign d.input (path? word) }

/-- Reads letters of options in one word; a setting takes the rest of the word as its value, or
waits for the next word. -/
def readLetters (d : Draft) : List Char → Except Stop (Draft × Option Setting)
  | [] => .ok (d, none)
  | c :: rest => match OptionName.ofLetter? c with
    | none => .error .rejected
    | some (.switch s) => do (← d.turnOn false s).readLetters rest
    | some (.setting s) => match rest with
      | [] => .ok (d, some s)
      | '=' :: value => do return (← d.set s (String.ofList value), none)
      | value => do return (← d.set s (String.ofList value), none)

def readLong (d : Draft) (word : List Char) : Except Stop (Draft × Option Setting) :=
  match OptionName.ofLong? (String.ofList (word.takeWhile (· != '='))), word.dropWhile (· != '=') with
  | none, _ => .error .rejected
  | some (.switch s), [] => do return (← d.turnOn true s, none)
  | some (.switch _), _ :: _ => .error .rejected
  | some (.setting s), [] => .ok (d, some s)
  | some (.setting s), _ :: value => do return (← d.set s (String.ofList value), none)

def readWord (d : Draft) (word : String) : Except Stop (Draft × Option Setting) :=
  match word.toList with
  | '-' :: '-' :: rest => d.readLong rest
  | '-' :: c :: rest => d.readLetters (c :: rest)
  | _ => do return (← d.addOperand word, none)

def isValue (word : String) : Bool := word == "-" || word.toList.head? != some '-'

/-- Reads the words of a command line. A setting may wait for its value; after `--` there are only
operands. -/
def read (d : Draft) (waiting : Option Setting) : List String → Except Stop Draft
  | [] => if waiting.isSome then .error .rejected else .ok d
  | word :: rest => match waiting with
    | some s => if isValue word then do (← d.set s word).read none rest else .error .rejected
    | none =>
      if word == "--" then rest.foldlM addOperand d
      else do
        let (d, waiting) ← d.readWord word
        d.read waiting rest

end Draft

structure Invocation where
  input : String
  /-- Without a path the output goes to standard output. -/
  output : Option String
  target : OutputLanguage
  kind : ShaderKind
  api : TargetApi
  glslVersion : GlslVersion
  spirvVersion : SpirvVersion
  minify : Bool
  precision : Bool
  forceHighPrecision : Bool
  emitNames : Option Bool
  config : Option String
  /-- List the loose uniforms in this layout instead of compiling. -/
  reflect : Option MemoryLayout
  messageFormat : MessageFormat
  verbosity : Nat

namespace Invocation

def defaultVersion : TargetApi → GlslVersion
  | .openGlEs => .v300es
  | .openGl | .vulkan => .v450

def ofDraft (d : Draft) (input : String) : Invocation :=
  let api := d.api.getD .openGl
  { input, output := d.output, target := d.target.getD .glsl, kind := d.kind.getD .fragment, api,
    glslVersion := d.glslVersion.getD (defaultVersion api), spirvVersion := d.spirvVersion.getD .v10,
    minify := d.minify, precision := d.precision, forceHighPrecision := d.forceHighPrecision,
      emitNames := d.emitNames,
    config := d.config, reflect := d.reflect, messageFormat := d.messageFormat.getD .human,
      verbosity := d.verbosity }

def ofWords (words : List String) : Except Stop Invocation := do
  let d ← Draft.read {} none words
  match d.input with
  | some input => return ofDraft d input
  | none => throw .rejected

def options (i : Invocation) (given : CompileOptions) : CompileOptions :=
  { minify := given.minify || i.minify
    precisionQualifiers := given.precisionQualifiers || i.precision
    forceHighPrecision := given.forceHighPrecision || i.forceHighPrecision
    emitNames := i.emitNames.getD given.emitNames }

end Invocation
end Shading.CommandLine
