import Shading.CommandLine.Invocation

/-!
# Help

What the command line says about itself. The short form gives each option two lines; the full form
sets options apart and lists their values on lines of their own. -/
namespace Shading.CommandLine.Help

def versionText : String := "akslc 0.1.0"

def usage : String := "Usage: akslc [OPTIONS] <INPUT>"

def about : String := "Compiles AkSL shaders to GLSL or SPIR-V"

def purpose (full : Bool) : OptionName → String
  | .setting .output => "Output path (default: stdout)"
  | .setting .target => "Output language"
  | .setting .kind => "Kind of program"
  | .setting .api => "API the generated GLSL is written for"
  | .setting .glslVersion =>
    "GLSL version, e.g. `450` or `300es` (default: 300es for OpenGL ES, otherwise 450)"
  | .setting .spirvVersion => "SPIR-V version, e.g. `1.3`"
  | .switch .minify => "Omit optional whitespace from generated GLSL"
  | .switch .precision => "Emit precision qualifiers in generated GLSL"
  | .switch .forceHighPrecision => "Use `highp` wherever a precision qualifier is emitted"
  | .setting .emitNames => "Whether to emit debug names in generated SPIR-V"
  | .setting .config => "JSON file with compile options; command-line flags take precedence"
  | .setting .reflect => "Print the default uniform block layout as JSON instead of compiling"
  | .setting .messageFormat => "Format of reported diagnostics"
  | .switch .verbose => "Increase logging verbosity; may be repeated"
  | .switch .help => if full then "Print help (see a summary with '-h')" else "Print help (see more with '--help')"
  | .switch .version => "Print version"

def default? : Setting → Option String
  | .target => some "glsl"
  | .kind => some "fragment"
  | .api => some "opengl"
  | .spirvVersion => some "1.0"
  | .messageFormat => some "human"
  | _ => none

def choices : Setting → List String
  | .target => ["glsl", "spirv"]
  | .kind => ["vertex", "fragment", "compute", "library"]
  | .api => ["opengl", "opengl-es", "vulkan"]
  | .emitNames => ["true", "false"]
  | .reflect => ["std140", "std430"]
  | .messageFormat => ["human", "json"]
  | _ => []

def meanings : Setting → List String
  | .messageFormat => ["- human: Rendered with source snippets", "- json:  One JSON object per diagnostic"]
  | _ => []

def valueName (s : Setting) : String :=
  String.ofList ((OptionName.setting s).long.toList.map fun c => if c == '-' then '_' else c.toUpper)

def head (o : OptionName) : String :=
  let letter := match o.letter? with
    | some c => s!"  -{c}, "
    | none => "      "
  letter ++ "--" ++ o.long ++ match o with
    | .setting s => s!" <{valueName s}>"
    | .switch .verbose => "..."
    | .switch _ => ""

/-- The remarks on the values of an option; the full form explains values instead of naming them
where it can. -/
def remarks (full : Bool) : OptionName → List String
  | .switch _ => []
  | .setting s =>
    ((default? s).map fun v => s!"[default: {v}]").toList
      ++ (if (choices s).isEmpty || (full && !(meanings s).isEmpty) then []
        else ["[possible values: " ++ ", ".intercalate (choices s) ++ "]"])

def margin : String := "          "

def below (lines : List String) : String := ("\n" ++ margin).intercalate lines

def explanation (full : Bool) (o : OptionName) : String :=
  if !full then " ".intercalate (purpose full o :: remarks full o)
  else
    let remarks := remarks full o
    let values := match o with
      | .setting s => meanings s
      | .switch _ => []
    below (purpose full o :: (if remarks.isEmpty then [] else "" :: remarks))
      ++ (if values.isEmpty then "" else s!"\n\n{margin}" ++ below ("Possible values:" :: values))

def option (full : Bool) (o : OptionName) : String := s!"{head o}\n{margin}{explanation full o}"

def text (full : Bool) : String :=
  let operand := if full then s!"  <INPUT>\n{margin}Input AkSL file" else "  <INPUT>  Input AkSL file"
  let options := (if full then "\n\n" else "\n").intercalate (OptionName.all.map (option full))
  s!"{about}\n\n{usage}\n\nArguments:\n{operand}\n\nOptions:\n{options}\n"

end Shading.CommandLine.Help
