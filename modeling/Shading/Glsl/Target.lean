import Shading.Glsl.Piece
import Shading.Program

/-!
# Names in GLSL

How types, functions and modifiers are spelled. Types of relaxed precision have the names of the
full ones; a function of the program gets its number into its name, so that overloads stay apart. -/
namespace Shading

namespace Scalar

def glslName (s : Scalar) : String :=
  match s.kind with
  | .float => "float" | .signed => "int" | .unsigned => "uint" | .boolean => "bool"

def glslLetter (s : Scalar) : String :=
  match s.kind with
  | .float => "" | .signed => "i" | .unsigned => "u" | .boolean => "b"

end Scalar

def Ty.glslName : Ty → String
  | .scalar s => s.glslName
  | .vector s n => s!"{s.glslLetter}vec{n.toNat}"
  | .matrix _ c r => if c = r then s!"mat{c.toNat}" else s!"mat{c.toNat}x{r.toNat}"
  | .array e n => arrayName e.glslName n
  | ty => ty.name

namespace Glsl

structure Target where
  program : Program
  api : TargetApi
  version : GlslVersion

def dimensions : Ty → List Piece
  | .array e (some n) => [.lexeme "[", .lexeme (toString n), .lexeme "]"] ++ dimensions e
  | .array e none => [.lexeme "[", .lexeme "]"] ++ dimensions e
  | _ => []

def baseType (ty : Ty) : Piece := .lexeme ty.leaf.glslName

def wholeType (ty : Ty) : List Piece := baseType ty :: dimensions ty

def word (text : String) : List Piece := [.lexeme text, .blank]

namespace Target

def precision (t : Target) (ty : Ty) : List Piece :=
  let options := t.program.options
  match ty.leaf.scalar? with
  | some s =>
    if !options.precisionQualifiers || s.kind = .boolean then []
    else if s.isRelaxed && !options.forceHighPrecision then word "mediump"
    else word "highp"
  | none => []

def functionName (t : Target) (number : Nat) : String :=
  let f := t.program.functionAt number
  if f.isMain || f.intrinsic.isSome then f.name else s!"_{f.name}_{f.ordinal}"

def lacksFma (t : Target) : Bool :=
  if t.version.isEs then t.version.number < 320 else t.version.number < 400

/-- The name of a pipeline variable. A number without one is a problem, and the name in the program
stands instead. -/
def pipelineName (number : Nat) (otherwise : String) (span : Span) : List Piece :=
  match PipelineVariable.glslName? number with
  | some name => [.lexeme name]
  | none => [.problem ⟨.namelessPipelineVariable number, span⟩, .lexeme otherwise]

def layoutNumber (key : LayoutKey) (value : Nat) : List Piece :=
  [.lexeme key.keyword, .gap, .lexeme "=", .gap, .lexeme (toString value)]

def knowsKey (t : Target) : LayoutKey → Bool
  | .builtin => false
  | .set | .inputAttachmentIndex => t.api = .vulkan
  | _ => true

def knowsFlag (t : Target) (f : LayoutFlag) : Bool := t.api = .vulkan || f != .pushConstant

def layout (t : Target) (l : LayoutSpec) : List Piece :=
  let flags := (l.flags.toList.filter t.knowsFlag).map fun f => [Piece.lexeme f.keyword]
  let numbers := (l.numbers.filter fun (k, _) => t.knowsKey k).map fun (k, n) => layoutNumber k n
  if flags.isEmpty && numbers.isEmpty then []
  else .lexeme "layout" :: parenthesized (separated (flags ++ numbers)) ++ [.blank]

def words (flags : Qualifiers) (names : List (Qualifier × String)) : List Piece :=
  names.flatMap fun (q, name) => if flags.contains q then word name else []

def leadingNames : List (Qualifier × String) :=
  [(.flat, "flat"), (.noperspective, "noperspective"), (.smooth, "smooth"), (.coherent, "coherent"),
   (.volatile, "volatile"), (.restrict, "restrict"), (.readonly, "readonly"),
     (.writeonly, "writeonly"), (.const, "const")]

def storageNames : List (Qualifier × String) :=
  [(.input, "in"), (.output, "out"), (.uniform, "uniform"), (.buffer, "buffer"), (.workgroup, "shared")]

def modifiers (t : Target) (m : Modifiers) : List Piece :=
  t.layout m.layout ++ words m.flags leadingNames ++ words m.flags storageNames

def parameterModifiers (m : Modifiers) : List Piece :=
  let direction :=
    if m.has .input && m.has .output then word "inout"
    else if m.has .output then word "out"
    else if m.has .input then word "in"
    else []
  words m.flags leadingNames ++ direction

end Target
end Glsl
end Shading
