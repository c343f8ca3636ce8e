import Shading.Compilation
import Shading.Glsl.Statement

/-!
# GLSL sources

A whole program in GLSL. Variables and fields that stand for pipeline variables are not declared,
since GLSL knows them by itself. -/
namespace Shading
namespace Glsl

def fieldLines (t : Target) (inBlock : Bool) (fields : List (Field Ty)) : List Piece :=
  (fields.filter fun f => !f.modifiers.isBuiltin).flatMap fun f =>
    [.newline, .indent 1] ++ (if inBlock then t.modifiers f.modifiers else []) ++ t.precision f.ty
      ++ [baseType f.ty, .blank, .lexeme f.name] ++ dimensions f.ty ++ [.lexeme ";"]

def parameterName (t : Target) : Option Nat → List Piece
  | none => []
  | some n =>
    let name := (t.program.variableAt n).name
    if name.isEmpty then [] else [.blank, .lexeme name]

def parameter (t : Target) (p : Parameter) (number : Option Nat) : List Piece :=
  Target.parameterModifiers p.modifiers ++ t.precision p.ty ++ [baseType p.ty] ++ parameterName t number
    ++ dimensions p.ty

def signature (t : Target) (function : Nat) (numbers : List Nat) : List Piece :=
  let f := t.program.functionAt function
  t.precision f.returns ++ wholeType f.returns ++ [.blank, .lexeme (t.functionName function)]
    ++ parenthesized (separated (f.parameters.mapIdx fun i p => parameter t p numbers[i]?))

/-- An interface block, unless it holds nothing but pipeline variables. -/
def interfaceBlock (t : Target) (v : Variable) : List Piece :=
  let block := v.ty.leaf
  let fields := block.fields?.getD []
  if fields.all (·.modifiers.isBuiltin) then []
  else
    t.modifiers v.modifiers ++ [.lexeme block.name, .gap] ++ braced 0 (fieldLines t true fields)
      ++ (if v.name.isEmpty then [] else [.blank, .lexeme v.name] ++ dimensions v.ty) ++ [.lexeme ";", .newline]

def functionBody (t : Target) : Stmt → List Piece
  | .block _ body _ => braced 0 (lines t 1 body)
  | s => braced 0 (lines t 1 [s])

def element (t : Target) : Element → List Piece
  | .struct ty _ =>
    word "struct" ++ [.lexeme ty.name, .gap] ++ braced 0 (fieldLines t false (ty.fields?.getD []))
      ++ [.lexeme ";", .newline]
  | .block n _ => interfaceBlock t (t.program.variableAt n)
  | .global n init _ =>
    if (t.program.variableAt n).modifiers.isBuiltin then []
    else declaration t [(n, init)] ++ [.lexeme ";", .newline]
  | .prototype f _ => signature t f [] ++ [.lexeme ";", .newline]
  | .definition f numbers body _ => signature t f numbers ++ [.gap] ++ functionBody t body ++ [.newline]

/-- The precision of plain `float`, which profiles for embedded systems leave open. -/
def defaultPrecision (t : Target) : List Piece :=
  if t.version.isEs && t.program.options.precisionQualifiers then
    word "precision" ++ word "mediump" ++ [.lexeme "float", .lexeme ";", .newline]
  else []

def pieces (t : Target) : List Piece := defaultPrecision t ++ t.program.elements.flatMap (element t)

def text (t : Target) : String :=
  layOut t.program.options.minify (t.version.directive ++ "\n") (pieces t)

end Glsl

def Program.toGlsl (p : Program) (api : TargetApi) (version : GlslVersion) : Compilation String :=
  let t : Glsl.Target := ⟨p, api, version⟩
  let started := Event.glslStarted version api p.elements.length
  match (Glsl.pieces t).filterMap Glsl.Piece.report? with
  | [] => let text := Glsl.text t; ⟨.ok text, [.glslFinished text.utf8ByteSize, started]⟩
  | reports =>
    let journal := (reports.map Event.problemFound).reverse ++ [started]
    ⟨.error (.failed (Journal.diagnostics journal)), journal⟩

end Shading
