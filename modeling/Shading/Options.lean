/-!
# Compilation options

What a program is compiled for: the kind of program, the options that change the artifact but not
the language, and the versions of the two targets. -/
namespace Shading

/-- Options that change the artifact and not the accepted language. -/
structure CompileOptions where
  /-- Leave out all whitespace that GLSL does not need. -/
  minify : Bool := false
  /-- Write `highp` and `mediump` in GLSL. -/
  precisionQualifiers : Bool := false
  /-- Write `highp` where `mediump` would do. -/
  forceHighPrecision : Bool := false
  emitNames : Bool := true
deriving DecidableEq, Repr, Inhabited

inductive ShaderKind where
  | base
  | vertex
  | fragment
  | compute
deriving DecidableEq, Repr

namespace ShaderKind

def name : ShaderKind → String
  | base => "Base" | vertex => "Vertex" | fragment => "Fragment" | compute => "Compute"

def allowsUnsizedArrays : ShaderKind → Bool
  | base => false
  | vertex | fragment | compute => true

def requiresEntryPoint : ShaderKind → Bool
  | base => false
  | vertex | fragment | compute => true

end ShaderKind

inductive TargetApi where
  | openGl
  | openGlEs
  | vulkan
deriving DecidableEq, Repr

def TargetApi.name : TargetApi → String
  | openGl => "OpenGl" | openGlEs => "OpenGlEs" | vulkan => "Vulkan"

def isWhiteSpace (c : Char) : Bool :=
  let n := c.toNat
  (9 ≤ n && n ≤ 13) || n == 0x20 || n == 0x85 || n == 0xa0 || n == 0x1680 || (0x2000 ≤ n && n ≤ 0x200a)
    || n == 0x2028 || n == 0x2029 || n == 0x202f || n == 0x205f || n == 0x3000

def trimmed (cs : List Char) : List Char := ((cs.dropWhile isWhiteSpace).reverse.dropWhile isWhiteSpace).reverse

inductive GlslVersion where
  | v300es | v310es | v320es | v330 | v400 | v410 | v420 | v430 | v440 | v450 | v460
deriving DecidableEq, Repr

namespace GlslVersion

def all : List GlslVersion := [v300es, v310es, v320es, v330, v400, v410, v420, v430, v440, v450, v460]

def number : GlslVersion → Nat
  | v300es => 300 | v310es => 310 | v320es => 320 | v330 => 330 | v400 => 400 | v410 => 410 | v420 => 420
  | v430 => 430 | v440 => 440 | v450 => 450 | v460 => 460

def isEs : GlslVersion → Bool
  | v300es | v310es | v320es => true
  | _ => false

def isCore (v : GlslVersion) : Bool := !v.isEs

def directive (v : GlslVersion) : String :=
  if v.isEs then s!"#version {v.number} es" else s!"#version {v.number}"

/-- Reads `450`, `300es` or `300 es`, with white space around. -/
def ofText? (text : String) : Option GlslVersion :=
  let cs := trimmed text.toList
  let es := ['e', 's'].isSuffixOf cs
  let number := if es then trimmed (cs.take (cs.length - 2)) else cs
  all.find? fun v => v.isEs == es && (toString v.number).toList == number

end GlslVersion

inductive SpirvVersion where
  | v10 | v11 | v12 | v13 | v14 | v15 | v16
deriving DecidableEq, Repr

namespace SpirvVersion

def all : List SpirvVersion := [v10, v11, v12, v13, v14, v15, v16]

def major (_ : SpirvVersion) : Nat := 1

def minor : SpirvVersion → Nat
  | v10 => 0 | v11 => 1 | v12 => 2 | v13 => 3 | v14 => 4 | v15 => 5 | v16 => 6

def word (v : SpirvVersion) : UInt32 := UInt32.ofNat (v.major * 0x10000 + v.minor * 0x100)

def name (v : SpirvVersion) : String := s!"V{v.major}_{v.minor}"

/-- Reads `1.0` to `1.6`, with white space around. -/
def ofText? (text : String) : Option SpirvVersion :=
  all.find? fun v => s!"{v.major}.{v.minor}".toList == trimmed text.toList

def atLeast (v : SpirvVersion) (minor : Nat) : Bool := minor ≤ v.minor

end SpirvVersion
end Shading
