import Shading.CommandLine.Folder
import Shading.Main
import Shading.Proofs.Check.Resolution
import Shading.Proofs.CommandLine.Lines
import Shading.Proofs.Glsl.IntegerLiteral
import Shading.Proofs.Glsl.Style
import Shading.Proofs.Memory.Uniforms
import Shading.Proofs.Place.Spans
import Shading.Proofs.Scope.Table
import Shading.Proofs.Spirv.Cache
import Shading.Proofs.Spirv.ConstructedValues
import Shading.Proofs.Spirv.DebugNames
import Shading.Proofs.Spirv.Framing
import Shading.Proofs.Spirv.Remainder
import Shading.Proofs.Spirv.SingleAssignment
import Shading.Proofs.Spirv.TextWords
import Shading.Proofs.Typing.Poison
