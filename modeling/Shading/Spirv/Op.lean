/-!
# Numbers of SPIR-V

The operations and enumerations of SPIR-V that modules use, with the numbers they have there.
-/
namespace Shading.Spirv

inductive Op where
  | name | memberName | extension | extInstImport | extInst | memoryModel | entryPoint
    | executionMode | capability
  | typeVoid | typeBool | typeInt | typeFloat | typeVector | typeMatrix | typeArray
    | typeRuntimeArray | typeStruct
  | typePointer | typeFunction | constantTrue | constantFalse | constant | constantComposite | function
  | functionParameter | functionEnd | functionCall | variable_ | load | store | accessChain | decorate
  | memberDecorate | vectorExtractDynamic | vectorShuffle | compositeConstruct | compositeExtract
    | compositeInsert
  | convertFToU | convertFToS | convertSToF | convertUToF | bitcast | sNegate | fNegate | iAdd
    | fAdd | iSub | fSub
  | iMul | fMul | uDiv | sDiv | fDiv | uMod | sMod | fMod | vectorTimesScalar | matrixTimesScalar
    | vectorTimesMatrix
  | matrixTimesVector | matrixTimesMatrix | dot | any | all | logicalEqual | logicalNotEqual
    | logicalOr | logicalAnd
  | logicalNot | select | iEqual | iNotEqual | uGreaterThan | sGreaterThan | uGreaterThanEqual | sGreaterThanEqual
  | uLessThan | sLessThan | uLessThanEqual | sLessThanEqual | fOrdEqual | fUnordNotEqual | fOrdLessThan
  | fOrdGreaterThan | fOrdLessThanEqual | fOrdGreaterThanEqual | shiftRightLogical | shiftRightArithmetic
  | shiftLeftLogical | bitwiseOr | bitwiseXor | bitwiseAnd | not | phi | loopMerge | selectionMerge
    | label | branch
  | branchConditional | switch | kill | return_ | returnValue | unreachable
deriving DecidableEq

def Op.code : Op → UInt32
  | .name => 5 | .memberName => 6 | .extension => 10 | .extInstImport => 11 | .extInst => 12 | .memoryModel => 14
  | .entryPoint =>
    15 | .executionMode => 16 | .capability => 17 | .typeVoid => 19 | .typeBool => 20 | .typeInt => 21
  | .typeFloat => 22 | .typeVector => 23 | .typeMatrix => 24 | .typeArray => 28 | .typeRuntimeArray => 29
  | .typeStruct => 30 | .typePointer => 32 | .typeFunction => 33 | .constantTrue => 41 | .constantFalse => 42
  | .constant => 43 | .constantComposite => 44 | .function => 54 | .functionParameter => 55 | .functionEnd => 56
  | .functionCall => 57 | .variable_ => 59 | .load => 61 | .store => 62 | .accessChain => 65 | .decorate => 71
  | .memberDecorate => 72 | .vectorExtractDynamic => 77 | .vectorShuffle => 79 | .compositeConstruct => 80
  | .compositeExtract =>
    81 | .compositeInsert => 82 | .convertFToU => 109 | .convertFToS => 110 | .convertSToF => 111
  | .convertUToF => 112 | .bitcast => 124 | .sNegate => 126 | .fNegate => 127 | .iAdd => 128 | .fAdd => 129
  | .iSub => 130 | .fSub => 131 | .iMul => 132 | .fMul => 133 | .uDiv => 134 | .sDiv => 135 | .fDiv => 136
  | .uMod => 137 | .sMod => 139 | .fMod => 141 | .vectorTimesScalar => 142 | .matrixTimesScalar => 143
  | .vectorTimesMatrix => 144 | .matrixTimesVector => 145 | .matrixTimesMatrix => 146 | .dot => 148 | .any => 154
  | .all => 155 | .logicalEqual => 164 | .logicalNotEqual => 165 | .logicalOr => 166 | .logicalAnd => 167
  | .logicalNot => 168 | .select => 169 | .iEqual => 170 | .iNotEqual => 171 | .uGreaterThan => 172
  | .sGreaterThan => 173 | .uGreaterThanEqual => 174 | .sGreaterThanEqual => 175 | .uLessThan => 176
  | .sLessThan =>
    177 | .uLessThanEqual => 178 | .sLessThanEqual => 179 | .fOrdEqual => 180 | .fUnordNotEqual => 183
  | .fOrdLessThan => 184 | .fOrdGreaterThan => 186 | .fOrdLessThanEqual => 188 | .fOrdGreaterThanEqual => 190
  | .shiftRightLogical => 194 | .shiftRightArithmetic => 195 | .shiftLeftLogical => 196 | .bitwiseOr => 197
  | .bitwiseXor =>
    198 | .bitwiseAnd => 199 | .not => 200 | .phi => 245 | .loopMerge => 246 | .selectionMerge => 247
  | .label => 248 | .branch => 249 | .branchConditional => 250 | .switch => 251 | .kill => 252 | .return_ => 253
  | .returnValue => 254 | .unreachable => 255

/-- The functions of the extended instruction set `GLSL.std.450`. -/
inductive MathOp where
  | fAbs | sAbs | fSign | sSign | floor | ceil | fract | sin | cos | tan | pow | exp | log | exp2 | log2 | sqrt
  | inverseSqrt | fMin | uMin | sMin | fMax | uMax | sMax | fClamp | uClamp | sClamp | fMix | step
    | smoothStep | fma
  | length | distance | cross | normalize | reflect
deriving DecidableEq

def MathOp.code : MathOp → UInt32
  | .fAbs => 4 | .sAbs => 5 | .fSign => 6 | .sSign => 7 | .floor => 8 | .ceil => 9 | .fract => 10 | .sin => 13
  | .cos => 14 | .tan => 15 | .pow => 26 | .exp => 27 | .log => 28 | .exp2 => 29 | .log2 => 30 | .sqrt => 31
  | .inverseSqrt => 32 | .fMin => 37 | .uMin => 38 | .sMin => 39 | .fMax => 40 | .uMax => 41 | .sMax => 42
  | .fClamp => 43 | .uClamp => 44 | .sClamp => 45 | .fMix => 46 | .step => 48 | .smoothStep => 49 | .fma => 50
  | .length => 66 | .distance => 67 | .cross => 68 | .normalize => 69 | .reflect => 71

inductive Decoration where
  | relaxedPrecision | block | colMajor | arrayStride | matrixStride | builtIn | noPerspective | flat | restrict
  | volatile | coherent | nonWritable | nonReadable | location | component | index | binding
    | descriptorSet | offset
  | linkageAttributes | inputAttachmentIndex
deriving DecidableEq

def Decoration.code : Decoration → UInt32
  | .relaxedPrecision =>
    0 | .block => 2 | .colMajor => 5 | .arrayStride => 6 | .matrixStride => 7 | .builtIn => 11
  | .noPerspective => 13 | .flat => 14 | .restrict => 19 | .volatile => 21 | .coherent => 23 | .nonWritable => 24
  | .nonReadable => 25 | .location => 30 | .component => 31 | .index => 32 | .binding => 33 | .descriptorSet => 34
  | .offset => 35 | .linkageAttributes => 41 | .inputAttachmentIndex => 43

inductive StorageClass where
  | input | uniform | output | workgroup | private_ | function | pushConstant | storageBuffer
deriving DecidableEq

def StorageClass.code : StorageClass → UInt32
  | .input => 1 | .uniform => 2 | .output => 3 | .workgroup => 4 | .private_ => 6 | .function => 7
  | .pushConstant => 9 | .storageBuffer => 12

end Shading.Spirv
