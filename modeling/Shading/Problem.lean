import Shading.Diagnostic
import Shading.Expr
import Shading.Token

/-!
# Problems

Everything that can be wrong with a program, as causes; how they are worded stands in one place,
`Problem.message`. -/
namespace Shading

inductive Expectation where
  | mark (p : Punctuator)
  | eitherMark (p q : Punctuator)
  | keyword (k : Keyword)
  | identifier
  | integer
  | type
  | index
  | expression
deriving DecidableEq, Repr

def Expectation.text : Expectation → String
  | mark p => let p := String.ofList p.spelling; s!"'{p}'"
  | eitherMark p q => let p := String.ofList p.spelling; let q := String.ofList q.spelling; s!"'{p}' or '{q}'"
  | keyword k => s!"'{k.spelling}'"
  | identifier => "an identifier"
  | integer => "an integer"
  | type => "a type"
  | index => "an index"
  | expression => "an expression"

/-- Why a variable cannot be written to. -/
inductive Protection where
  | constant | uniform | input | readonly
deriving DecidableEq, Repr

def Protection.text : Protection → String
  | constant => "constant" | uniform => "uniform" | input => "input" | readonly => "readonly"

inductive ArgumentFault where
  | none_
  | notOneScalar
  | elements (expected found : Nat)
  | fields (expected found : Nat)
  | scalars (expected found : Nat)
deriving DecidableEq, Repr

def ArgumentFault.text : ArgumentFault → String
  | none_ => "expected at least one argument"
  | notOneScalar => "expected a single scalar"
  | elements n m => s!"expected {n} elements, but found {m}"
  | fields n m => s!"expected {n} fields, but found {m}"
  | scalars n m => s!"expected {n} scalars, but found {m}"

inductive Problem where
  -- tokens
  | unterminatedComment
  | invalidCharacter (text : String)
  | reservedWord (word : String)
  | integerTooLarge (text : String)
  | invalidInteger (text : String)
  | floatTooLarge (text : String)
  -- grammar
  | unexpected (expected : Expectation) (found : Option String)
  | nestedTooDeeply
  -- modifiers
  | repeatedQualifier (word : String)
  | alignmentNotPowerOfTwo (value : Nat)
  | invalidLayoutValue (text : String)
  | repeatedLayoutKey (key : String)
  | layoutTakesNoValue (key : String)
  | layoutNeedsValue (key : String)
  | unknownLayoutKey (key : String)
  | notWithPushConstant (key : LayoutKey)
  -- types
  | voidArray
  | innerUnsizedArray
  | typeTooDeep (ty : Ty)
  | arraySizeNotPositive
  | arraySizeNotConstant
  | emptyStruct (name : String)
  | structTooDeep (name : String)
  | structModifiers
  | voidField (name : String)
  | duplicateField (name owner : String)
  | unsizedField (name : String)
  | blockStorage (name : String)
  | emptyBlock (name : String)
  | unsizedArray
  -- names
  | duplicateSymbol (name : String)
  | unknownSymbol (name : String)
  -- functions
  | functionModifiers
  | mainSignature
  | duplicateDefinition (name : String)
  | duplicateIntrinsic (name : String)
  | returnTypesDiffer (name : String)
  | parameterModifiersDiffer (name : String)
  | missingReturn (name : String)
  | voidParameter
  | parameterModifier
  | constOutParameter
  | missingMain
  | undefinedFunction (name : String)
  -- variables
  | variableFunctionModifiers
  | localModifiers
  | voidVariable (name : String)
  | initializedInterface (q : Qualifier)
  | uninitializedConst (name : String)
  | initializerNotConstant
  -- statements
  | duplicateCase (value : Int)
  | caseNotConstant
  | duplicateDefault
  | missingReturnValue (ty : Ty)
  | valueFromVoid
  | strayBreak
  | strayContinue
  | strayDiscard
  -- expressions
  | valueOutOfRange (ty : Ty) (value : Literal)
  | divisionByZero
  | typeMismatch (expected found : Ty)
  | protected_ (why : Protection) (name : String)
  | repeatedSwizzleTarget
  | notAssignable
  | binaryMismatch (op : Operator) (left right : Ty)
  | unaryMismatch (op : Operator) (ty : Ty)
  | branchMismatch (left right : Ty)
  | indexNotInteger (ty : Ty)
  | notIndexable (ty : Ty)
  | indexOutOfRange (index : Int) (ty : Ty)
  | unknownField (ty : Ty) (name : String)
  | noFields (ty : Ty)
  | swizzleTooLong (mask : String)
  | invalidSwizzle (letter : Char)
  | mixedSwizzle (mask : String)
  | noOverload (name : String) (arguments : List Ty)
  | ambiguousCall (name : String) (arguments : List Ty)
  | badArguments (ty : Ty) (fault : ArgumentFault)
  | badConstructorArgument (argument ty : Ty)
  | notConstructible (ty : Ty)
  -- targets
  | namelessPipelineVariable (number : Nat)
  | typeNotPermitted (ty : Ty)
  | offsetTooSmall (field : String) (minimum : Nat)
  | offsetMisaligned (field : String) (alignment : Nat)
  | fieldTooFar (field : String)
  | looseInterfaceVariable (q : Qualifier) (name : String)
  | globalInitializerNotConstant (name : String)
  | variableUnavailable (name : String)
  | typeNotCopied (ty : Ty)
  | operatorUnsupported (op : Operator)
  | comparisonUnsupported (ty : Ty)
  | notALocation

namespace Problem

def typeNames (types : List Ty) : String := ", ".intercalate (types.map Ty.name)

def message : Problem → String
  | unterminatedComment => "unterminated block comment"
  | invalidCharacter text => s!"invalid character '{text}'"
  | reservedWord word => s!"'{word}' is a reserved keyword"
  | integerTooLarge text => s!"integer value is too large: {text}"
  | invalidInteger text => s!"invalid integer literal '{text}'"
  | floatTooLarge text => s!"floating-point value is too large: {text}"
  | unexpected expected (some found) => s!"expected {expected.text}, but found '{found}'"
  | unexpected expected none => s!"expected {expected.text}, but found end of file"
  | nestedTooDeeply => "code is too deeply nested"
  | repeatedQualifier word => s!"'{word}' was specified more than once"
  | alignmentNotPowerOfTwo value => s!"alignment must be a power of two, but found {value}"
  | invalidLayoutValue text => s!"invalid layout value '{text}'"
  | repeatedLayoutKey key => s!"layout qualifier '{key}' appears more than once"
  | layoutTakesNoValue key => s!"layout qualifier '{key}' does not take a value"
  | layoutNeedsValue key => s!"layout qualifier '{key}' requires a value"
  | unknownLayoutKey key => s!"'{key}' is not a valid layout qualifier"
  | notWithPushConstant key => s!"'{key.keyword}' is not permitted with 'push_constant'"
  | voidArray => "type 'void' may not be used in an array"
  | innerUnsizedArray => "only the outermost array dimension may be unsized"
  | typeTooDeep ty => s!"type '{ty.name}' is too deeply nested"
  | arraySizeNotPositive => "array size must be positive"
  | arraySizeNotConstant => "array size must be an integer constant"
  | emptyStruct name => s!"struct '{name}' must contain at least one field"
  | structTooDeep name => s!"struct '{name}' is too deeply nested"
  | structModifiers => "modifiers are not permitted on a struct declaration"
  | voidField name => s!"field '{name}' may not be of type 'void'"
  | duplicateField name owner => s!"field '{name}' was already defined in the same struct '{owner}'"
  | unsizedField name => s!"unsized array field '{name}' is not permitted here"
  | blockStorage name => s!"interface block '{name}' must be exactly one of 'uniform', 'in', 'out' or 'buffer'"
  | emptyBlock name => s!"interface block '{name}' must contain at least one field"
  | unsizedArray => "unsized arrays are not permitted here"
  | duplicateSymbol name => s!"symbol '{name}' was already defined"
  | unknownSymbol name => s!"no symbol named '{name}'"
  | functionModifiers => "only function modifiers are permitted on a function"
  | mainSignature => "'main' must be declared as 'void main()'"
  | duplicateDefinition name => s!"duplicate definition of '{name}'"
  | duplicateIntrinsic name => s!"duplicate definition of intrinsic function '{name}'"
  | returnTypesDiffer name => s!"functions '{name}' differ only in return type"
  | parameterModifiersDiffer name => s!"modifiers of the parameters of '{name}' differ between declarations"
  | missingReturn name => s!"function '{name}' can exit without returning a value"
  | voidParameter => "parameters may not be of type 'void'"
  | parameterModifier => "modifier is not permitted on a parameter"
  | constOutParameter => "'const' parameters cannot be 'out' or 'inout'"
  | missingMain => "program does not contain a main() function"
  | undefinedFunction name => s!"function '{name}' is not defined"
  | variableFunctionModifiers => "function modifiers are not permitted on a variable"
  | localModifiers => "only 'const' is permitted on a local variable"
  | voidVariable name => s!"variable '{name}' may not be of type 'void'"
  | initializedInterface q => s!"'{q.keyword}' variables cannot be initialized"
  | uninitializedConst name => s!"'const' variable '{name}' must be initialized"
  | initializerNotConstant => "'const' variable initializer must be a constant expression"
  | duplicateCase value => s!"duplicate case value '{value}'"
  | caseNotConstant => "case value must be a constant integer"
  | duplicateDefault => "duplicate default case"
  | missingReturnValue ty => s!"expected function to return '{ty.name}'"
  | valueFromVoid => "may not return a value from a void function"
  | strayBreak => "break statement must be inside a loop or switch"
  | strayContinue => "continue statement must be inside a loop"
  | strayDiscard => "discard statement is only permitted in fragment shaders"
  | valueOutOfRange ty value => s!"value is out of range for type '{ty.name}': {value.text}"
  | divisionByZero => "division by zero"
  | typeMismatch expected found => s!"expected '{expected.name}', but found '{found.name}'"
  | protected_ why name => s!"cannot modify {why.text} variable '{name}'"
  | repeatedSwizzleTarget => "cannot write to the same swizzle field more than once"
  | notAssignable => "cannot assign to this expression"
  | binaryMismatch op left right =>
    s!"type mismatch: '{op.symbol}' cannot operate on '{left.name}', '{right.name}'"
  | unaryMismatch op ty => s!"'{op.symbol}' cannot operate on '{ty.name}'"
  | branchMismatch left right => s!"ternary operator result mismatch: '{left.name}', '{right.name}'"
  | indexNotInteger ty => s!"index expression must be an integer, but found '{ty.name}'"
  | notIndexable ty => s!"expected array, but found '{ty.name}'"
  | indexOutOfRange index ty => s!"index {index} out of range for type '{ty.name}'"
  | unknownField ty name => s!"type '{ty.name}' does not have a field named '{name}'"
  | noFields ty => s!"type '{ty.name}' does not have fields"
  | swizzleTooLong mask => s!"too many components in swizzle mask '{mask}'"
  | invalidSwizzle letter => s!"invalid swizzle component '{letter}'"
  | mixedSwizzle mask => s!"swizzle components of '{mask}' must come from the same set"
  | noOverload name arguments => s!"no overload of '{name}' matches the arguments ({typeNames arguments})"
  | ambiguousCall name arguments => s!"call to '{name}({typeNames arguments})' is ambiguous"
  | badArguments ty fault => s!"invalid arguments to '{ty.name}' constructor ({fault.text})"
  | badConstructorArgument argument ty => s!"'{argument.name}' is not a valid parameter to '{ty.name}' constructor"
  | notConstructible ty => s!"cannot construct '{ty.name}'"
  | namelessPipelineVariable number => s!"builtin {number} has no GLSL equivalent"
  | typeNotPermitted ty => s!"type '{ty.name}' is not permitted here"
  | offsetTooSmall field minimum => s!"offset of field '{field}' must be at least {minimum}"
  | offsetMisaligned field alignment => s!"offset of field '{field}' must be a multiple of {alignment}"
  | fieldTooFar field => s!"field '{field}' ends past the 4 GiB limit of a block"
  | looseInterfaceVariable q name => s!"{q.keyword} variable '{name}' must be declared in an interface block"
  | globalInitializerNotConstant name => s!"initializer of global variable '{name}' must be a constant expression"
  | variableUnavailable name => s!"variable '{name}' is not available here"
  | typeNotCopied ty => s!"type '{ty.name}' cannot be copied here"
  | operatorUnsupported op => s!"operator '{op.symbol}' is not supported here"
  | comparisonUnsupported ty => s!"comparison of '{ty.name}' values is not supported"
  | notALocation => "expression is not assignable"

def stage : Problem → Stage
  | unterminatedComment | invalidCharacter _ => .lexical
  | unexpected .. | nestedTooDeeply => .grammatical
  | _ => .semantic

end Problem

/-- A problem and where it is. -/
structure Report where
  problem : Problem
  span : Span

def Report.diagnostic (r : Report) : Diagnostic := ⟨r.problem.stage, .error, r.span, r.problem.message⟩

end Shading
