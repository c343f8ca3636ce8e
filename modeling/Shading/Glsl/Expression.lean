import Shading.Glsl.Target

/-!
# Expressions in GLSL

Parentheses follow from how tightly operators bind, so that reading the text again gives the same
tree. A cast between types of one GLSL name is left out. -/
namespace Shading.Glsl

def signed (text : String) : List Piece :=
  match text.toList with
  | '-' :: digits => [.lexeme "-", .lexeme (String.ofList digits)]
  | _ => [.lexeme text]

def integer (unsigned : Bool) (i : Int) : List Piece :=
  let w := Literal.word i
  if unsigned then [.lexeme s!"{w.toNat}u"] else signed (toString w.toInt)

def isUnsigned (ty : Ty) : Bool := ty.scalar?.any (·.kind == .unsigned)

def literal (v : Literal) (ty : Ty) : List Piece :=
  match v with
  | .bool b => [.lexeme (toString b)]
  | .int i => integer (isUnsigned ty) i
  | .float x => signed (Number.text Number.glslStyle x)

def precedence : Expr → Precedence
  | .literal (.int i) _ _ => if i < 0 then Precedence.leading else Precedence.parentheses
  | .literal (.float x) _ _ => if x.isNegative then Precedence.leading else Precedence.parentheses
  | .unary .. => Precedence.leading
  | .step .. | .index .. | .field .. | .swizzle .. => Precedence.trailing
  | .binary op _ _ _ _ => op.precedence
  | .conditional .. => Precedence.conditional
  | _ => Precedence.parentheses

/-- The loosest binding that the operands of an operator may have without parentheses: assignments
group from the right, all else from the left. -/
def operandLevels (op : Operator) : Precedence × Precedence :=
  let own := op.precedence
  if op.isAssignment then (own - 1, own) else (own, own - 1)

def between (op : Operator) : List Piece :=
  if op = .comma then [.lexeme ",", .gap] else [.gap, .lexeme op.symbol, .gap]

def isNeedless (kind : ConstructorKind) (arguments : List Expr) (ty : Ty) : Bool :=
  match kind, arguments with
  | .scalarCast, [a] | .compoundCast, [a] => a.ty.glslName == ty.glslName
  | _, _ => false

def componentLetter (i : Fin 4) : Char :=
  match i with
  | 0 => 'x' | 1 => 'y' | 2 => 'z' | 3 => 'w'

def fieldOf? (ty : Ty) (index : Nat) : Option (Field Ty) := (ty.leaf.fields?.getD [])[index]?

def guarded (e : Expr) (allowed : Precedence) (inside : List Piece) : List Piece :=
  if allowed < precedence e then parenthesized inside else inside

def expandedFma (a b c : List Piece) : List Piece :=
  parenthesized (parenthesized a ++ [.gap, .lexeme "*", .gap] ++ parenthesized b
    ++ [.gap, .lexeme "+", .gap] ++ parenthesized c)

def call (t : Target) (function : Nat) (arguments : List (List Piece)) : List Piece :=
  .lexeme (t.functionName function) :: parenthesized (separated arguments)

def saturated (x : List Piece) : List Piece :=
  .lexeme "clamp" :: parenthesized (separated [x, [.lexeme "0.0"], [.lexeme "1.0"]])

/-- The intrinsics that are written in other words. -/
inductive Expansion where
  | saturate
  | fma

def expansion? (t : Target) (function count : Nat) : Option Expansion :=
  match (t.program.functionAt function).intrinsic with
  | some .saturate => if count = 1 then some .saturate else none
  | some .fma => if count = 3 && t.lacksFma then some .fma else none
  | _ => none

mutual
def expression (t : Target) (allowed : Precedence) : Expr → List Piece
  | .literal v ty span => guarded (.literal v ty span) allowed (literal v ty)
  | .unary op a ty span =>
    guarded (.unary op a ty span) allowed (.lexeme op.symbol :: expression t Precedence.leading a)
  | .step op a ty span =>
    guarded (.step op a ty span) allowed (expression t Precedence.trailing a ++ [.lexeme op.symbol])
  | .binary op a b ty span =>
    guarded (.binary op a b ty span) allowed
      (expression t (operandLevels op).1 a ++ between op ++ expression t (operandLevels op).2 b)
  | .conditional a b c ty span =>
    guarded (.conditional a b c ty span) allowed
      (expression t Precedence.logicalOr a ++ [.gap, .lexeme "?", .gap] ++ expression t Precedence.sequence b
        ++ [.gap, .lexeme ":", .gap] ++ expression t Precedence.assignment c)
  | .variable_ n _ span =>
    let v := t.program.variableAt n
    match v.modifiers.layout.builtin with
    | some number => Target.pipelineName number v.name span
    | none => [.lexeme v.name]
  | .index a b ty span =>
    guarded (.index a b ty span) allowed
      (expression t Precedence.trailing a ++ [.lexeme "["] ++
        expression t Precedence.expression b ++ [.lexeme "]"])
  | .field a i anonymous ty span =>
    match fieldOf? a.ty i with
    | none => []
    | some f => guarded (.field a i anonymous ty span) allowed <|
      match f.modifiers.layout.builtin with
      | some number => Target.pipelineName number f.name span
      | none => (if anonymous then [] else expression t Precedence.trailing a ++ [.lexeme "."]) ++ [.lexeme f.name]
  | .swizzle a cs ty span =>
    guarded (.swizzle a cs ty span) allowed
      (expression t Precedence.trailing a ++ [.lexeme ".", .lexeme (String.ofList (cs.map componentLetter))])
  | .construct kind as ty _ =>
    if isNeedless kind as ty then (expressions t allowed as).flatten
    else wholeType ty ++ parenthesized (separated (expressions t Precedence.assignment as))
  | .call f as _ _ => match expansion? t f as.length with
    | some .saturate => saturated (expressions t Precedence.assignment as).flatten
    | some .fma => match expressions t Precedence.expression as with
      | [a, b, c] => expandedFma a b c
      | _ => []
    | none => call t f (expressions t Precedence.assignment as)
  | .poison .. => [.lexeme "0"]
def expressions (t : Target) (allowed : Precedence) : List Expr → List (List Piece)
  | [] => []
  | a :: as => expression t allowed a :: expressions t allowed as
end

end Shading.Glsl
