import Shading.Check.Access
import Shading.Check.Call
import Shading.Check.Constructor
import Shading.Grammar.Lookahead
import Shading.Numeral

/-!
# Reading expressions

One function per level of binding, from the comma down to single names and numbers. Inner
expressions are read by the functions they are given, which are the same ones with a smaller bound;
every inner expression comes after a word of its own, so the number of words in the source is bound
enough. The binary levels go down by the level itself, and operators in front of an operand by the
room for nesting. -/
namespace Shading.Grammar

/-- The operator that a word spells between two operands; assignments are apart. -/
def binaryOperator? : TokenKind → Option Operator
  | .mark .star => some .mul | .mark .slash => some .div | .mark .percent => some .rem
  | .mark .plus => some .add | .mark .minus => some .sub
  | .mark .shl => some .shl | .mark .shr => some .shr
  | .mark .lt => some .lt | .mark .gt => some .gt | .mark .le => some .le | .mark .ge => some .ge
  | .mark .eqEq => some .eq | .mark .bangEq => some .ne
  | .mark .amp => some .bitAnd | .mark .caret => some .bitXor | .mark .pipe => some .bitOr
  | .mark .ampAmp => some .logicalAnd | .mark .caretCaret => some .logicalXor | .mark .pipePipe => some .logicalOr
  | _ => none

def assignmentOperator? : TokenKind → Option Operator
  | .mark .eq => some .assign | .mark .plusEq => some .addAssign | .mark .minusEq => some .subAssign
  | .mark .starEq => some .mulAssign | .mark .slashEq => some .divAssign | .mark .percentEq => some .remAssign
  | .mark .shlEq => some .shlAssign | .mark .shrEq => some .shrAssign | .mark .ampEq => some .andAssign
  | .mark .pipeEq => some .orAssign | .mark .caretEq => some .xorAssign
  | _ => none

def leadingOperator? : TokenKind → Option Operator
  | .mark .plusPlus => some .increment | .mark .minusMinus => some .decrement
  | .mark .plus => some .add | .mark .minus => some .sub
  | .mark .bang => some .logicalNot | .mark .tilde => some .bitNot
  | _ => none

/-- The expression of an integer token. A number from 2 ^ 31 on that is not marked as unsigned keeps
its bits, so `-2147483648` comes out right. -/
def integerLiteral (w : Word) : Check Expr := do
  match Numeral.integer? w.text.toList with
  | some (value, unsigned) =>
    if 0x100000000 ≤ value then
      Check.report (.integerTooLarge w.text) w.span
      return .literal (.int 0) .int w.span
    else if unsigned then return .literal (.int value) .uint w.span
    else return .literal (.int (Literal.word value).toInt) .int w.span
  | none =>
    Check.report (.invalidInteger w.text) w.span
    return .literal (.int 0) .int w.span

def floatLiteral (w : Word) : Check Expr := do
  let value := Numeral.float w.text.toList
  if value.toFloat ≤ Scalar.singleMax then return .literal (.float value) .float w.span
  else
    Check.report (.floatTooLarge w.text) w.span
    return .literal (.float .zero) .float w.span

structure Inner where
  whole : Surroundings → Parse Expr
  single : Surroundings → Parse Expr

def arraySize (e : Expr) : Check Nat := do
  if e.isPoison then return 1
  match e.constantInt? with
  | some n =>
    if 0 < n ∧ n < 0x80000000 then return n.toNat
    else
      Check.report .arraySizeNotPositive e.span
      return 1
  | none =>
    Check.report .arraySizeNotConstant e.span
    return 1

def suffixes (inner : Inner) (env : Surroundings) : Nat → List (Option Nat × Span) →
    Parse (List (Option Nat × Span))
  | 0, _ => exhausted
  | n + 1, found => do
    match ← accept? (.mark .lbracket) with
    | none => return found
    | some opening =>
      if ← acceptMark .rbracket then suffixes inner env n ((none, ← spanFrom opening.span.start) :: found)
      else
        let e ← inner.whole env
        let _ ← expectMark .rbracket
        let size ← arraySize e
        suffixes inner env n ((some size, ← spanFrom opening.span.start) :: found)

/-- Wraps a type in array dimensions, innermost first. `span` is where the type is named. -/
def wrap (span : Span) (ty : Ty) : List (Option Nat × Span) → Check Ty
  | [] => return ty
  | (size, suffix) :: more => do
    if ty.isVoid then
      Check.report .voidArray suffix
      return .poison
    Check.reportIf ty.isUnsizedArray .innerUnsizedArray suffix
    let array ← Check.arrayOf ty size
    Check.reportIf (Ty.maxDepth < array.depth) (.typeTooDeep array) (span.cover suffix)
    wrap span array more

def arraySuffixes (inner : Inner) (fuel : Nat) (env : Surroundings) (ty : Ty) (span : Span) : Parse Ty := do
  let found ← suffixes inner env fuel []
  wrap span ty found

def typeName (inner : Inner) (fuel : Nat) (env : Surroundings) : Parse Ty := do
  let w ← next
  let scopes := (← get).context.scopes
  match if w.kind = .identifier then scopes.type? w.text else none with
  | some ty => arraySuffixes inner fuel env ty w.span
  | none => unexpected w .type

def argumentsFrom (inner : Inner) (env : Surroundings) : Nat → List Expr → Parse (List Expr)
  | 0, _ => exhausted
  | n + 1, found => do
    let e ← inner.single env
    let w ← next
    if w.kind = .mark .comma then argumentsFrom inner env n (e :: found)
    else if w.kind = .mark .rparen then return (e :: found).reverse
    else unexpected w (.eitherMark .comma .rparen)

def arguments (inner : Inner) (fuel : Nat) (env : Surroundings) : Parse (List Expr) := do
  if ← acceptMark .rparen then return [] else argumentsFrom inner env fuel []

/-- Reads what follows a name: the arguments of a constructor or a call, or nothing after a
variable. -/
def named (inner : Inner) (fuel : Nat) (env : Surroundings) (w : Word) : Parse Expr := do
  match (← get).context.scopes.find? w.text with
  | some (.type ty) =>
    let ty ← arraySuffixes inner fuel env ty w.span
    let _ ← expectMark .lparen
    let arguments ← arguments inner fuel env
    Check.constructor ty arguments (← spanFrom w.span.start)
  | some (.functions overloads) =>
    let _ ← expectMark .lparen
    let arguments ← arguments inner fuel env
    Check.call w.text overloads arguments (← spanFrom w.span.start)
  | some (.variable_ n) => Check.reference n w.span
  | some (.field block field) => Check.anonymousField block field w.span
  | none =>
    Check.report (.unknownSymbol w.text) w.span
    if ← acceptMark .lparen then
      let _ ← arguments inner fuel env
      return Check.poisoned (← spanFrom w.span.start)
    else return Check.poisoned w.span

def primary (inner : Inner) (fuel : Nat) (env : Surroundings) : Parse Expr := do
  let w ← next
  match w.kind with
  | .integer => integerLiteral w
  | .float => floatLiteral w
  | .truth b => return .literal (.bool b) .bool w.span
  | .mark .lparen =>
    let e ← nested env w inner.whole
    let _ ← expectMark .rparen
    return e.withSpan (← spanFrom w.span.start)
  | .identifier => named inner fuel env w
  | _ => unexpected w .expression

def trailers (inner : Inner) (env : Surroundings) : Nat → Expr → Parse Expr
  | 0, _ => exhausted
  | n + 1, e => do
    let w ← peek
    match w.kind with
    | .mark .lbracket =>
      advance
      match ← accept? (.mark .rbracket) with
      | some closing => unexpected closing .index
      | none =>
        let index ← inner.whole env
        let _ ← expectMark .rbracket
        trailers inner env n (← Check.index e index (← spanFrom e.span.start))
    | .mark .dot =>
      advance
      let name ← expectIdentifier
      trailers inner env n (← Check.field e name.text name.span)
    | .mark .plusPlus =>
      advance
      trailers inner env n (← Check.step .increment e (e.span.cover w.span))
    | .mark .minusMinus =>
      advance
      trailers inner env n (← Check.step .decrement e (e.span.cover w.span))
    | _ => return e

def trailing (inner : Inner) (fuel : Nat) (env : Surroundings) : Parse Expr := do
  trailers inner env fuel (← primary inner fuel env)

def leading (inner : Inner) (fuel : Nat) (env : Surroundings) : (room : Nat) → Parse Expr
  | 0 => do
    let w ← peek
    match leadingOperator? w.kind with
    | none => trailing inner fuel { env with room := 0 }
    | some _ =>
      advance
      stop .nestedTooDeeply w.span
  | room + 1 => do
    let w ← peek
    match leadingOperator? w.kind with
    | none => trailing inner fuel { env with room := room + 1 }
    | some op =>
      advance
      let operand ← leading inner fuel env room
      Check.unary op operand (w.span.cover operand.span)

def chain (operand : Parse Expr) (level : Precedence) : Nat → Expr → Parse Expr
  | 0, _ => exhausted
  | n + 1, left => do
    match binaryOperator? (← peek).kind with
    | none => return left
    | some op =>
      if op.precedence = level then
        advance
        let right ← operand
        chain operand level n (← Check.binary left op right)
      else return left

def binaryLevels (inner : Inner) (fuel : Nat) (env : Surroundings) : (levels : Nat) → Parse Expr
  | 0 => leading inner fuel env env.room
  | levels + 1 => do
    let left ← binaryLevels inner fuel env levels
    chain (binaryLevels inner fuel env levels) (Precedence.leading + levels + 1) fuel left

def conditional (inner : Inner) (fuel : Nat) (env : Surroundings) : Parse Expr := do
  let condition ← binaryLevels inner fuel env (Precedence.logicalOr - Precedence.leading)
  if ← acceptMark .question then
    let t ← inner.whole env
    let _ ← expectMark .colon
    let f ← inner.single env
    Check.conditional condition t f
  else return condition

/-- Reads an expression without commas; assignments group from the right. -/
def single (inner : Inner) (fuel : Nat) (env : Surroundings) : Parse Expr := do
  let left ← conditional inner fuel env
  match assignmentOperator? (← peek).kind with
  | none => return left
  | some op =>
    advance
    let right ← inner.single env
    Check.binary left op right

def sequence (inner : Inner) (fuel : Nat) (env : Surroundings) : Nat → Expr → Parse Expr
  | 0, _ => exhausted
  | n + 1, left => do
    if ← acceptMark .comma then
      let right ← single inner fuel env
      sequence inner fuel env n (← Check.binary left .comma right)
    else return left

/-- How expressions are read, with a bound on how deeply they lie in each other. -/
def expressions : Nat → Inner
  | 0 => ⟨fun _ => exhausted, fun _ => exhausted⟩
  | n + 1 => ⟨fun env => do sequence (expressions n) n env n (← single (expressions n) n env),
      fun env => single (expressions n) n env⟩

end Shading.Grammar
