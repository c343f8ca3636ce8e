import Shading.Glsl.Expression

/-!
# Statements in GLSL

The pieces of a statement start after the indentation of its first line and leave its last line
open; whoever encloses the statement adds both. -/
namespace Shading.Glsl

def initializer (t : Target) : Option Expr → List Piece
  | none => []
  | some e => [.gap, .lexeme "=", .gap] ++ expression t Precedence.assignment e

def declarator (t : Target) (d : Nat × Option Expr) : List Piece :=
  let v := t.program.variableAt d.1
  .lexeme v.name :: dimensions v.ty ++ initializer t d.2

/-- A declaration without its semicolon. The declarators share the modifiers and the base type of
the first. -/
def declaration (t : Target) (ds : List (Nat × Option Expr)) : List Piece :=
  match ds with
  | [] => []
  | (first, _) :: _ =>
    let v := t.program.variableAt first
    t.modifiers v.modifiers ++ t.precision v.ty ++ [baseType v.ty, .blank] ++ separated (ds.map (declarator t))

def loose (t : Target) (e : Expr) : List Piece := expression t Precedence.expression e

def condition (t : Target) (e : Option Expr) : List Piece :=
  .gap :: parenthesized (match e with | some e => loose t e | none => [])

def forInit (t : Target) : Option Stmt → List Piece
  | none => []
  | some s => match s.declarators?, s with
    | some ds, _ => declaration t ds
    | none, .expr e _ => loose t e
    | none, _ => []

def forPart (t : Target) : Option Expr → List Piece
  | none => []
  | some e => .gap :: loose t e

def caseLabel (unsigned : Bool) : Option Int → List Piece
  | none => [.lexeme "default", .lexeme ":"]
  | some v => [.lexeme "case", .blank] ++ integer unsigned v ++ [.lexeme ":"]

def braced (level : Nat) (lines : List Piece) : List Piece :=
  .lexeme "\x7b" :: lines ++ [.newline, .indent level, .lexeme "\x7d"]

def isBraced : Stmt → Bool
  | .block true .. => true
  | _ => false

def bodyLevel (level : Nat) (body : Stmt) : Nat := if isBraced body then level else level + 1

def beforeBody (level : Nat) (body : Stmt) : List Piece :=
  if isBraced body then [.gap] else [.newlineOrBlank, .indent (level + 1)]

def afterBody (level : Nat) (body : Stmt) : List Piece :=
  if isBraced body then [.gap] else [.newline, .indent level]

/-- What stands between `else` and its statement: another `if` goes on in the same line. -/
def beforeElse (level : Nat) : Stmt → List Piece
  | .if_ .. => [.blank]
  | s => beforeBody level s

def elseLevel (level : Nat) : Stmt → Nat
  | .if_ .. => level
  | s => bodyLevel level s

def loopHead (t : Target) (kind : LoopKind) (init : Option Stmt) (cond step : Option Expr) : List Piece :=
  match kind with
  | .for_ => [.lexeme "for", .gap] ++ parenthesized
      (forInit t init ++ [.lexeme ";"] ++ forPart t cond ++ [.lexeme ";"] ++ forPart t step)
  | .while_ => .lexeme "while" :: condition t cond
  | .doWhile => [.lexeme "do"]

def loopTail (t : Target) (level : Nat) (kind : LoopKind) (cond : Option Expr) (body : Stmt) : List Piece :=
  match kind with
  | .doWhile => afterBody level body ++ .lexeme "while" :: condition t cond ++ [.lexeme ";"]
  | _ => []

mutual
def statement (t : Target) (level : Nat) : Stmt → List Piece
  | .block true body _ => braced level (lines t (level + 1) body)
  | .block false body span => match Stmt.declarators? (.block false body span) with
    | some ds => declaration t ds ++ [.lexeme ";"]
    | none => lines t level body
  | .if_ c a none _ =>
    .lexeme "if" :: condition t (some c) ++ beforeBody level a ++ statement t (bodyLevel level a) a
  | .if_ c a (some b) _ =>
    .lexeme "if" :: condition t (some c) ++ beforeBody level a ++ statement t (bodyLevel level a) a
      ++ afterBody level a ++ .lexeme "else" :: beforeElse level b ++ statement t (elseLevel level b) b
  | .loop kind init cond step body _ =>
    loopHead t kind init cond step ++ beforeBody level body ++ statement t (bodyLevel level body) body
      ++ loopTail t level kind cond body
  | .switch selector cases _ =>
    .lexeme "switch" :: condition t (some selector) ++ .gap ::
      braced level (switchCases t (isUnsigned selector.ty) (level + 1) cases)
  | .return_ none _ => [.lexeme "return", .lexeme ";"]
  | .return_ (some e) _ => [.lexeme "return", .blank] ++ loose t e ++ [.lexeme ";"]
  | .break_ _ => [.lexeme "break", .lexeme ";"]
  | .continue_ _ => [.lexeme "continue", .lexeme ";"]
  | .discard _ => [.lexeme "discard", .lexeme ";"]
  | .declare n init _ => declaration t [(n, init)] ++ [.lexeme ";"]
  | .expr e _ => loose t e ++ [.lexeme ";"]
  | .empty _ => [.lexeme ";"]
def lines (t : Target) (level : Nat) : List Stmt → List Piece
  | [] => []
  | s :: rest => [.newline, .indent level] ++ statement t level s ++ lines t level rest
def switchCases (t : Target) (unsigned : Bool) (level : Nat) : List (SwitchCase Stmt) → List Piece
  | [] => []
  | ⟨value, body, _⟩ :: rest =>
    [.newline, .indent level] ++ caseLabel unsigned value ++ lines t (level + 1) body
      ++ switchCases t unsigned level rest
end

end Shading.Glsl
