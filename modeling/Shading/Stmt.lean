import Shading.Expr

/-!
# Statements

Checked statements, and whether control can pass the end of one.
-/
namespace Shading

inductive LoopKind where
  | for_
  | while_
  | doWhile
deriving DecidableEq, Repr

/-- A label of a switch with the statements up to the next one; without a value it is the
default. -/
structure SwitchCase (σ : Type) where
  value : Option Int
  body : List σ
  span : Span

inductive Stmt where
  /-- Several declarators of one declaration form a block without braces, which opens no scope. -/
  | block (braced : Bool) (body : List Stmt) (span : Span)
  | if_ (condition : Expr) (whenTrue : Stmt) (whenFalse : Option Stmt) (span : Span)
  | loop (kind : LoopKind) (init : Option Stmt) (condition step : Option Expr) (body : Stmt) (span : Span)
  | switch (selector : Expr) (cases : List (SwitchCase Stmt)) (span : Span)
  | return_ (value : Option Expr) (span : Span)
  | break_ (span : Span)
  | continue_ (span : Span)
  | discard (span : Span)
  | declare (number : Nat) (initializer : Option Expr) (span : Span)
  | expr (value : Expr) (span : Span)
  | empty (span : Span)

namespace Stmt

instance : Inhabited Stmt := ⟨.empty (.point 0)⟩

def span : Stmt → Span
  | block _ _ span | if_ _ _ _ span | loop _ _ _ _ _ span | switch _ _ span | return_ _ span | break_ span
  | continue_ span | discard span | declare _ _ span | expr _ span | empty span => span

mutual
/-- Whether control never passes the end of the statement: it returns or discards, or both branches
of an `if` do. -/
def alwaysExits : Stmt → Bool
  | return_ .. | discard .. => true
  | block _ body _ => lastExits body
  | if_ _ t (some f) _ => t.alwaysExits && f.alwaysExits
  | _ => false
def lastExits : List Stmt → Bool
  | [] => false
  | [s] => s.alwaysExits
  | _ :: s :: rest => lastExits (s :: rest)
end

def declarators? : Stmt → Option (List (Nat × Option Expr))
  | declare n init _ => some [(n, init)]
  | block false body _ => body.mapM fun
    | declare n init _ => some (n, init)
    | _ => none
  | _ => none

end Stmt
end Shading
