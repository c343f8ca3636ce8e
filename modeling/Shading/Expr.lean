import Shading.Declaration

/-!
# Expressions

Checked expressions: every node carries its type and the source it was read from. A node owns its
parts; variables and functions are named by their numbers. -/
namespace Shading

inductive ConstructorKind where
  /-- `float[3](a, b, c)` -/
  | array
  /-- A vector or matrix from several scalars and vectors: `float4(v.xy, 0, 1)`. -/
  | compound
  /-- A scalar of another type: `int(x)`. -/
  | scalarCast
  /-- A vector or matrix with other components: `int3(v)`. -/
  | compoundCast
  /-- A scalar in every component of a vector: `float3(1)`. -/
  | splat
  /-- A scalar on the diagonal of a matrix: `float2x2(1)`. -/
  | diagonal
  /-- A matrix from one of other dimensions: `float3x3(m)`. -/
  | resize
  | struct
deriving DecidableEq, Repr

inductive Expr where
  | literal (value : Literal) (ty : Ty) (span : Span)
  | unary (op : Operator) (operand : Expr) (ty : Ty) (span : Span)
  /-- `++` or `--` after its operand. -/
  | step (op : Operator) (operand : Expr) (ty : Ty) (span : Span)
  | binary (op : Operator) (left right : Expr) (ty : Ty) (span : Span)
  | conditional (condition whenTrue whenFalse : Expr) (ty : Ty) (span : Span)
  | variable_ (number : Nat) (ty : Ty) (span : Span)
  | index (base index : Expr) (ty : Ty) (span : Span)
  /-- A field of a struct; of a block without a name, whose variable is then the base, if
  `anonymous`. -/
  | field (base : Expr) (index : Nat) (anonymous : Bool) (ty : Ty) (span : Span)
  | swizzle (base : Expr) (components : List (Fin 4)) (ty : Ty) (span : Span)
  | construct (kind : ConstructorKind) (arguments : List Expr) (ty : Ty) (span : Span)
  | call (function : Nat) (arguments : List Expr) (ty : Ty) (span : Span)
  /-- An expression that could not be checked; its problem has been reported. -/
  | poison (ty : Ty) (span : Span)

namespace Expr

instance : Inhabited Expr := ⟨.poison .poison (.point 0)⟩

def ty : Expr → Ty
  | literal _ ty _ | unary _ _ ty _ | step _ _ ty _ | binary _ _ _ ty _ | conditional _ _ _ ty _
  | variable_ _ ty _
  | index _ _ ty _ | field _ _ _ ty _ | swizzle _ _ ty _ | construct _ _ ty _ | call _ _ ty _ | poison ty _ => ty

def span : Expr → Span
  | literal _ _ span | unary _ _ _ span | step _ _ _ span | binary _ _ _ _ span | conditional _ _ _ _ span
  | variable_ _ _ span | index _ _ _ span | field _ _ _ _ span | swizzle _ _ _ span | construct _ _ _ span
  | call _ _ _ span | poison _ span => span

def withSpan (s : Span) : Expr → Expr
  | literal v ty _ => literal v ty s
  | unary op e ty _ => unary op e ty s
  | step op e ty _ => step op e ty s
  | binary op l r ty _ => binary op l r ty s
  | conditional c t f ty _ => conditional c t f ty s
  | variable_ n ty _ => variable_ n ty s
  | index b i ty _ => index b i ty s
  | field b i a ty _ => field b i a ty s
  | swizzle b cs ty _ => swizzle b cs ty s
  | construct k as ty _ => construct k as ty s
  | call f as ty _ => call f as ty s
  | poison ty _ => poison ty s

def literal? : Expr → Option Literal
  | literal v _ _ => some v
  | _ => none

def constantInt? (e : Expr) : Option Int := e.literal?.bind Literal.int?

def constantBool? (e : Expr) : Option Bool := e.literal?.bind Literal.bool?

def isPoison : Expr → Bool
  | poison .. => true
  | _ => false

def isPoisoned (e : Expr) : Bool := e.isPoison || e.ty.isPoison

def isLiteral (e : Expr) : Bool := e.literal?.isSome

mutual
/-- Whether computing the expression can change a variable, given which functions may be called
without harm. -/
def hasEffects (harmless : Nat → Bool) : Expr → Bool
  | literal .. | variable_ .. | poison .. => false
  | unary op e _ _ => op.isStep || e.hasEffects harmless
  | step .. => true
  | binary op l r _ _ => op.isAssignment || l.hasEffects harmless || r.hasEffects harmless
  | conditional c t f _ _ => c.hasEffects harmless || t.hasEffects harmless || f.hasEffects harmless
  | index b i _ _ => b.hasEffects harmless || i.hasEffects harmless
  | field b _ _ _ _ | swizzle b _ _ _ => b.hasEffects harmless
  | construct _ as _ _ => anyEffects harmless as
  | call f as _ _ => !harmless f || anyEffects harmless as
def anyEffects (harmless : Nat → Bool) : List Expr → Bool
  | [] => false
  | a :: as => a.hasEffects harmless || anyEffects harmless as
end

mutual
/-- Whether the expression reads only literals and constant variables, through intrinsics at
most. -/
def isConstant (constant intrinsic : Nat → Bool) : Expr → Bool
  | literal .. => true
  | variable_ n _ _ => constant n
  | unary op e _ _ => !op.isStep && e.isConstant constant intrinsic
  | binary op l r _ _ => !op.isAssignment && l.isConstant constant intrinsic && r.isConstant constant intrinsic
  | conditional c t f _ _ =>
    c.isConstant constant intrinsic && t.isConstant constant intrinsic && f.isConstant constant intrinsic
  | index b i _ _ => b.isConstant constant intrinsic && i.isConstant constant intrinsic
  | field b _ anonymous _ _ => !anonymous && b.isConstant constant intrinsic
  | swizzle b _ _ _ => b.isConstant constant intrinsic
  | construct _ as _ _ => allConstant constant intrinsic as
  | call f as _ _ => intrinsic f && allConstant constant intrinsic as
  | step .. | poison .. => false
def allConstant (constant intrinsic : Nat → Bool) : List Expr → Bool
  | [] => true
  | a :: as => a.isConstant constant intrinsic && allConstant constant intrinsic as
end

@[simp] theorem ty_withSpan (s : Span) (e : Expr) : (e.withSpan s).ty = e.ty := by cases e <;> rfl

@[simp] theorem span_withSpan (s : Span) (e : Expr) : (e.withSpan s).span = s := by cases e <;> rfl

end Expr
end Shading
