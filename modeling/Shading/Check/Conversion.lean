import Shading.Context
import Shading.Ty.Coercion

/-!
# Checked conversions

Expressions brought to a type. A literal takes the new type at once if it fits; anything else
becomes a cast. A poisoned expression stays as it is, so that one mistake is reported once. -/
namespace Shading

/-- A literal of scalar type `target`, without loss, if the value fits. This keeps `u + 1` an
unsigned addition. -/
def Literal.retype? (v : Literal) (target : Scalar) : Option Literal :=
  match v, target.kind with
  | .int i, .signed | .int i, .unsigned => if target.hasInteger i then some (.int i) else none
  | .int _, .float | .float _, .float =>
    if target.inRange v.toFloat then some (.float (.ofFloat v.toFloat)) else none
  | _, _ => none

def Expr.retype? (e : Expr) (target : Ty) : Option Expr :=
  match e, target with
  | .literal v (.scalar from_) span, .scalar s =>
    if from_ = s then none else (v.retype? s).map (.literal · target span)
  | _, _ => none

namespace Check

/-- A literal cast to a type. A value out of range is reported once and becomes zero. -/
def castLiteral (v : Literal) (target : Ty) (span : Span) : Check Expr :=
  match target.scalar? with
  | none => return .poison target span
  | some s => match v.cast? s with
    | some w => return .literal w target span
    | none => do
      report (.valueOutOfRange target v) span
      return .literal (.zero s) target span

def cast (e : Expr) (target : Ty) : Check Expr :=
  if e.ty = target || e.isPoisoned then return e
  else match e.literal?, target.isScalar with
    | some v, true => castLiteral v target e.span
    | _, scalar => return .construct (if scalar then .scalarCast else .compoundCast) [e] target e.span

/-- An expression converted to a type; a value that does not convert by itself is reported. -/
def coerce (e : Expr) (target : Ty) : Check Expr :=
  if e.ty = target || e.isPoisoned || target.isPoison then return e
  else match e.retype? target with
    | some retyped => return retyped
    | none =>
      if e.ty.converts target then cast e target
      else do
        report (.typeMismatch target e.ty) e.span
        return .poison target e.span

end Check
end Shading
