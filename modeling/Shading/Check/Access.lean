import Shading.Check.Operator

/-!
# Checked access

References to variables, and the parts of a value: elements, fields and swizzles.
-/
namespace Shading.Check

/-- A reference to a variable; a constant with a known value is replaced by it. -/
def reference (number : Nat) (span : Span) : Check Expr := do
  let v := (← get).variableAt number
  match v.constant with
  | some value => return .literal value v.ty span
  | none => return .variable_ number v.ty span

def anonymousField (block field : Nat) (span : Span) : Check Expr := do
  let ty := ((← get).variableAt block).ty
  let fieldTy := ((ty.fields?.getD [])[field]?.map (·.ty)).getD .poison
  return .field (.variable_ block ty span) field true fieldTy span

/-- What indexing a type gives, and the number of its elements where it is known. -/
def elements? : Ty → Option (Ty × Option Nat)
  | .array e n => some (e, n)
  | .vector s n => some (.scalar s, some n.toNat)
  | .matrix s c r => some (.vector s r, some c.toNat)
  | _ => none

def outside? (index : Expr) (count : Option Nat) : Option Int :=
  match index.constantInt?, count with
  | some i, some n => if i < 0 || (n : Int) ≤ i then some i else none
  | _, _ => none

def index (base index : Expr) (span : Span) : Check Expr := do
  if base.isPoisoned || index.isPoisoned then return poisoned span
  if !(index.ty.isScalar && index.ty.isInteger) then
    report (.indexNotInteger index.ty) index.span
    return poisoned span
  match elements? base.ty with
  | none =>
    report (.notIndexable base.ty) base.span
    return poisoned span
  | some (element, count) => match outside? index count with
    | some i =>
      report (.indexOutOfRange i base.ty) index.span
      return poisoned span
    | none => return .index base index element span

def alphabets : List (List Char) := [['x', 'y', 'z', 'w'], ['r', 'g', 'b', 'a'], ['s', 't', 'p', 'q']]

def letter? (c : Char) : Option (Nat × Fin 4) :=
  alphabets.zipIdx.findSome? fun (letters, set) =>
    match letters.idxOf? c with
    | some i => if h : i < 4 then some (set, ⟨i, h⟩) else none
    | none => none

/-- The components that the letters of a mask name on a value of `size` components; `set` is the
alphabet of the letters before, and `found` their components, last first. -/
def components (mask : String) (size : Nat) (set : Option Nat) (found : List (Fin 4)) :
    List Char → Except Problem (List (Fin 4))
  | [] => .ok found.reverse
  | c :: cs => match letter? c with
    | none => .error (.invalidSwizzle c)
    | some (s, i) =>
      if set.any (· != s) then .error (.mixedSwizzle mask)
      else if size ≤ i then .error (.invalidSwizzle c)
      else components mask size (some s) (i :: found) cs

def swizzle (base : Expr) (mask : String) (maskSpan : Span) : Check Expr := do
  let span := base.span.cover maskSpan
  let letters := mask.toList
  if 4 < letters.length then
    report (.swizzleTooLong mask) maskSpan
    return poisoned span
  match components mask base.ty.rows none [] letters with
  | .error p =>
    report p maskSpan
    return poisoned span
  | .ok cs => match Ty.vector? base.ty.component cs.length with
    | some ty => return .swizzle base cs ty span
    | none => return poisoned span

def field (base : Expr) (name : String) (nameSpan : Span) : Check Expr := do
  let span := base.span.cover nameSpan
  if base.isPoisoned then return poisoned span
  match base.ty.fields? with
  | some fields => match fields.zipIdx.find? (·.1.name == name) with
    | some (f, i) => return .field base i false f.ty span
    | none =>
      report (.unknownField base.ty name) nameSpan
      return poisoned span
  | none =>
    if base.ty.isVector || base.ty.isScalar then swizzle base name nameSpan
    else
      report (.noFields base.ty) nameSpan
      return poisoned span

end Shading.Check
