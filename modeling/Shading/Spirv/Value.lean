import Shading.Spirv.Type

/-!
# Values

Values are ids of instructions. Composite values are put together and taken apart; where they are
constants this happens while the module is built, so that constants stay constants. -/
namespace Shading.Spirv.Build

def result (op : Op) (ty : Ty) (operands : List Operand) : Build Nat := do
  let type ← typeOf ty
  let id ← fresh
  relax id ty
  modify fun b => { b with body := { b.body with code := { op, type, result := id, operands } :: b.body.code } }
  return id

def apply (op : Op) (ty : Ty) (values : List Nat) : Build Nat := result op ty (Operand.ids values)

def areConstants (ids : List Nat) : Build Bool := do
  let templates := (← get).templates
  return ids.all fun id => templates[id]?.any Template.isConstant

/-- Follows indices into a constant as far as it is known: what is reached, and the indices that are
left. -/
def descend (templates : Std.TreeMap Nat Template) (value : Nat) : List Nat → Nat × List Nat
  | [] => (value, [])
  | i :: rest => match (templates[value]?.bind fun t => t.constituents[i]?) with
    | some part => descend templates part rest
    | none => (value, i :: rest)

/-- A part of a composite value; `type` is the type of the part. -/
def extractAs (type value : Nat) (indices : List Nat) : Build Nat := do
  match descend (← get).templates value indices with
  | (part, []) => return part
  | (whole, rest) =>
    compute .compositeExtract type (.id whole :: Operand.numbers (rest.map UInt32.ofNat))

def extract (ty : Ty) (value : Nat) (indices : List Nat) : Build Nat := do
  let type ← typeOf ty
  extractAs type value indices

/-- A composite value; a constant if all parts are. -/
def composite (ty : Ty) (parts : List Nat) : Build Nat := do
  if !parts.isEmpty && (← areConstants parts) then constantComposite ty parts
  else apply .compositeConstruct ty parts

def splat (value : Nat) (ty : Ty) : Build Nat := composite ty (List.replicate ty.rows value)

def scalars (value : Nat) (ty : Ty) : Build (List Nat) :=
  match ty with
  | .vector s n => (List.range n.toNat).mapM fun i => extract (.scalar s) value [i]
  | .matrix s c r =>
    ((List.range c.toNat).flatMap fun i => (List.range r.toNat).map fun j => [i, j]).mapM
      (extract (.scalar s) value)
  | _ => return [value]

def swizzle (value : Nat) (mask : List (Fin 4)) (ty : Ty) : Build Nat :=
  match mask with
  | [c] => extract ty value [c.val]
  | mask =>
    result .vectorShuffle ty (Operand.ids [value, value] ++
      Operand.numbers (mask.map fun c => UInt32.ofNat c.val))

def byColumns (ty : Ty) (column : Nat → Build Nat) : Build Nat := do
  composite ty (← (List.range ty.columns).mapM column)

def matrixOf (ty : Ty) (entry : Nat → Nat → Nat) : Build Nat :=
  match ty.column? with
  | none => return 0
  | some column => byColumns ty fun c => composite column ((List.range ty.rows).map (entry c))

end Shading.Spirv.Build
