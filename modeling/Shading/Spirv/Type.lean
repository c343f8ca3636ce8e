import Shading.Spirv.Builder

/-!
# Types and constants of modules

A type has one id for each memory layout it is used with, and the same id for all of them where the
layout makes no difference. A struct carries the offsets of its members, so it has ids of its own
for each layout; only a struct whose members are all scalars, vectors and matrices can use one id
both with a layout and without. -/
namespace Shading.Spirv.Build

def global (t : Template) : Build Nat := once .globals t

def wordOf (i : Int) : UInt32 := .ofBitVec (Literal.word i)

def scalarType (s : Scalar) : Build Nat :=
  let width := UInt32.ofNat s.width
  match s.kind with
  | .boolean => global { op := .typeBool }
  | .float => global { op := .typeFloat, operands := [.number width] }
  | .signed => global { op := .typeInt, operands := [.number width, .number 1] }
  | .unsigned => global { op := .typeInt, operands := [.number width, .number 0] }

def vectorType (s : Scalar) (size : Dim) : Build Nat := do
  let component ← scalarType s
  global { op := .typeVector, operands := [.id component, .number (.ofNat size.toNat)] }

def matrixType (s : Scalar) (columns rows : Dim) : Build Nat := do
  let column ← vectorType s rows
  global { op := .typeMatrix, operands := [.id column, .number (.ofNat columns.toNat)] }

def intConstant (i : Int) : Build Nat := do
  let type ← scalarType .int
  global { op := .constant, type, operands := [.number (wordOf i)] }

/-- An array type. A stride of zero is no stride. -/
def arrayType (element : Nat) (size : Option Nat) (stride : Nat) : Build Nat := do
  let id ← match size with
    | some n =>
      let length ← intConstant n
      global { op := .typeArray, operands := [.id element, .id length], sharing := .keyed stride }
    | none => global { op := .typeRuntimeArray, operands := [.id element], sharing := .keyed stride }
  if 0 < stride then decorate id .arrayStride [.ofNat stride]
  return id

def isLayoutFree (fields : List (Field Ty)) : Bool :=
  fields.all fun f => f.ty.isScalar || f.ty.isVector || f.ty.isMatrix

/-- The id of a struct type that is there already, perhaps under another layout. An id without a
layout that is taken for a layout is no longer one without. -/
def reusedStruct? (id : Nat) (name : String) (fields : List (Field Ty)) (layout : Option MemoryLayout) :
    Build (Option Nat) := do
  let ids := (← get).structs.getD id {}
  if !isLayoutFree fields then return none
  match layout with
  | none => match ids.std140.or ids.std430 with
    | some found =>
      note (.structShared name found)
      return some found
    | none => return none
  | some _ => match ids.free with
    | some found =>
      note (.structAdopted name found)
      modify fun b => { b with structs := b.structs.insert id { ids with free := none } }
      return some found
    | none => return none

def newStruct (name : String) (fields : List (Field Ty)) (block : Bool) (members : List Nat) : Build Nat := do
  let id ← global { op := .typeStruct, operands := Operand.ids members, sharing := .unique }
  Build.name id name
  for (f, i) in fields.zipIdx do
    nameMember id i f.name
    if isRelaxed f.ty then decorateMember id i .relaxedPrecision []
    decorateField f.modifiers id i
  if block then decorate id .block []
  return id

def reportMisplacement (f : Field Ty) : Misplacement → Build Unit
  | .tooSmall minimum => reportAt f.span (.offsetTooSmall f.name minimum)
  | .misaligned alignment => reportAt f.span (.offsetMisaligned f.name alignment)
  | .overflow => reportAt f.span (.fieldTooFar f.name)

def placeMember (id i : Nat) (f : Field Ty) (p : Placement) : Build Unit := do
  let leaf := f.ty.leaf
  if !leaf.isStruct && !MemoryLayout.supports leaf then
    reportAt f.span (.typeNotPermitted leaf)
  else
    if let some problem := p.problem then reportMisplacement f problem
    if !f.modifiers.isBuiltin then
      decorateMember id i .offset [.ofNat p.offset]
      if 0 < p.metrics.matrixStride then
        decorateMember id i .colMajor []
        decorateMember id i .matrixStride [.ofNat p.metrics.matrixStride]

def placeMembers (id : Nat) (fields : List (Field Ty)) : Option MemoryLayout → Build Unit
  | none => pure ()
  | some layout => do
    for ((f, p), i) in (fields.zip (layout.place fields)).zipIdx do placeMember id i f p

def rememberStruct (struct : Nat) (layout : Option MemoryLayout) (id : Nat) : Build Unit :=
  modify fun b => { b with structs := b.structs.insert struct ((b.structs.getD struct {}).put layout id) }

mutual
/-- The id of a type, laid out as the type of a block or of a part of one if a layout is given. -/
def typeIn (layout : Option MemoryLayout) : Ty → Build Nat
  | .void => global { op := .typeVoid }
  | .scalar s => scalarType s
  | .vector s n => vectorType s n
  | .matrix s c r => matrixType s c r
  | .array e n => do
    let stride := match layout with
      | some layout => (layout.metrics (.array e n)).arrayStride
      | none => 0
    let element ← typeIn layout e
    arrayType element n stride
  | .struct id name fields block => do
    if let some found := ((← get).structs.getD id {}).get? layout then return found
    match ← reusedStruct? id name fields layout with
    | some found =>
      if layout.isSome then
        rememberStruct id layout found
        placeMembers found fields layout
      return found
    | none =>
      let members ← memberTypes layout fields
      let made ← newStruct name fields block members
      rememberStruct id layout made
      placeMembers made fields layout
      return made
  | .generic s => do report (.typeNotPermitted (.generic s)); return 0
  | .poison => do report (.typeNotPermitted .poison); return 0
  | .invalid => do report (.typeNotPermitted .invalid); return 0
def memberTypes (layout : Option MemoryLayout) : List (Field Ty) → Build (List Nat)
  | [] => return []
  | ⟨_, ty, _, span⟩ :: fields => do
    setSpan span
    let type ← typeIn layout ty
    return type :: (← memberTypes layout fields)
end

def typeOf (ty : Ty) : Build Nat := typeIn none ty

def pointerType (type : Nat) (storage : StorageClass) : Build Nat :=
  global { op := .typePointer, operands := [.number storage.code, .id type] }

/-- The type of a function. Arguments are passed by reference. -/
def functionType (f : Function) : Build Nat := do
  let returns ← typeOf f.returns
  let parameters ← f.parameters.mapM fun p => do
    let type ← typeOf p.ty
    pointerType type .function
  global { op := .typeFunction, operands := Operand.ids (returns :: parameters) }

/-! ### Constants -/

def literalWord (v : Literal) (kind : Option ScalarKind) : UInt32 :=
  match v, kind with
  | v, some .float => v.toFloat.toFloat32.toBits
  | .int i, _ => wordOf i
  | v, _ => wordOf v.toFloat.toInt64.toInt

def constant (v : Literal) (ty : Ty) : Build Nat := do
  let type ← typeOf ty
  match v with
  | .bool true => global { op := .constantTrue, type }
  | .bool false => global { op := .constantFalse, type }
  | v => global { op := .constant, type, operands := [.number (literalWord v (ty.scalar?.map (·.kind)))] }

def constantComposite (ty : Ty) (constituents : List Nat) : Build Nat := do
  let type ← typeOf ty
  global { op := .constantComposite, type, operands := Operand.ids constituents }

def splatConstant (i : Int) (ty : Ty) : Build Nat := do
  let scalar ← constant (.int i) ty.component
  match ty with
  | .vector _ n => constantComposite ty (List.replicate n.toNat scalar)
  | .matrix s c r =>
    let column ← constantComposite (.vector s r) (List.replicate r.toNat scalar)
    constantComposite ty (List.replicate c.toNat column)
  | _ => return scalar

end Shading.Spirv.Build
