import Shading.Spirv.Value

/-!
# Operators and functions on values

Which instructions an operator, a conversion, a constructor or an intrinsic becomes. Operators on
matrices work column by column, except for the products of linear algebra, which have instructions
of their own. -/
namespace Shading.Spirv.Build

def componentKind (ty : Ty) : ScalarKind := (ty.scalar?.map (·.kind)).getD .float

def negateOp (ty : Ty) : Op := if componentKind ty = .float then .fNegate else .sNegate

def negate (value : Nat) (ty : Ty) : Build Nat :=
  match ty.column? with
  | some column => byColumns ty fun c => do
    let part ← extract column value [c]
    apply (negateOp column) column [part]
  | none => apply (negateOp ty) ty [value]

/-! ### Arithmetic -/

def arithmeticOp? (op : Operator) (kind : ScalarKind) : Option Op :=
  match op, kind with
  | .add, .float => some .fAdd
  | .add, _ => some .iAdd
  | .sub, .float => some .fSub
  | .sub, _ => some .iSub
  | .mul, .float => some .fMul
  | .mul, _ => some .iMul
  | .div, .float => some .fDiv
  | .div, .unsigned => some .uDiv
  | .div, _ => some .sDiv
  | .rem, .float => some .fMod
  | .rem, .unsigned => some .uMod
  | .rem, _ => some .sMod
  | .shl, _ => some .shiftLeftLogical
  | .shr, .signed => some .shiftRightArithmetic
  | .shr, _ => some .shiftRightLogical
  | .bitAnd, _ => some .bitwiseAnd
  | .bitOr, _ => some .bitwiseOr
  | .bitXor, _ => some .bitwiseXor
  | _, _ => none

/-- The product of linear algebra for two shapes, and whether it takes its operands in the other
order. -/
def linearProduct? (left right : Ty) : Option (Op × Bool) :=
  match left, right with
  | .matrix .., .matrix .. => some (.matrixTimesMatrix, false)
  | .matrix .., .scalar _ => some (.matrixTimesScalar, false)
  | .matrix .., _ => some (.matrixTimesVector, false)
  | .scalar _, .matrix .. => some (.matrixTimesScalar, true)
  | _, .matrix .. => some (.vectorTimesMatrix, false)
  | .scalar _, .scalar _ => none
  | .scalar _, _ => some (.vectorTimesScalar, true)
  | _, .scalar _ => some (.vectorTimesScalar, false)
  | _, _ => none

def rightShape (op : Operator) (left right result : Ty) : Ty :=
  if op matches .shl | .shr then (Ty.vector? right.component left.rows).getD right else result

/-- An operator on scalars and vectors; a scalar beside a vector stands for all its components. -/
def componentwise (op : Operator) (l : Nat) (left : Ty) (r : Nat) (right ty : Ty) : Build Nat := do
  let l ← if left.isScalar && !right.isScalar then splat l ty else pure l
  let r ← if !left.isScalar && right.isScalar then splat r (rightShape op left right ty) else pure r
  match arithmeticOp? op (componentKind left) with
  | some code => apply code ty [l, r]
  | none => do
    report (.operatorUnsupported op)
    return 0

def operandColumn (value : Nat) (ty column : Ty) (c : Nat) : Build Nat :=
  if ty.isMatrix then extract column value [c] else splat value column

def arithmetic (op : Operator) (l : Nat) (left : Ty) (r : Nat) (right ty : Ty) : Build Nat :=
  let product := if op = .mul && componentKind left = .float then linearProduct? left right else none
  match product, ty.column? with
  | some (code, swapped), _ => apply code ty (if swapped then [r, l] else [l, r])
  | none, some column => byColumns ty fun c => do
    let lc ← operandColumn l left column c
    let rc ← operandColumn r right column c
    componentwise op lc column rc column column
  | none, none => componentwise op l left r right ty

/-! ### Comparisons -/

def comparisonOp (op : Operator) (kind : ScalarKind) : Op :=
  match op, kind with
  | .eq, .boolean => .logicalEqual
  | .ne, .boolean => .logicalNotEqual
  | .eq, .float => .fOrdEqual
  | .ne, .float => .fUnordNotEqual
  | .eq, _ => .iEqual
  | .ne, _ => .iNotEqual
  | .lt, .float => .fOrdLessThan
  | .lt, .unsigned => .uLessThan
  | .lt, _ => .sLessThan
  | .gt, .float => .fOrdGreaterThan
  | .gt, .unsigned => .uGreaterThan
  | .gt, _ => .sGreaterThan
  | .le, .float => .fOrdLessThanEqual
  | .le, .unsigned => .uLessThanEqual
  | .le, _ => .sLessThanEqual
  | .ge, .float => .fOrdGreaterThanEqual
  | .ge, .unsigned => .uGreaterThanEqual
  | _, _ => .sGreaterThanEqual

def compareFlat (op : Operator) (l r : Nat) (ty : Ty) : Build Nat := do
  let code := comparisonOp op (componentKind ty)
  match ty with
  | .vector _ n =>
    let components ← apply code (.vector .bool n) [l, r]
    apply (if op = .eq then .all else .any) .bool [components]
  | _ => apply code .bool [l, r]

def compareColumns (op : Operator) (l r : Nat) (column : Ty) (sofar : Option Nat) : List Nat → Build Nat
  | [] => return sofar.getD 0
  | c :: rest => do
    let lc ← extract column l [c]
    let rc ← extract column r [c]
    let one ← compareFlat op lc rc column
    let joined ← match sofar with
      | none => pure one
      | some previous => apply (if op = .eq then .logicalAnd else .logicalOr) .bool [previous, one]
    compareColumns op l r column (some joined) rest

def compare (op : Operator) (l r : Nat) (ty : Ty) : Build Nat := do
  if ty.isArray || ty.isStruct then
    report (.comparisonUnsupported ty)
    return 0
  match ty.column? with
  | some column => compareColumns op l r column none (List.range ty.columns)
  | none => compareFlat op l r ty

/-! ### Conversions -/

def convertFlat (value : Nat) (source dest : Ty) : Build Nat := do
  match componentKind source, componentKind dest with
  | .boolean, _ =>
    let whenTrue ← splatConstant 1 dest
    let whenFalse ← splatConstant 0 dest
    apply .select dest [value, whenTrue, whenFalse]
  | kind, .boolean =>
    let nothing ← splatConstant 0 source
    apply (if kind = .float then .fUnordNotEqual else .iNotEqual) dest [value, nothing]
  | .float, .signed => apply .convertFToS dest [value]
  | .float, .unsigned => apply .convertFToU dest [value]
  | .signed, .float => apply .convertSToF dest [value]
  | .unsigned, .float => apply .convertUToF dest [value]
  | .float, .float => return value
  | _, _ => apply .bitcast dest [value]

def sameType (source dest : Ty) : Build Bool := do
  let a ← typeOf source
  let b ← typeOf dest
  return a == b

def convert (value : Nat) (source dest : Ty) : Build Nat := do
  if ← sameType source dest then return value
  match source.column?, dest.column? with
  | some sourceColumn, some destColumn =>
    let columns ← (List.range source.columns).mapM fun c => do
      let part ← extract sourceColumn value [c]
      if ← sameType sourceColumn destColumn then pure part
      else convertFlat part sourceColumn destColumn
    composite dest columns
  | _, _ => convertFlat value source dest

/-! ### Constructors -/

def grouped (size count : Nat) (values : List Nat) : List (List Nat) :=
  (List.range count).map fun i => (values.drop (i * size)).take size

def compound (arguments : List (Nat × Ty)) (ty : Ty) : Build Nat := do
  let values := arguments.map (·.1)
  if ty.isVector && !(← areConstants values) then return ← apply .compositeConstruct ty values
  let parts ← arguments.mapM fun (v, t) => scalars v t
  match ty.column? with
  | some column =>
    let columns ← (grouped ty.rows ty.columns parts.flatten).mapM (composite column)
    composite ty columns
  | none => composite ty parts.flatten

def diagonal (value : Nat) (source ty : Ty) : Build Nat := do
  let value ← convert value source ty.component
  let elsewhere ← constant (.int 0) ty.component
  matrixOf ty fun c r => if c = r then value else elsewhere

def resize (value : Nat) (source ty : Ty) : Build Nat := do
  let onDiagonal ← constant (.int 1) ty.component
  let elsewhere ← constant (.int 0) ty.component
  let places := (List.range ty.columns).flatMap fun c => (List.range ty.rows).map fun r => (c, r)
  let parts ← places.mapM fun (c, r) =>
    if c < source.columns && r < source.rows then extract ty.component value [c, r]
    else return if c = r then onDiagonal else elsewhere
  matrixOf ty fun c r => parts.getD (c * ty.rows + r) 0

def construct (kind : ConstructorKind) (arguments : List (Nat × Ty)) (ty : Ty) : Build Nat :=
  match arguments with
  | [] => return 0
  | (first, source) :: _ => match kind with
    | .array | .struct => composite ty (arguments.map (·.1))
    | .scalarCast | .compoundCast => convert first source ty
    | .splat => do
      let value ← convert first source ty.component
      splat value ty
    | .compound => compound arguments ty
    | .diagonal => diagonal first source ty
    | .resize => resize first source ty

/-! ### Intrinsics -/

/-- The function of the extended instruction set that an intrinsic is for one kind of components;
`dot` has an instruction of its own. -/
def mathOp? (f : Intrinsic) (kind : ScalarKind) : Option MathOp :=
  match f, kind with
  | .dot, _ => none
  | .abs, .float => some .fAbs
  | .abs, _ => some .sAbs
  | .sign, .float => some .fSign
  | .sign, _ => some .sSign
  | .min, .float => some .fMin
  | .min, .unsigned => some .uMin
  | .min, _ => some .sMin
  | .max, .float => some .fMax
  | .max, .unsigned => some .uMax
  | .max, _ => some .sMax
  | .clamp, .float => some .fClamp
  | .clamp, .unsigned => some .uClamp
  | .clamp, _ => some .sClamp
  | .saturate, _ => some .fClamp
  | .floor, _ => some .floor
  | .ceil, _ => some .ceil
  | .fract, _ => some .fract
  | .mix, _ => some .fMix
  | .step, _ => some .step
  | .smoothStep, _ => some .smoothStep
  | .sqrt, _ => some .sqrt
  | .inverseSqrt, _ => some .inverseSqrt
  | .pow, _ => some .pow
  | .exp, _ => some .exp
  | .log, _ => some .log
  | .exp2, _ => some .exp2
  | .log2, _ => some .log2
  | .sin, _ => some .sin
  | .cos, _ => some .cos
  | .tan, _ => some .tan
  | .length, _ => some .length
  | .distance, _ => some .distance
  | .cross, _ => some .cross
  | .normalize, _ => some .normalize
  | .reflect, _ => some .reflect
  | .fma, _ => some .fma

def isComponentwise (f : Intrinsic) : Bool :=
  !(f matches .length | .distance | .cross | .normalize | .reflect)

def bounds (f : Intrinsic) (ty : Ty) : Build (List Nat) := do
  if f != .saturate then return []
  let low ← splatConstant 0 ty
  let high ← splatConstant 1 ty
  return [low, high]

def intrinsic (f : Intrinsic) (arguments : List (Nat × Ty)) (ty : Ty) : Build Nat :=
  match arguments with
  | [] => return 0
  | (first, firstTy) :: _ => do
    let kind := componentKind firstTy
    if f = .abs && kind = .unsigned then return first
    match mathOp? f kind with
    | none => apply (if firstTy.isScalar then .fMul else .dot) ty (arguments.map (·.1))
    | some code =>
      let extra ← bounds f ty
      let values ← arguments.mapM fun (v, t) =>
        if isComponentwise f && ty.isVector && t.isScalar then splat v ty else pure v
      result .extInst ty (.id (← get).mathSet :: .number code.code :: Operand.ids (values ++ extra))

end Shading.Spirv.Build
