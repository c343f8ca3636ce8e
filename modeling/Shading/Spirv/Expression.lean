import Shading.Spirv.Memory
import Shading.Spirv.Operation

/-!
# Expressions in modules

The instructions of an expression are appended to the open block, in the order in which the parts
are computed. `&&`, `||` and `?:` become jumps only if what they may skip has effects. -/
namespace Shading.Spirv.Build

def step (op : Operator) (target : Target) (ty : Ty) : Build (Nat × Nat) := do
  let old ← loadTarget target ty
  let one ← splatConstant 1 ty
  let new ← arithmetic (if op = .increment then .add else .sub) old ty one ty ty
  storeTarget target new
  return (old, new)

/-- Where two ways through jumps meet: the value that the way taken has computed. -/
def phi (ty : Ty) (ways : List (Nat × Nat)) : Build Nat :=
  apply .phi ty (ways.flatMap fun (value, block) => [value, block])

def dynamicElement (value : Nat) (base : Ty) (index : Nat) (ty : Ty) : Build Nat := do
  if base.isVector then return ← apply .vectorExtractDynamic ty [value, index]
  let t ← temporary base
  store t value
  load (t.step index ty)

def selector (condition : Nat) (ty : Ty) : Build Nat :=
  match ty with
  | .vector _ n => splat condition (.vector .bool n)
  | _ => return condition

def mayStopEarly (op : Operator) : Bool := op matches .logicalAnd | .logicalOr

def logicalOp (op : Operator) : Op :=
  match op with
  | .logicalAnd => .logicalAnd
  | .logicalOr => .logicalOr
  | _ => .logicalNotEqual

/-- A logical operator whose left operand may decide the result, so that the right one may be
skipped. -/
def shortCircuit (op : Operator) (first : Nat) (right : Build Nat) : Build Nat := do
  let start := (← openBlock?).getD 0
  let other ← fresh
  let merge ← fresh
  selectionMerge merge
  if op = .logicalAnd then branchOn first other merge else branchOn first merge other
  label other
  let second ← right
  let stop := (← openBlock?).getD other
  let _ ← branch merge
  label merge
  phi .bool [(first, start), (second, stop)]

def choose (condition : Nat) (left right : Build Nat) (ty : Ty) : Build Nat := do
  let whenTrue ← fresh
  let whenFalse ← fresh
  let merge ← fresh
  selectionMerge merge
  branchOn condition whenTrue whenFalse
  label whenTrue
  let a ← left
  let aStop := (← openBlock?).getD whenTrue
  let _ ← branch merge
  label whenFalse
  let b ← right
  let bStop := (← openBlock?).getD whenFalse
  let _ ← branch merge
  label merge
  phi ty [(a, aStop), (b, bStop)]

structure Passed where
  /-- The variables that hold them, last first. -/
  pointers : List Nat := []
  /-- What is copied back after the call, last first. -/
  returned : List (Access × Target) := []

def finishCall (callee : Nat) (passed : Passed) (ty : Ty) : Build Nat := do
  let id ← apply .functionCall ty (callee :: passed.pointers.reverse)
  for (source, target) in passed.returned.reverse do
    let value ← load source
    storeTarget target value
  return id

def refuse (e : Expr) : Build Nat := do
  reportAt e.span .notALocation
  return 0

mutual
def value : Expr → Build Nat
  | .literal v ty _ => constant v ty
  | .variable_ n ty _ => do load (← variableAccess n ty)
  | .field b i _ ty _ => do
    match ← access? b with
    | some a =>
      let index ← intConstant i
      load (a.step index ty)
    | none =>
      let whole ← value b
      extract ty whole [i]
  | .index b i ty _ => do
    match ← access? b with
    | some a =>
      let index ← value i
      load (a.step index ty)
    | none =>
      let whole ← value b
      match i.constantInt? with
      | some n => extract ty whole [(Literal.word n).toNat]
      | none =>
        let index ← value i
        dynamicElement whole b.ty index ty
  | .swizzle b mask ty _ => do
    let whole ← value b
    if b.ty.isScalar then
      if mask.length = 1 then return whole else return ← splat whole ty
    swizzle whole mask ty
  | .unary op e ty _ => match op with
    | .sub => do negate (← value e) ty
    | .logicalNot => do apply .logicalNot ty [← value e]
    | .bitNot => do apply .not ty [← value e]
    | .increment | .decrement => do
      match ← target? e with
      | some target => return (← step op target e.ty).2
      | none => refuse e
    | _ => value e
  | .step op e _ _ => do
    match ← target? e with
    | some target => return (← step op target e.ty).1
    | none => refuse e
  | .binary op l r ty _ => do
    if op = .comma then
      let _ ← value l
      value r
    else if op.isAssignment then
      match ← target? l with
      | none => refuse l
      | some target =>
        if op = .assign then
          let new ← value r
          storeTarget target new
          return new
        else
          let old ← loadTarget target l.ty
          let change ← value r
          let new ← arithmetic op.underlying old l.ty change r.ty l.ty
          storeTarget target new
          return new
    else if mayStopEarly op && r.hasEffects (← read).program.isHarmless then
      let first ← value l
      shortCircuit op first (value r)
    else
      let a ← value l
      let b ← value r
      if op.isLogical then apply (logicalOp op) ty [a, b]
      else if op.isComparison then compare op a b l.ty
      else arithmetic op a l.ty b r.ty ty
  | .conditional c t f ty _ => do
    let harmless := (← read).program.isHarmless
    let condition ← value c
    if !t.hasEffects harmless && !f.hasEffects harmless && (ty.isScalar || ty.isVector) then
      let a ← value t
      let b ← value f
      let condition ← selector condition ty
      apply .select ty [condition, a, b]
    else choose condition (value t) (value f) ty
  | .construct kind as ty _ => do construct kind (← values [] as) ty
  | .call f as ty _ => do
    let g := (← read).program.functionAt f
    match g.intrinsic with
    | some i => intrinsic i (← values [] as) ty
    | none => match (← get).functionIds[f]? with
      | none =>
        report (.undefinedFunction g.name)
        return 0
      | some callee => finishCall callee (← pass {} g.parameters as) ty
  | .poison .. => return 0
def access? : Expr → Build (Option Access)
  | .variable_ n ty _ => return some (← variableAccess n ty)
  | .field b i _ ty _ => do
    match ← access? b with
    | some a => return some (a.step (← intConstant i) ty)
    | none => return none
  | .index b i ty _ => do
    match ← access? b with
    | some a => return some (a.step (← value i) ty)
    | none => return none
  | _ => return none
def target? : Expr → Build (Option Target)
  | .swizzle b mask _ _ => return (← target? b).map (Target.select mask)
  | .variable_ n ty _ => return some (.memory (← variableAccess n ty))
  | .field b i _ ty _ => do
    match ← access? b with
    | some a => return some (.memory (a.step (← intConstant i) ty))
    | none => return none
  | .index b i ty _ => do
    match ← access? b with
    | some a => return some (.memory (a.step (← value i) ty))
    | none => return none
  | _ => return none
def values (done : List (Nat × Ty)) : List Expr → Build (List (Nat × Ty))
  | [] => return done.reverse
  | e :: es => do
    let v ← value e
    values ((v, e.ty) :: done) es
def pass (done : Passed) (parameters : List Parameter) : List Expr → Build Passed
  | [] => return done
  | e :: es => match parameters with
    | [] => return done
    | p :: ps => do
      let t ← temporary p.ty
      if p.isOut then
        match ← target? e with
        | none =>
          let _ ← refuse e
          pass done ps es
        | some target =>
          if p.modifiers.has .input then
            let v ← loadTarget target e.ty
            store t v
          pass ⟨t.base :: done.pointers, (t, target) :: done.returned⟩ ps es
      else
        let v ← value e
        store t v
        pass { done with pointers := t.base :: done.pointers } ps es
end

end Shading.Spirv.Build
