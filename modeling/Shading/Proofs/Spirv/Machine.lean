import Shading.Proofs.Spirv.Folding

/-! A machine that runs straight code on composites and variables. Ids have values, and variables
have contents; an instruction defines its result or changes a variable. -/
namespace Shading.Spirv

/-- The value of an id: scalars, composites of them, and pointers into variables. -/
inductive Value where
  | scalar (datum : Datum)
  | composite (parts : List Value)
  | pointer (base : Nat) (path : List Nat)

namespace Value

/-- The part that a path of member numbers leads to. -/
def get? : Value → List Nat → Option Value
  | v, [] => some v
  | composite vs, i :: path => (vs[i]?).bind fun v => v.get? path
  | _, _ :: _ => none

/-- The value with another part at the end of a path. -/
def set? (new : Value) : Value → List Nat → Option Value
  | _, [] => some new
  | composite vs, i :: path => (vs[i]?).bind fun v => (set? new v path).map fun v => composite (vs.set i v)
  | _, _ :: _ => none

def parts? : Value → Option (List Value)
  | composite vs => some vs
  | _ => none

/-- The member number that a scalar stands for. -/
def index? : Value → Option Nat
  | scalar (.word w) => some w.toNat
  | _ => none

/-- A vector is put together from scalars and from the components of vectors. -/
def flat (vs : List Value) : List Value := vs.flatMap fun v => v.parts?.getD [v]

lemma get?_set? {new v v' : Value} {path : List Nat} (h : set? new v path = some v') :
    v'.get? path = some new := by
  induction path generalizing v v' with
  | nil => cases h; rfl
  | cons i path ih => cases v with
    | composite vs =>
      simp only [set?, Option.bind_eq_some_iff, Option.map_eq_some_iff] at h
      obtain ⟨part, hpart, part', hset, rfl⟩ := h
      obtain ⟨hi, -⟩ := List.getElem?_eq_some_iff.mp hpart
      simp [get?, hi, ih hset]
    | _ => cases h

lemma get?_append {v part : Value} {path : List Nat} (h : v.get? path = some part)
    (rest : List Nat) : v.get? (path ++ rest) = part.get? rest := by
  induction path generalizing v with
  | nil => cases h; rfl
  | cons i path ih => cases v with
    | composite vs =>
      obtain ⟨u, hu, hpart⟩ := Option.bind_eq_some_iff.mp h
      simpa [get?, hu] using ih hpart
    | _ => cases h

lemma isSome_set? {new v old : Value} {path : List Nat} (h : v.get? path = some old) : ∃ v',
    set? new v path = some v' := by
  induction path generalizing v with
  | nil => exact ⟨new, rfl⟩
  | cons i path ih => cases v with
    | composite vs =>
      obtain ⟨part, hpart, hget⟩ := Option.bind_eq_some_iff.mp h
      obtain ⟨part', hset⟩ := ih hget
      exact ⟨composite (vs.set i part'), by simp [set?, hpart, hset]⟩
    | _ => cases h

end Value

structure Machine where
  values : Nat → Option Value
  «variables» : Nat → Option Value

def Operand.number? : Operand → Option Nat
  | number w => some w.toNat
  | id _ => none

namespace Machine

def define (M : Machine) (x : Nat) (v : Value) : Machine :=
    { M with values := Function.update M.values x (some v) }

/-- What a pointer leads to. -/
def read (M : Machine) : Value → Option Value
  | .pointer base path => (M.variables base).bind (·.get? path)
  | _ => none

/-- The machine after a write through a pointer. -/
def write (M : Machine) (new : Value) : Value → Option Machine
  | .pointer base path => (M.variables base).bind fun whole => (Value.set? new whole path).map fun whole =>
      { M with «variables» := Function.update M.variables base (some whole) }
  | _ => none

/-- What an instruction computes, given which types are vectors. Other instructions, and those whose
operands do not have what they ask for, have no value. -/
def eval? (V : Nat → Bool) (M : Machine) (i : Instruction) : Option Value :=
  match i.op, i.operands with
  | .compositeExtract, .id c :: path => do (← M.values c).get? (← path.mapM Operand.number?)
  | .compositeInsert, .id o :: .id c :: path =>
    do Value.set? (← M.values o) (← M.values c) (← path.mapM Operand.number?)
  | .compositeConstruct, parts => do
    let vs ← (← parts.mapM Operand.id?).mapM M.values
    return .composite (if i.type.any V then Value.flat vs else vs)
  | .vectorShuffle, .id a :: .id b :: chosen => do
    let all := (← (← M.values a).parts?) ++ (← (← M.values b).parts?)
    return .composite (← (← chosen.mapM Operand.number?).mapM (all[·]?))
  | .accessChain, .id base :: indices => do
    let .pointer base path ← M.values base | none
    return .pointer base (path ++ (← (← indices.mapM Operand.id?).mapM fun x => (M.values x).bind Value.index?))
  | .load, [.id p] => do M.read (← M.values p)
  | _, _ => none

def exec (V : Nat → Bool) (M : Machine) (i : Instruction) : Option Machine :=
  match i.result, i.op, i.operands with
  | some x, _, _ => (M.eval? V i).map (M.define x)
  | none, .store, [.id p, .id x] => do M.write (← M.values x) (← M.values p)
  | none, _, _ => none

def run (V : Nat → Bool) (M : Machine) (is : List Instruction) : Option Machine := is.foldlM (exec V) M

variable {V : Nat → Bool} {M M' : Machine} {i : Instruction} {is js : List Instruction} {x : Nat}

@[simp] lemma define_self (M : Machine) (x : Nat) (v : Value) : (M.define x v).values x = some v :=
    Function.update_self ..

lemma define_of_ne {y : Nat} (v : Value) (h : y ≠ x) : (M.define x v).values y = M.values y :=
    Function.update_of_ne h ..

lemma values_write {p new : Value} (h : M.write new p = some M') : M'.values = M.values := by
  cases p with
  | pointer base path =>
    simp only [write, Option.bind_eq_some_iff, Option.map_eq_some_iff] at h
    obtain ⟨_, _, _, _, rfl⟩ := h
    rfl
  | _ => cases h

lemma read_write {p new : Value} (h : M.write new p = some M') : M'.read p = some new := by
  cases p with
  | pointer base path =>
    simp only [write, Option.bind_eq_some_iff, Option.map_eq_some_iff] at h
    obtain ⟨_, _, _, hset, rfl⟩ := h
    simp [read, Value.get?_set? hset]
  | _ => cases h

lemma run_append : M.run V (is ++ js) = (M.run V is).bind (·.run V js) := List.foldlM_append

end Machine
end Shading.Spirv
