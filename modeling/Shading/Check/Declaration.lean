import Shading.Check.Conversion

/-!
# Checked declarations

Variables, functions and the fields of structs, entered into the tables of the program. What is
wrong with a declaration is reported, and the declaration is entered all the same wherever a later
use could refer to it. -/
namespace Shading.Check

def isConstant (c : Context) (e : Expr) : Bool :=
  e.isConstant (fun n => (c.variableAt n).modifiers.isConst) (fun n => (c.functionAt n).intrinsic.isSome)

/-- The value of a constant that is known from now on; an initializer that is not constant is
reported. -/
def constantValue (modifiers : Modifiers) (initializer : Option Expr) : Check (Option Literal) := do
  match initializer with
  | some e =>
    if modifiers.isConst then
      reportIf (!e.isPoison && !isConstant (← get) e) .initializerNotConstant e.span
      return e.literal?
    else return none
  | none => return none

def checkInitializer (modifiers : Modifiers) (name : String) (span : Span) (initialized : Bool) : Check Unit := do
  match (modifiers.flags.inter Qualifiers.interface).toList with
  | q :: _ => reportIf initialized (.initializedInterface q) span
  | [] => pure ()
  reportIf (modifiers.isConst && !initialized) (.uninitializedConst name) span

def declareVariable (modifiers : Modifiers) (ty : Ty) (name : String) (span : Span) (initializer : Option Expr)
    (storage : Storage) : Check (Nat × Option Expr) := do
  reportIf ty.isVoid (.voidVariable name) span
  reportIf ty.containsUnsized .unsizedArray span
  checkInitializer modifiers name span initializer.isSome
  let initializer ← initializer.mapM (coerce · ty)
  let constant ← constantValue modifiers initializer
  let number ← addVariable { name, ty, modifiers, storage, span, constant }
  let _ ← bindName name (.variable_ number) span
  return (number, initializer)

def sameSignature? (c : Context) (name : String) (parameters : List Parameter) : Option Nat :=
  match c.scopes.find? name with
  | some (.functions overloads) =>
    overloads.find? fun n => (c.functionAt n).parameterTypes == parameters.map (·.ty)
  | _ => none

def redeclare (number : Nat) (returns : Ty) (name : String) (span : Span) (parameters : List Parameter) :
    Check (Option Nat) := do
  let c ← get
  let f := c.functionAt number
  if c.functions.isBase number then
    report (.duplicateIntrinsic name) span
    return none
  else if f.returns ≠ returns then
    report (.returnTypesDiffer name) span
    return none
  else
    let differ := f.parameters.map (·.modifiers.flags) != parameters.map (·.modifiers.flags)
    reportIf differ (.parameterModifiersDiffer name) span
    return some number

/-- Declares a function, or finds the declaration that it repeats. There is no result if no
declaration can be used. -/
def declareFunction (modifiers : Modifiers) (returns : Ty) (name : String) (span : Span)
    (parameters : List Parameter) :
    Check (Option Nat) := do
  let c ← get
  match sameSignature? c name parameters with
  | some number => redeclare number returns name span parameters
  | none =>
    let number := c.functions.next
    let ordinal := c.functions.items.size
    modify fun c => { c with
      functions := c.functions.push { name, returns, parameters, modifiers, span, defined := false, ordinal } }
    if ← bindName name (.functions [number]) span then
      note (.functionDeclared name ordinal)
      return some number
    else return none

/-- Marks the body of a function as seen. The result tells whether there was one already, which is
reported. -/
def markDefined (number : Nat) (name : String) (span : Span) : Check Bool := do
  if ((← get).functionAt number).defined then
    report (.duplicateDefinition name) span
    return true
  else
    modify fun c => { c with functions := c.functions.modify number fun f => { f with defined := true } }
    return false

/-- Checks where arrays without a size stand among fields: only as the last field of a `buffer`
block. -/
def checkUnsized (buffer : Bool) : List (Field Ty) → Check Unit
  | [] => return ()
  | f :: fs => do
    let allowed := buffer && fs.isEmpty && f.ty.isUnsizedArray && (← get).kind.allowsUnsizedArrays
    reportIf (f.ty.containsUnsized && !allowed) (.unsizedField f.name) f.span
    checkUnsized buffer fs

end Shading.Check
