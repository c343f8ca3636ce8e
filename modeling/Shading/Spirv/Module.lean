import Shading.Compilation
import Shading.Spirv.Statement

/-!
# Modules

A whole program as a SPIR-V module: a header of five words and the instructions, in the order that
SPIR-V asks for. -/
namespace Shading
namespace Spirv

structure Module where
  version : SpirvVersion
  bound : Nat
  instructions : List Instruction
  /-- The words of the instructions. -/
  code : WordBuffer

namespace Module

def magic : UInt32 := 0x07230203

def header (m : Module) : List UInt32 := [magic, m.version.word, 0, UInt32.ofNat m.bound, 0]

def words (m : Module) : List UInt32 := m.header ++ m.code.words.reverse

end Module

def Mode.words : Mode → List UInt32
  | originUpperLeft => [7]
  | depthReplacing => [12]
  | localSize => [17, 1, 1, 1]

def stage? : ShaderKind → Option UInt32
  | .base => none
  | .vertex => some 0
  | .fragment => some 4
  | .compute => some 5

def stageModes : ShaderKind → List Mode
  | .base | .vertex => []
  | .fragment => [.originUpperLeft]
  | .compute => [.localSize]

mutual
/-- Whether an expression is made of constants alone, so that no function is needed to compute
it. -/
def isConstantTree : Expr → Bool
  | .literal .. => true
  | .construct kind as _ _ => !(kind matches .scalarCast | .compoundCast) && areConstantTrees as
  | _ => false
def areConstantTrees : List Expr → Bool
  | [] => true
  | a :: as => isConstantTree a && areConstantTrees as
end

/-- The storage class of a global variable outside of blocks; `uniform` and `buffer` variables have
none. -/
def globalStorage (m : Modifiers) : Except Qualifier StorageClass :=
  if m.has .uniform then .error .uniform
  else if m.has .buffer then .error .buffer
  else if m.has .input then .ok .input
  else if m.has .output then .ok .output
  else if m.has .workgroup then .ok .workgroup
  else .ok .private_

def explicitLayout? (m : Modifiers) : Option MemoryLayout :=
  if m.layout.flags.contains .std430 then some .std430
  else if m.layout.flags.contains .std140 then some .std140
  else none

def blockStorage (m : Modifiers) : StorageClass × Option MemoryLayout :=
  let explicit := explicitLayout? m
  if m.has .uniform then
    if m.layout.flags.contains .pushConstant then (.pushConstant, explicit.or (some .std430))
    else (.uniform, explicit.or (some .std140))
  else if m.has .buffer then (.storageBuffer, explicit.or (some .std430))
  else if m.has .input then (.input, none)
  else (.output, none)

def isListed (version : SpirvVersion) (storage : StorageClass) : Bool :=
  version.atLeast 4 || storage matches .input | .output

def functionControl (m : Modifiers) : UInt32 :=
  (if m.has .inlineFn then 1 else 0) + (if m.has .noinlineFn then 2 else 0) + (if m.has .pureFn then 4 else 0)

namespace Build

/-! ### Global variables -/

def newGlobal (number pointer : Nat) (storage : StorageClass) (layout : Option MemoryLayout)
    (initial : Option Nat) :
    Build Unit := do
  let s ← read
  let v := s.program.variableAt number
  let id ← fresh
  append .globals
    { op := .variable_, type := pointer, result := id,
      operands := .number storage.code :: Operand.ids initial.toList }
  name id v.name
  decorateVariable v.modifiers id
  relax id v.ty
  if isListed s.version storage then modify fun b => { b with interface := id :: b.interface }
  modify fun b => { b with places := b.places.insert number { pointer := id, storage, layout } }

/-- The initial value of a global variable. What is no constant is left to the entry point, if there
will be one. -/
def initialValue (number : Nat) (storage : StorageClass) (e : Expr) : Build (Option Nat) := do
  let p := (← read).program
  if storage = .private_ && isConstantTree e then return some (← value e)
  else if p.kind.requiresEntryPoint then
    modify fun b => { b with deferred := (number, e) :: b.deferred }
    return none
  else
    reportAt e.span (.globalInitializerNotConstant (p.variableAt number).name)
    return none

def globalVariable (number : Nat) (initializer : Option Expr) (span : Span) : Build Unit := do
  setSpan span
  let p := (← read).program
  let v := p.variableAt number
  match globalStorage v.modifiers with
  | .error q => reportAt span (.looseInterfaceVariable q v.name)
  | .ok storage =>
    let type ← typeOf v.ty
    let pointer ← pointerType type storage
    let initial ← match initializer with
      | some e => initialValue number storage e
      | none => pure none
    newGlobal number pointer storage none initial
    if v.modifiers.layout.builtin = some PipelineVariable.fragDepth && p.kind = .fragment then
      modify fun b => { b with modes := .depthReplacing :: b.modes }

/-- The type of a block inside its first array dimension. Further dimensions are not written: a
struct without members has their name. -/
def blockType (ty : Ty) (layout : Option MemoryLayout) : Build Nat :=
  if ty.isArray then newStruct ty.name [] false [] else typeIn layout ty

def interfaceBlock (number : Nat) (span : Span) : Build Unit := do
  setSpan span
  let s ← read
  let v := s.program.variableAt number
  let (storage, layout) := blockStorage v.modifiers
  if storage = .storageBuffer && !s.version.atLeast 3 then modify fun b => { b with usesStorageBuffers := true }
  let type ← match v.ty with
    | .array e n => do
      let block ← blockType e layout
      arrayType block n 0
    | ty => typeIn layout ty
  let pointer ← pointerType type storage
  newGlobal number pointer storage layout none

/-! ### Functions -/

def appendHeader (i : Instruction) : Build Unit :=
  modify fun b => { b with body := { b.body with header := i :: b.body.header } }

def parameter (number : Nat) : Build Unit := do
  let v := (← read).program.variableAt number
  let type ← typeOf v.ty
  let pointer ← pointerType type .function
  let id ← fresh
  name id v.name
  relax id v.ty
  modify fun b => { b with places := b.places.insert number { pointer := id, storage := .function } }
  appendHeader { op := .functionParameter, type := pointer, result := id }

def openFirst : Build Unit := do
  let entry ← fresh
  appendHeader { op := .label, result := entry }
  modify fun b => { b with body := { b.body with block := some entry } }

def runDeferred : Build Unit := do
  let deferred := (← get).deferred.reverse
  modify fun b => { b with deferred := [] }
  for (number, e) in deferred do
    let v ← value e
    let access ← variableAccess number e.ty
    store access v

def finishBlock (returns : Ty) : Build Unit := do
  if (← openBlock?).isSome then
    if returns.isVoid then terminate .return_ [] else terminate .unreachable []

def startFunction (f : Function) (id returns type : Nat) : Build Unit := do
  modify fun b => { b with body := {} }
  appendHeader
    { op := .function, type := returns, result := id, operands := [.number (functionControl f.modifiers), .id type] }
  name id f.name

def endFunction : Build Unit :=
  modify fun b => { b with
    functions := { op := .functionEnd } :: (b.body.code ++ (b.body.locals ++ (b.body.header ++ b.functions)))
    functionWords := (((b.functionWords.append (.ofNewest b.body.header)).append (.ofNewest b.body.locals)).append
      (.ofNewest b.body.code)).write { op := .functionEnd }
    body := {} }

def functionDefinition (f : Function) (id : Nat) (parameters : List Nat) (body : Stmt) : Build Unit := do
  note (.functionStarted f.name id)
  let returns ← typeOf f.returns
  let type ← functionType f
  startFunction f id returns type
  parameters.forM parameter
  openFirst
  if f.isMain && (← read).program.kind.requiresEntryPoint then runDeferred
  statement body
  finishBlock f.returns
  endFunction

/-! ### Modules -/

/-- Sets an id aside for each function, so that functions can call each other. -/
def reserve : Element → Build Unit
  | .definition f _ _ _ => do
    let id ← fresh
    modify fun b => { b with functionIds := b.functionIds.insert f id }
  | _ => pure ()

def declaration : Element → Build Unit
  | .struct ty span => do
    setSpan span
    let _ ← typeOf ty
  | .block n span => interfaceBlock n span
  | .global n init span => globalVariable n init span
  | .prototype .. | .definition .. => pure ()

def definition : Element → Build Unit
  | .definition f parameters body span => do
    setSpan span
    let p := (← read).program
    let g := p.functionAt f
    match (← get).functionIds[f]? with
    | none => pure ()
    | some id =>
      functionDefinition g id parameters body
      if p.kind = .base && g.modifiers.has .exported then
        decorate id .linkageAttributes (textWords g.name ++ [0])
  | _ => pure ()

def parts : Build Unit := do
  let p := (← read).program
  let mathSet ← fresh
  modify fun b => { b with mathSet, modes := (stageModes p.kind).reverse }
  p.elements.forM reserve
  p.elements.forM declaration
  p.elements.forM definition

end Build

namespace Builder

def capability (number : UInt32) : Instruction := { op := .capability, operands := [.number number] }

def capabilities (b : Builder) (kind : ShaderKind) : List Instruction :=
  capability 1 :: (if kind = .base then [capability 5] else [])
    ++ (if b.readsInputAttachments then [capability 40] else [])

def extensions (b : Builder) : List Instruction :=
  if b.usesStorageBuffers then
    [{ op := .extension, operands := textOperands "SPV_KHR_storage_buffer_storage_class" }]
  else []

def entryPoint (b : Builder) (p : Program) : List Instruction :=
  match stage? p.kind, p.entryPoint?.bind fun f => b.functionIds[f]? with
  | some stage, some main =>
    { op := .entryPoint,
      operands := .number stage :: .id main :: textOperands "main" ++ Operand.ids b.interface.reverse }
      :: b.modes.reverse.map fun m => { op := .executionMode, operands := .id main :: Operand.numbers m.words }
  | _, _ => []

def preamble (b : Builder) (p : Program) : List Instruction :=
  b.capabilities p.kind ++ b.extensions
    ++ [{ op := .extInstImport, result := b.mathSet, operands := textOperands "GLSL.std.450" },
      { op := .memoryModel, operands := [.number 0, .number 1] }]
    ++ b.entryPoint p

/-- The words of all parts, in the order that they have in a module. -/
def assemble (b : Builder) (p : Program) : WordBuffer :=
  (((WordBuffer.writeAll {} (b.preamble p)).append (.ofNewest b.names)).append (.ofNewest b.decorations)).append
    (.ofNewest b.globals) |>.append b.functionWords

def module (b : Builder) (s : Setting) : Module :=
  { version := s.version, bound := b.next,
    instructions := b.preamble s.program ++ b.names.reverse ++ b.decorations.reverse ++ b.globals.reverse
      ++ b.functions.reverse
    code := b.assemble s.program }

end Builder
end Spirv

def Program.toSpirv (p : Program) (version : SpirvVersion) : Compilation Spirv.Module :=
  let s : Spirv.Setting := ⟨p, version⟩
  let started := Event.spirvStarted version p.kind p.elements.length
  let b := ((Spirv.Build.parts.run s).run { journal := [started] }).2
  if b.journal.hasProblems then ⟨.error (.failed b.journal.diagnostics), b.journal⟩
  else
    let m := b.module s
    match m.code.oversized with
    | some count => ⟨.error (.tooManyWords count), b.journal⟩
    | none => ⟨.ok m, .spirvFinished m.words.length m.bound :: b.journal⟩

end Shading
