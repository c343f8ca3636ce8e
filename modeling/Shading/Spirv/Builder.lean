import Shading.Event
import Shading.Memory.Layout
import Shading.Program
import Shading.Spirv.WordBuffer
import Std.Data.TreeMap

/-!
# Building modules

A module grows in four lists: debug names, decorations, the types, constants and global variables,
and the functions. Instructions of the first three are written once: asking for an equal one again
gives the id that it has. -/
namespace Shading.Spirv

structure Setting where
  program : Program
  version : SpirvVersion

structure Place where
  pointer : Nat
  storage : StorageClass
  /-- How the type is laid out, inside of blocks. -/
  layout : Option MemoryLayout := none

/-- The ids of a struct type, one for each way to lay it out. -/
structure StructIds where
  free : Option Nat := none
  std140 : Option Nat := none
  std430 : Option Nat := none

namespace StructIds

def get? (ids : StructIds) : Option MemoryLayout → Option Nat
  | none => ids.free
  | some .std140 => ids.std140
  | some .std430 => ids.std430

def put (ids : StructIds) (layout : Option MemoryLayout) (id : Nat) : StructIds :=
  match layout with
  | none => { ids with free := some id }
  | some .std140 => { ids with std140 := some id }
  | some .std430 => { ids with std430 := some id }

end StructIds

/-- Where a `break` or a `continue` leads. -/
structure JumpTarget where
  label : Nat
  used : Bool := false

/-- The function that is being written; lists are newest first. -/
structure Body where
  /-- The start of the function, its parameters and the label of the first block. -/
  header : List Instruction := []
  /-- The variables, which stand at the start of the first block. -/
  locals : List Instruction := []
  code : List Instruction := []
  /-- The label of the open block; none if the last one has been closed. -/
  block : Option Nat := none
  breaks : List JumpTarget := []
  continues : List JumpTarget := []

inductive Mode where
  | originUpperLeft
  | depthReplacing
  | localSize

inductive Section where
  | names
  | decorations
  | globals

/-- A module in the making; lists are newest first. -/
structure Builder where
  /-- The next free id, without a limit; the words of a module hold its last 32 bits. Zero is no id:
  it stands for what could not be made. -/
  next : Nat := 1
  names : List Instruction := []
  decorations : List Instruction := []
  globals : List Instruction := []
  functions : List Instruction := []
  /-- The words of the functions. -/
  functionWords : WordBuffer := {}
  /-- The ids of the instructions that can be shared. -/
  ids : Std.TreeMap Template Nat (compareOn Template.key) := ∅
  /-- The instructions that ids stand for. -/
  templates : Std.TreeMap Nat Template := ∅
  /-- The ids of struct types, by the number of their declaration. -/
  structs : Std.TreeMap Nat StructIds := ∅
  places : Std.TreeMap Nat Place := ∅
  functionIds : Std.TreeMap Nat Nat := ∅
  mathSet : Nat := 0
  interface : List Nat := []
  /-- The initializers of global variables that the entry point runs. -/
  deferred : List (Nat × Expr) := []
  modes : List Mode := []
  readsInputAttachments : Bool := false
  usesStorageBuffers : Bool := false
  body : Body := {}
  /-- Where problems are found, unless something nearer is known. -/
  span : Span := .point 0
  journal : Journal := []

abbrev Build := ReaderT Setting (StateM Builder)

namespace Build

def report (problem : Problem) : Build Unit :=
  modify fun b => { b with journal := .problemFound ⟨problem, b.span⟩ :: b.journal }

def reportAt (span : Span) (problem : Problem) : Build Unit :=
  modify fun b => { b with journal := .problemFound ⟨problem, span⟩ :: b.journal }

def note (event : Event) : Build Unit := modify fun b => { b with journal := event :: b.journal }

def setSpan (span : Span) : Build Unit := modify fun b => { b with span }

def fresh : Build Nat := modifyGet fun b => (b.next, { b with next := b.next + 1 })

def append (part : Section) (i : Instruction) : Build Unit :=
  modify fun b => match part with
    | .names => { b with names := i :: b.names }
    | .decorations => { b with decorations := i :: b.decorations }
    | .globals => { b with globals := i :: b.globals }

/-- Remembers the id of an instruction, as far as others may share it or ask what it is. -/
def remember (t : Template) (id : Nat) : Build Unit :=
  modify fun b => match t.sharing with
    | .noResult => { b with ids := b.ids.insert t id }
    | .unique => { b with templates := b.templates.insert id t }
    | .shared | .keyed _ => { b with ids := b.ids.insert t id, templates := b.templates.insert id t }

/-- Writes an instruction and gives its id, which is zero if it has no result. -/
def write (part : Section) (t : Template) : Build Nat := do
  let id ← if t.sharing = .noResult then pure 0 else fresh
  append part (t.instruction id)
  remember t id
  return id

/-- Writes an instruction unless an equal one has been written, and gives its id. -/
def once (part : Section) (t : Template) : Build Nat := do
  match (← get).ids[t]? with
  | some id =>
    note (.instructionShared id)
    return id
  | none => write part t

def decorate (target : Nat) (d : Decoration) (numbers : List UInt32) : Build Unit := do
  let _ ← once .decorations
    { op := .decorate, operands := .id target :: .number d.code :: Operand.numbers numbers, sharing := .noResult }

def decorateMember (target member : Nat) (d : Decoration) (numbers : List UInt32) : Build Unit := do
  let _ ← once .decorations
    { op := .memberDecorate, sharing := .noResult,
      operands := .id target :: .number (.ofNat member) :: .number d.code :: Operand.numbers numbers }

def name (target : Nat) (name : String) : Build Unit := do
  if (← read).program.options.emitNames && !name.isEmpty then
    let _ ← once .names { op := .name, operands := .id target :: textOperands name, sharing := .noResult }

def nameMember (target member : Nat) (name : String) : Build Unit := do
  if (← read).program.options.emitNames then
    let _ ← once .names
      { op := .memberName, operands := .id target :: .number (.ofNat member) :: textOperands name,
        sharing := .noResult }

def isRelaxed (ty : Ty) : Bool := ty.leaf.scalar?.any Scalar.isRelaxed

def relax (id : Nat) (ty : Ty) : Build Unit := do
  if isRelaxed ty then decorate id .relaxedPrecision []

def qualifierDecorations (flags : Qualifiers) : List Decoration :=
  let interpolation : List Decoration :=
    if flags.contains .smooth then []
    else if flags.contains .noperspective then [.noPerspective]
    else if flags.contains .flat then [.flat]
    else []
  let memory : List (Bool × Decoration) :=
    [(flags.contains .volatile, .volatile), (flags.contains .coherent || flags.contains .volatile, .coherent),
     (flags.contains .restrict, .restrict), (flags.contains .readonly, .nonWritable),
     (flags.contains .writeonly, .nonReadable)]
  interpolation ++ (memory.filter (·.1)).map (·.2)

def given (numbers : List (Decoration × Option Nat)) : List (Decoration × Nat) :=
  numbers.filterMap fun (d, n) => n.map (d, ·)

def decorateVariable (m : Modifiers) (target : Nat) : Build Unit := do
  let l := m.layout
  for (d, n) in given [(.location, l.location), (.component, l.component), (.index, l.index),
    (.binding, l.binding),
      (.descriptorSet, l.set), (.inputAttachmentIndex, l.inputAttachmentIndex), (.builtIn, l.builtin)] do
    decorate target d [.ofNat n]
  if l.inputAttachmentIndex.isSome then modify fun b => { b with readsInputAttachments := true }
  for d in qualifierDecorations m.flags do decorate target d []

def decorateField (m : Modifiers) (target member : Nat) : Build Unit := do
  let l := m.layout
  for (d, n) in given [(.location, l.location), (.component, l.component), (.builtIn, l.builtin)] do
    decorateMember target member d [.ofNat n]
  for d in qualifierDecorations m.flags do decorateMember target member d []

/-! ### Function bodies -/

def emit (op : Op) (operands : List Operand) : Build Unit :=
  modify fun b => { b with body := { b.body with code := { op, operands } :: b.body.code } }

def compute (op : Op) (type : Nat) (operands : List Operand) : Build Nat := do
  let id ← fresh
  modify fun b => { b with body := { b.body with code := { op, type, result := id, operands } :: b.body.code } }
  return id

def openBlock? : Build (Option Nat) := return (← get).body.block

def label (label : Nat) : Build Unit :=
  modify fun b => { b with body :=
    { b.body with code := { op := .label, result := label } :: b.body.code, block := some label } }

def terminate (op : Op) (operands : List Operand) : Build Unit := do
  emit op operands
  modify fun b => { b with body := { b.body with block := none } }

/-- Closes the open block, if there is one, with a jump; tells whether there was one. -/
def branch (target : Nat) : Build Bool := do
  match ← openBlock? with
  | none => return false
  | some _ =>
    terminate .branch [.id target]
    return true

def branchOn (condition whenTrue whenFalse : Nat) : Build Unit :=
  terminate .branchConditional (Operand.ids [condition, whenTrue, whenFalse])

def selectionMerge (merge : Nat) : Build Unit := emit .selectionMerge [.id merge, .number 0]

end Build
end Shading.Spirv
