import Shading.Span
import Shading.FlagSet

/-!
# Modifiers

What may stand in front of a declaration: qualifier words and `layout(...)` groups.
-/
namespace Shading

inductive Qualifier where
  | const | uniform | input | output | flat | noperspective | smooth
  | coherent | volatile | restrict | readonly | writeonly | buffer | workgroup
  | pureFn | inlineFn | noinlineFn | exported
deriving DecidableEq, Repr

namespace Qualifier

def keyword : Qualifier → String
  | const => "const" | uniform => "uniform" | input => "in" | output => "out" | flat => "flat"
  | noperspective => "noperspective" | smooth => "smooth" | coherent => "coherent" | volatile => "volatile"
  | restrict => "restrict" | readonly => "readonly" | writeonly => "writeonly" | buffer => "buffer"
  | workgroup => "workgroup" | pureFn => "pure" | inlineFn => "inline" | noinlineFn => "noinline"
  | exported => "export"

def all : List Qualifier :=
  [const, uniform, input, output, flat, noperspective, smooth, coherent, volatile, restrict,
    readonly, writeonly, buffer,
   workgroup, pureFn, inlineFn, noinlineFn, exported]

def index : Qualifier → Nat
  | const => 0 | uniform => 1 | input => 2 | output => 3 | flat => 4 | noperspective => 5 | smooth => 6
  | coherent => 7 | volatile => 8 | restrict => 9 | readonly => 10 | writeonly => 11 | buffer => 12
  | workgroup => 13 | pureFn => 14 | inlineFn => 15 | noinlineFn => 16 | exported => 17

instance : Flag Qualifier := ⟨all, index⟩

end Qualifier

abbrev Qualifiers := FlagSet Qualifier

namespace Qualifiers

def interpolation : Qualifiers := .ofList [.flat, .noperspective, .smooth]

def memory : Qualifiers := .ofList [.coherent, .volatile, .restrict, .readonly, .writeonly]

def storage : Qualifiers := .ofList [.uniform, .input, .output, .buffer, .workgroup]

def function : Qualifiers := .ofList [.pureFn, .inlineFn, .noinlineFn, .exported]

def interface : Qualifiers := .ofList [.uniform, .input, .output, .buffer]

end Qualifiers

inductive LayoutFlag where
  | originUpperLeft | pixelCenterInteger | earlyFragmentTests | blendSupportAllEquations
    | pushConstant | std140 | std430
deriving DecidableEq, Repr

namespace LayoutFlag

def keyword : LayoutFlag → String
  | originUpperLeft => "origin_upper_left"
  | pixelCenterInteger => "pixel_center_integer"
  | earlyFragmentTests => "early_fragment_tests"
  | blendSupportAllEquations => "blend_support_all_equations"
  | pushConstant => "push_constant"
  | std140 => "std140"
  | std430 => "std430"

def all : List LayoutFlag :=
  [originUpperLeft, pixelCenterInteger, earlyFragmentTests, blendSupportAllEquations, pushConstant, std140, std430]

def index : LayoutFlag → Nat
  | originUpperLeft => 0 | pixelCenterInteger => 1 | earlyFragmentTests => 2 | blendSupportAllEquations => 3
  | pushConstant => 4 | std140 => 5 | std430 => 6

instance : Flag LayoutFlag := ⟨all, index⟩

def ofKeyword? (key : String) : Option LayoutFlag := all.find? fun f => f.keyword == key

end LayoutFlag

inductive LayoutKey where
  | location | component | index | binding | offset | align | set | inputAttachmentIndex | builtin
deriving DecidableEq, Repr

namespace LayoutKey

def keyword : LayoutKey → String
  | location => "location" | component => "component" | index => "index" | binding => "binding"
  | offset => "offset" | align => "align" | set => "set"
  | inputAttachmentIndex => "input_attachment_index" | builtin => "builtin"

def all : List LayoutKey := [location, component, index, binding, offset, align, set,
    inputAttachmentIndex, builtin]

def ofKeyword? (key : String) : Option LayoutKey := all.find? fun k => k.keyword == key

end LayoutKey

/-- The contents of the `layout(...)` groups of one declaration. -/
structure LayoutSpec where
  flags : FlagSet LayoutFlag := .empty
  location : Option Nat := none
  component : Option Nat := none
  index : Option Nat := none
  binding : Option Nat := none
  offset : Option Nat := none
  align : Option Nat := none
  set : Option Nat := none
  inputAttachmentIndex : Option Nat := none
  builtin : Option Nat := none
deriving DecidableEq, Repr, Inhabited

namespace LayoutSpec

def get? (l : LayoutSpec) : LayoutKey → Option Nat
  | .location => l.location | .component => l.component | .index => l.index | .binding => l.binding
  | .offset => l.offset | .align => l.align | .set => l.set
  | .inputAttachmentIndex => l.inputAttachmentIndex | .builtin => l.builtin

def put (l : LayoutSpec) (key : LayoutKey) (value : Option Nat) : LayoutSpec :=
  match key with
  | .location => { l with location := value }
  | .component => { l with component := value }
  | .index => { l with index := value }
  | .binding => { l with binding := value }
  | .offset => { l with offset := value }
  | .align => { l with align := value }
  | .set => { l with set := value }
  | .inputAttachmentIndex => { l with inputAttachmentIndex := value }
  | .builtin => { l with builtin := value }

def isEmpty (l : LayoutSpec) : Bool := l == {}

def numbers (l : LayoutSpec) : List (LayoutKey × Nat) :=
  LayoutKey.all.filterMap fun k => (l.get? k).map (k, ·)

@[simp] theorem get?_put_self (l : LayoutSpec) (k : LayoutKey) (v : Option Nat) : (l.put k v).get? k = v := by
  cases k <;> rfl

theorem get?_put_of_ne {l : LayoutSpec} {k k' : LayoutKey} {v : Option Nat} (h : k' ≠ k) :
    (l.put k v).get? k' = l.get? k' := by
  cases k <;> cases k' <;> first | rfl | contradiction

end LayoutSpec

/-- Everything in front of a declaration. Without modifiers the span is empty and stands before the
declaration. -/
structure Modifiers where
  flags : Qualifiers := .empty
  layout : LayoutSpec := {}
  span : Span := .point 0
deriving DecidableEq, Repr, Inhabited

namespace Modifiers

def has (m : Modifiers) (q : Qualifier) : Bool := m.flags.contains q

def isConst (m : Modifiers) : Bool := m.has .const

def isBuiltin (m : Modifiers) : Bool := m.layout.builtin.isSome

end Modifiers

/-! Numbers of pipeline variables, as `layout(builtin = N)` names them. -/
namespace PipelineVariable

def fragDepth : Nat := 22

def glslName? : Nat → Option String
  | 0 => some "gl_Position"
  | 1 => some "gl_PointSize"
  | 5 => some "gl_VertexID"
  | 6 => some "gl_InstanceID"
  | 15 => some "gl_FragCoord"
  | 17 => some "gl_FrontFacing"
  | 22 => some "gl_FragDepth"
  | 42 => some "gl_VertexIndex"
  | 43 => some "gl_InstanceIndex"
  | _ => none

end PipelineVariable
end Shading
