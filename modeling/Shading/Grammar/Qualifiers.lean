import Shading.Grammar.Lookahead
import Shading.Numeral

/-!
# Reading modifiers

Qualifier words and `layout(...)` groups, in any order and number. A word or key that comes twice is
reported, and so is a key next to `push_constant` that has no meaning there. -/
namespace Shading.Grammar

def qualifiers? : TokenKind → Option Qualifiers
  | .keyword .const => some (.ofList [.const])
  | .keyword .uniform => some (.ofList [.uniform])
  | .keyword .in_ => some (.ofList [.input])
  | .keyword .out => some (.ofList [.output])
  | .keyword .inout => some (.ofList [.input, .output])
  | .keyword .flat => some (.ofList [.flat])
  | .keyword .noperspective => some (.ofList [.noperspective])
  | .keyword .smooth => some (.ofList [.smooth])
  | .keyword .coherent => some (.ofList [.coherent])
  | .keyword .volatile => some (.ofList [.volatile])
  | .keyword .restrict => some (.ofList [.restrict])
  | .keyword .readonly => some (.ofList [.readonly])
  | .keyword .writeonly => some (.ofList [.writeonly])
  | .keyword .buffer => some (.ofList [.buffer])
  | .keyword .workgroup => some (.ofList [.workgroup])
  | .keyword .pure_ => some (.ofList [.pureFn])
  | .keyword .inline_ => some (.ofList [.inlineFn])
  | .keyword .noinline_ => some (.ofList [.noinlineFn])
  | .keyword .export_ => some (.ofList [.exported])
  | _ => none

/-- The number after a layout key. A number that does not fit 32 bits counts as zero. -/
def layoutNumber (key : String) (w : Word) : Check Nat := do
  match Numeral.integer? w.text.toList with
  | some (value, _) =>
    if value < 0x100000000 then
      Check.reportIf (key == LayoutKey.align.keyword && !value.isPowerOfTwo) (.alignmentNotPowerOfTwo value) w.span
      return value
    else
      Check.report (.invalidLayoutValue w.text) w.span
      return 0
  | none =>
    Check.report (.invalidLayoutValue w.text) w.span
    return 0

def layoutValue? (key : String) : Parse (Option Nat) := do
  if ← acceptMark .eq then
    let w ← expect .integer .integer
    return some (← layoutNumber key w)
  else return none

def enterLayout (spec : LayoutSpec) (key : String) (value : Option Nat) (span : Span) : Check LayoutSpec :=
  match LayoutFlag.ofKeyword? key with
  | some flag => do
    Check.reportIf value.isSome (.layoutTakesNoValue key) span
    return { spec with flags := spec.flags.insert flag }
  | none => match LayoutKey.ofKeyword? key, value with
    | some k, some n => return spec.put k (some n)
    | some _, none => do
      Check.report (.layoutNeedsValue key) span
      return spec
    | none, _ => do
      Check.report (.unknownLayoutKey key) span
      return spec

def layoutKeys : Nat → LayoutSpec → List (String × Span) → Parse (LayoutSpec × List (String × Span))
  | 0, _, _ => exhausted
  | n + 1, spec, seen => do
    let key ← expectIdentifier
    let value ← layoutValue? key.text
    Check.reportIf (seen.lookup key.text).isSome (.repeatedLayoutKey key.text) key.span
    let spec ← enterLayout spec key.text value key.span
    let seen := (key.text, key.span) :: seen
    let w ← next
    if w.kind = .mark .comma then layoutKeys n spec seen
    else if w.kind = .mark .rparen then return (spec, seen)
    else unexpected w (.eitherMark .comma .rparen)

def boundKeys : List LayoutKey := [.binding, .set, .inputAttachmentIndex]

def dropBoundKey (seen : List (String × Span)) (otherwise : Span) (spec : LayoutSpec)
    (key : LayoutKey) : Check LayoutSpec := do
  if (spec.get? key).isSome then
    Check.report (.notWithPushConstant key) ((seen.lookup key.keyword).getD otherwise)
    return spec.put key none
  else return spec

def layoutGroup (fuel : Nat) (spec : LayoutSpec) : Parse LayoutSpec := do
  let _ ← expectMark .lparen
  let (spec, seen) ← layoutKeys fuel spec []
  if spec.flags.contains .pushConstant then
    let otherwise := Span.point (← lastEnd)
    lift (boundKeys.foldlM (dropBoundKey seen otherwise) spec)
  else return spec

def modifierWords : Nat → Modifiers → Nat → Parse (Modifiers × Nat)
  | 0, _, _ => exhausted
  | n + 1, m, stop => do
    let w ← peek
    if w.kind = .keyword .layout then
      advance
      let layout ← layoutGroup n m.layout
      modifierWords n { m with layout } (← lastEnd)
    else match qualifiers? w.kind with
      | some flags =>
        advance
        Check.reportIf (m.flags.meets flags) (.repeatedQualifier w.text) w.span
        modifierWords n { m with flags := m.flags.union flags } w.span.stop
      | none => return (m, stop)

def modifiers (fuel : Nat) : Parse Modifiers := do
  let start := (← peek).span.start
  let (m, stop) ← modifierWords fuel {} start
  return { m with span := ⟨start, stop⟩ }

end Shading.Grammar
