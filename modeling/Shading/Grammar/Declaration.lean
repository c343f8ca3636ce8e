import Shading.Grammar.Statement

/-!
# Reading declarations

Structs, interface blocks, functions and global variables. Their declarators are entered as soon as
they are read, so that a later part of the same declaration can refer to an earlier one. -/
namespace Shading.Grammar

def addElement (e : Element) : Parse Unit := modify fun s => { s with elements := e :: s.elements }

def fieldDeclarators (parts : Parts) (owner : String) (modifiers : Modifiers) (base : Ty) :
    Nat → List (Field Ty) → Parse (List (Field Ty))
  | 0, _ => exhausted
  | n + 1, found => do
    let name ← expectIdentifier
    let ty ← arraySuffixes parts.expression parts.fuel {} base name.span
    Check.reportIf ty.isVoid (.voidField name.text) name.span
    Check.reportIf (found.any (·.name == name.text)) (.duplicateField name.text owner) name.span
    let found := ⟨name.text, ty, modifiers, name.span⟩ :: found
    if ← acceptMark .comma then fieldDeclarators parts owner modifiers base n found else return found

def fieldDeclarations (parts : Parts) (owner : String) : Nat → List (Field Ty) → Parse (List (Field Ty))
  | 0, _ => exhausted
  | n + 1, found => do
    if ← acceptMark .rbrace then return found.reverse
    else
      let m ← modifiers parts.fuel
      let base ← typeName parts.expression parts.fuel {}
      let found ← fieldDeclarators parts owner m base parts.fuel found
      let _ ← expectMark .semicolon
      fieldDeclarations parts owner n found

def fields (parts : Parts) (owner : String) (buffer : Bool) : Parse (List (Field Ty)) := do
  let fields ← fieldDeclarations parts owner parts.fuel []
  Check.checkUnsized buffer fields
  return fields

def globalDeclarators (parts : Parts) (start : Nat) (modifiers : Modifiers) (base : Ty) : Nat → Word → Parse Unit
  | 0, _ => exhausted
  | n + 1, name => do
    let ty ← arraySuffixes parts.expression parts.fuel {} base name.span
    let initializer ← if ← acceptMark .eq then some <$> parts.expression.single {} else pure none
    let (number, initializer) ← Check.declareVariable modifiers ty name.text name.span initializer .global
    addElement (.global number initializer (← spanFrom start))
    if ← acceptMark .comma then globalDeclarators parts start modifiers base n (← expectIdentifier) else return ()

def globalVariables (parts : Parts) (start : Nat) (m : Modifiers) (base : Ty) (name : Word) : Parse Unit := do
  Check.reportIf (m.flags.meets Qualifiers.function) .variableFunctionModifiers m.span
  globalDeclarators parts start m base parts.fuel name
  let _ ← expectMark .semicolon

def structDeclaration (parts : Parts) (start : Nat) (m : Modifiers) : Parse Unit := do
  let _ ← expect (.keyword .struct_) (.keyword .struct_)
  let name ← expectIdentifier
  let _ ← expectMark .lbrace
  let fields ← fields parts name.text false
  Check.reportIf fields.isEmpty (.emptyStruct name.text) name.span
  let ty ← Check.declareStruct name.text fields false
  Check.reportIf (Ty.maxDepth < ty.depth) (.structTooDeep name.text) name.span
  let _ ← Check.bindName name.text (.type ty) name.span
  addElement (.struct ty (← spanFrom start))
  if ← looksAt .identifier then globalVariables parts start m ty (← expectIdentifier)
  else
    Check.reportIf (!m.flags.isEmpty || !m.layout.isEmpty) .structModifiers m.span
    let _ ← expectMark .semicolon

def bindFields (block : Nat) (fields : List (Field Ty)) : Check Unit :=
  fields.zipIdx.forM fun (f, i) => do
    let _ ← Check.bindName f.name (.field block i) f.span

def blockInstance? (parts : Parts) (ty : Ty) : Parse (Option (Word × Ty)) := do
  if ← looksAt .identifier then
    let w ← expectIdentifier
    return some (w, ← arraySuffixes parts.expression parts.fuel {} ty w.span)
  else return none

/-- Declares the variable of an interface block: under the name of its instance, or with fields that
go by their own names. -/
def declareBlock (modifiers : Modifiers) (name : Word) (ty : Ty) (fields : List (Field Ty))
    (named : Option (Word × Ty)) :
    Check Nat := do
  match named with
  | some (w, ty) =>
    let number ← Check.addVariable { name := w.text, ty, modifiers, storage := .block, span := w.span }
    let _ ← Check.bindName w.text (.variable_ number) w.span
    return number
  | none =>
    let number ← Check.addVariable { name := "", ty, modifiers, storage := .block, span := name.span }
    bindFields number fields
    return number

def interfaceBlock (parts : Parts) (start : Nat) (modifiers : Modifiers) (name : Word) : Parse Unit := do
  let storage := modifiers.flags.inter Qualifiers.interface
  Check.reportIf (storage.toList.length != 1) (.blockStorage name.text) name.span
  let _ ← expectMark .lbrace
  let fields ← fields parts name.text (storage == .ofList [.buffer])
  Check.reportIf fields.isEmpty (.emptyBlock name.text) name.span
  let ty ← Check.declareStruct name.text fields true
  let named ← blockInstance? parts ty
  let _ ← expectMark .semicolon
  let number ← declareBlock modifiers name ty fields named
  addElement (.block number (← spanFrom start))

/-- A parameter as it is declared: how callers see it, and its name if it has one. -/
structure NamedParameter where
  parameter : Parameter
  name : Option String
  span : Span

def checkParameter (ty : Ty) (m : Modifiers) (span : Span) : Check Unit := do
  let misplaced := m.flags.diff (.ofList [.const, .input, .output])
  Check.reportIf (!misplaced.isEmpty || !m.layout.isEmpty) .parameterModifier m.span
  Check.reportIf (m.isConst && m.has .output) .constOutParameter m.span
  Check.reportIf (ty.containsUnsized && !(← get).kind.allowsUnsizedArrays) .unsizedArray span

def parameterType (parts : Parts) (base : Ty) (name : Option Word) : Parse Ty :=
  match name with
  | some w => arraySuffixes parts.expression parts.fuel {} base w.span
  | none => return base

/-- Reads a parameter. A lone `void` is none; the closing parenthesis is read with it. -/
def parameter? (parts : Parts) (first : Bool) : Parse (Option NamedParameter) := do
  let start := (← peek).span.start
  let m ← modifiers parts.fuel
  let base ← typeName parts.expression parts.fuel {}
  let name ← accept? .identifier
  let ty ← parameterType parts base name
  let span ← spanFrom start
  let lone ← if ty.isVoid && first && name.isNone then acceptMark .rparen else pure false
  if lone then return none
  else
    Check.reportIf ty.isVoid .voidParameter span
    checkParameter ty m span
    return some ⟨⟨ty, m⟩, name.map (·.text), span⟩

def parametersFrom (parts : Parts) : Nat → List NamedParameter → Parse (List NamedParameter)
  | 0, _ => exhausted
  | n + 1, found => do
    match ← parameter? parts found.isEmpty with
    | none => return []
    | some p =>
      let w ← next
      if w.kind = .mark .comma then parametersFrom parts n (p :: found)
      else if w.kind = .mark .rparen then return (p :: found).reverse
      else unexpected w (.eitherMark .comma .rparen)

def parameters (parts : Parts) : Parse (List NamedParameter) := do
  if ← acceptMark .rparen then return [] else parametersFrom parts parts.fuel []

def declareParameter (p : NamedParameter) : Check Nat := do
  let number ← Check.addVariable
    { name := p.name.getD "", ty := p.parameter.ty, modifiers := p.parameter.modifiers,
      storage := .parameter, span := p.span }
  match p.name with
  | some name => do let _ ← Check.bindName name (.variable_ number) p.span
  | none => pure ()
  return number

/-- Reads the body of a function in the scope of its parameters; these are declared first and given
by their numbers. -/
def functionScope (parts : Parts) (returns : Option Ty) (parameters : List NamedParameter) (opening : Word) :
    Parse (List Nat × Stmt) := do
  Check.enterScope
  let numbers ← lift (parameters.mapM declareParameter)
  let body ← blockBody parts { returns } opening
  Check.leaveScope
  return (numbers, body)

def checkReturns (returns : Ty) (body : Stmt) (name : Word) : Check Unit :=
  Check.reportIf (!returns.isVoid && !body.alwaysExits) (.missingReturn name.text) name.span

def definition (parts : Parts) (start number : Nat) (returns : Ty) (name : Word) (parameters : List NamedParameter)
    (opening : Word) : Parse Element := do
  let (numbers, body) ← functionScope parts (some returns) parameters opening
  checkReturns returns body name
  return .definition number numbers body (← spanFrom start)

def functionBody (parts : Parts) (start : Nat) (number : Option Nat) (returns : Ty) (name : Word)
    (parameters : List NamedParameter) (opening : Word) : Parse Unit := do
  match number with
  | some n =>
    let repeated ← Check.markDefined n name.text name.span
    let e ← definition parts start n returns name parameters opening
    if !repeated then addElement e
  | none =>
    let (_, body) ← functionScope parts none parameters opening
    checkReturns returns body name

def functionDeclaration (parts : Parts) (start : Nat) (m : Modifiers) (returns : Ty) (name : Word) :
    Parse Unit := do
  let _ ← expectMark .lparen
  let parameters ← parameters parts
  Check.reportIf (!(m.flags.diff Qualifiers.function).isEmpty || !m.layout.isEmpty) .functionModifiers m.span
  let plain := returns.isVoid && parameters.isEmpty
  Check.reportIf ((← get).context.kind.requiresEntryPoint && name.text == "main" && !plain)
    .mainSignature name.span
  let number ← Check.declareFunction m returns name.text name.span (parameters.map (·.parameter))
  let w ← next
  match w.kind with
  | .mark .semicolon => match number with
    | some n => addElement (.prototype n ⟨start, w.span.stop⟩)
    | none => return ()
  | .mark .lbrace => functionBody parts start number returns name parameters w
  | _ => unexpected w (.eitherMark .lbrace .semicolon)

def globalDeclaration (parts : Parts) : Parse Unit := do
  let start := (← peek).span.start
  let m ← modifiers parts.fuel
  let w ← peek
  let isName := w.kind = .identifier && !(← get).context.scopes.isType w.text
  if w.kind = .keyword .struct_ then structDeclaration parts start m
  else if isName then
    advance
    if ← looksAt (.mark .lbrace) then interfaceBlock parts start m w else unexpected w .type
  else
    let ty ← typeName parts.expression parts.fuel {}
    let name ← expectIdentifier
    if ← looksAt (.mark .lparen) then functionDeclaration parts start m ty name
    else globalVariables parts start m ty name

def declarations (parts : Parts) : Nat → Parse Unit
  | 0 => exhausted
  | n + 1 => do
    let w ← peek
    match w.kind with
    | .endOfFile => return ()
    | .mark .semicolon =>
      advance
      declarations parts n
    | _ =>
      globalDeclaration parts
      declarations parts n

end Shading.Grammar
