import Shading.Spirv.Expression

/-!
# Statements in modules

Control flow has the structure that SPIR-V asks for: a selection announces the block where its
branches meet, a loop announces the block where it goes on and the block where it ends. Nothing is
written while no block is open, so statements after a `return` leave no trace. -/
namespace Shading.Spirv.Build

def jump (innermost? : Body → Option JumpTarget) (mark : Body → Body) : Build Unit := do
  match innermost? (← get).body with
  | none => pure ()
  | some target =>
    modify fun b => { b with body := mark b.body }
    let _ ← branch target.label

def JumpTarget.markFirst : List JumpTarget → List JumpTarget
  | [] => []
  | t :: ts => { t with used := true } :: ts

def breakOut : Build Unit :=
  jump (·.breaks.head?) fun body => { body with breaks := JumpTarget.markFirst body.breaks }

def continueLoop : Build Unit :=
  jump (·.continues.head?) fun body => { body with continues := JumpTarget.markFirst body.continues }

/-- Opens a block that no way leads to if it is not reachable. -/
def labelIf (reachable : Bool) (label : Nat) : Build Unit := do
  Build.label label
  if !reachable then terminate .unreachable []

def ifThen (condition : Nat) (body : Build Unit) : Build Unit := do
  let whenTrue ← fresh
  let merge ← fresh
  selectionMerge merge
  branchOn condition whenTrue merge
  label whenTrue
  body
  let _ ← branch merge
  label merge

def ifElse (condition : Nat) (body other : Build Unit) : Build Unit := do
  let whenTrue ← fresh
  let merge ← fresh
  let whenFalse ← fresh
  selectionMerge merge
  branchOn condition whenTrue whenFalse
  label whenTrue
  body
  let first ← branch merge
  label whenFalse
  other
  let second ← branch merge
  labelIf (first || second) merge

/-- Runs the body of a loop between its labels: whether a `break` leaves it, and whether its
continue target is reached. -/
def loopBody (start continueLabel merge : Nat) (body : Build Unit) : Build (Bool × Bool) := do
  modify fun b => { b with body := { b.body with
    breaks := { label := merge } :: b.body.breaks, continues := { label := continueLabel } :: b.body.continues } }
  label start
  body
  let fallsThrough ← branch continueLabel
  let last := (← get).body
  modify fun b => { b with body := { b.body with breaks := b.body.breaks.tail, continues := b.body.continues.tail } }
  return (last.breaks.head?.any (·.used), fallsThrough || last.continues.head?.any (·.used))

def loopHeader (header continueLabel merge : Nat) : Build Unit := do
  let _ ← branch header
  label header
  emit .loopMerge [.id merge, .id continueLabel, .number 0]

def loopWhile (condition step : Option Expr) (body : Build Unit) : Build Unit := do
  let header ← fresh
  let check ← fresh
  let start ← fresh
  let continueLabel ← fresh
  let merge ← fresh
  loopHeader header continueLabel merge
  let _ ← branch check
  label check
  match condition with
  | some c => branchOn (← value c) start merge
  | none => let _ ← branch start
  let (breaks, continues) ← loopBody start continueLabel merge body
  label continueLabel
  if continues then
    if let some s := step then let _ ← value s
  let _ ← branch header
  labelIf (condition.isSome || breaks) merge

def loopUntil (condition : Option Expr) (body : Build Unit) : Build Unit := do
  let header ← fresh
  let start ← fresh
  let continueLabel ← fresh
  let merge ← fresh
  loopHeader header continueLabel merge
  let _ ← branch start
  let (breaks, continues) ← loopBody start continueLabel merge body
  label continueLabel
  match condition, continues with
  | some c, true =>
    branchOn (← value c) header merge
    label merge
  | _, _ =>
    let _ ← branch header
    labelIf breaks merge

def switchOperands {σ : Type} (selector default : Nat) (cases : List (SwitchCase σ × Nat)) : List Operand :=
  Operand.ids [selector, default] ++ cases.flatMap fun (c, label) =>
    match c.value with
    | some v => [.number (wordOf v), .id label]
    | none => []

/-- A switch, given how to append its cases once they have labels: that tells whether control falls
out of the last one. -/
def switchOn {σ : Type} (selector : Nat) (cases : List (SwitchCase σ))
    (body : Nat → List Nat → Build Bool) : Build Unit := do
  let merge ← fresh
  let labels ← cases.mapM fun _ => fresh
  let labelled := cases.zip labels
  let default := ((labelled.find? (·.1.value.isNone)).map (·.2)).getD merge
  selectionMerge merge
  terminate .switch (switchOperands selector default labelled)
  modify fun b => { b with body := { b.body with breaks := { label := merge } :: b.body.breaks } }
  let fallsOut ← body merge labels
  let left := (← get).body.breaks.head?.any (·.used)
  modify fun b => { b with body := { b.body with breaks := b.body.breaks.tail } }
  labelIf (default == merge || fallsOut || left) merge

def declareLocal (number : Nat) : Build Nat := do
  let v := (← read).program.variableAt number
  let id ← localVariable v.ty
  name id v.name
  modify fun b => { b with places := b.places.insert number { pointer := id, storage := .function } }
  return id

def ifReached (s : Stmt) (append : Build Unit) : Build Unit := do
  match ← openBlock? with
  | none => note (.statementSkipped s.span)
  | some _ =>
    setSpan s.span
    append

mutual
def reached : Stmt → Build Unit
  | .block _ body _ => statements body
  | .if_ c t f _ => do
    let condition ← value c
    match f with
    | none => ifThen condition (ifReached t (reached t))
    | some f => ifElse condition (ifReached t (reached t)) (ifReached f (reached f))
  | .loop .doWhile _ condition _ body _ => loopUntil condition (ifReached body (reached body))
  | .loop _ init condition step body _ => do
    match init with
    | some s => ifReached s (reached s)
    | none => pure ()
    loopWhile condition step (ifReached body (reached body))
  | .switch e cases _ => do
    let selector ← value e
    switchOn selector cases fun merge labels => switchCases merge labels false cases
  | .return_ (some e) _ => do
    let v ← value e
    terminate .returnValue [.id v]
  | .return_ none _ => terminate .return_ []
  | .break_ _ => breakOut
  | .continue_ _ => continueLoop
  | .discard _ => terminate .kill []
  | .declare n init _ => do
    let id ← declareLocal n
    match init with
    | none => pure ()
    | some e =>
      let v ← value e
      emit .store (Operand.ids [id, v])
  | .expr e _ => do let _ ← value e
  | .empty _ => pure ()
def statements : List Stmt → Build Unit
  | [] => pure ()
  | s :: rest => do
    ifReached s (reached s)
    statements rest
/-- Appends the cases of a switch, each under its label and falling through to the next; tells
whether control falls out of the last one. -/
def switchCases (merge : Nat) (labels : List Nat) (fallsOut : Bool) : List (SwitchCase Stmt) → Build Bool
  | [] => return fallsOut
  | ⟨_, body, _⟩ :: rest => match labels with
    | [] => return fallsOut
    | l :: ls => do
      label l
      statements body
      let fallsOut ← branch (ls.headD merge)
      switchCases merge ls fallsOut rest
end

def statement (s : Stmt) : Build Unit := ifReached s (reached s)

end Shading.Spirv.Build
