import Shading.Context
import Shading.Token

/-!
# Reading tokens

The grammar sees only words that matter: whitespace and comments are dropped, characters outside the
language are dropped with a report, and a reserved word counts as an identifier, also with a report.
These reports are made when the word they precede is looked at for the first time, so that they
stand in the order of the source.

A reading step goes on or stops; it stops at the first place that breaks the grammar, which has then
been reported. -/
namespace Shading

structure Word where
  kind : TokenKind
  text : String
  span : Span
  /-- What has to be reported before the word is used. -/
  notes : List Report := []

namespace Word

def rejection (t : Token) : Report :=
  match t.lexeme with
  | '/' :: '*' :: _ => ⟨.unterminatedComment, t.span⟩
  | _ => ⟨.invalidCharacter t.text, t.span⟩

/-- The word of a token; `before` are the reports on the tokens that were dropped in front of it,
last first. -/
def ofToken (before : List Report) (t : Token) : Word :=
  match t.kind with
  | .reserved => ⟨.identifier, t.text, t.span, ((⟨.reservedWord t.text, t.span⟩ : Report) :: before).reverse⟩
  | kind => ⟨kind, t.text, t.span, before.reverse⟩

def ofTokens (tokens : Array Token) : List Word :=
  let (words, _) := tokens.foldl (fun (words, before) t =>
    if t.kind.isTrivia then (words, before)
    else if t.kind = .invalid then (words, rejection t :: before)
    else (words.push (ofToken before t), [])) ((#[] : Array Word), ([] : List Report))
  words.toList

/-- The text of the word as messages quote it; the end of the source has none. -/
def quoted? (w : Word) : Option String := if w.kind = .endOfFile then none else some w.text

end Word

namespace Grammar

/-- The state of reading: the words to come, of which the last one stays, and what has been made of
the others. -/
structure State where
  front : Word
  rest : List Word
  /-- The end of the last word that was looked at. -/
  lastEnd : Nat := 0
  context : Context
  /-- The declarations so far, newest first. -/
  elements : List Element := []

/-- Why reading stopped: the grammar was broken, and the place has been reported. -/
inductive Stop where
  | reported
deriving DecidableEq, Repr

abbrev Parse := EStateM Stop State

def lift {α : Type} (m : Check α) : Parse α := fun s =>
  let r := m s.context
  .ok r.1 { s with context := r.2 }

instance : MonadLift Check Parse := ⟨lift⟩

def peek : Parse Word := fun s =>
  let journal := s.front.notes.foldl (fun j r => .problemFound r :: j) s.context.journal
  .ok s.front { s with
    front := { s.front with notes := [] }, lastEnd := s.front.span.stop, context := { s.context with journal } }

/-- Passes the next word; the last one stays. -/
def advance : Parse Unit := fun s =>
  match s.rest with
  | [] => .ok () s
  | w :: ws => .ok () { s with front := w, rest := ws }

def next : Parse Word := do
  let w ← peek
  advance
  return w

def lastEnd : Parse Nat := fun s => .ok s.lastEnd s

def looksAt (kind : TokenKind) : Parse Bool := do return (← peek).kind = kind

def accept? (kind : TokenKind) : Parse (Option Word) := do
  let w ← peek
  if w.kind = kind then
    advance
    return some w
  else return none

def acceptMark (p : Punctuator) : Parse Bool := do return (← accept? (.mark p)).isSome

def stop {α : Type} (problem : Problem) (span : Span) : Parse α := do
  lift (Check.report problem span)
  throw .reported

def unexpected {α : Type} (w : Word) (expected : Expectation) : Parse α :=
  stop (.unexpected expected w.quoted?) w.span

def expect (kind : TokenKind) (expected : Expectation) : Parse Word := do
  let w ← next
  if w.kind = kind then return w else unexpected w expected

def expectMark (p : Punctuator) : Parse Word := expect (.mark p) (.mark p)

def expectIdentifier : Parse Word := expect .identifier .identifier

/-- Where reading ends if its bound on the number of steps is too small. The bounds below count the
words of the source, so this is never reached. -/
def exhausted {α : Type} : Parse α := do unexpected (← peek) .expression

def spanFrom (start : Nat) : Parse Span := do return ⟨start, ← lastEnd⟩

/-- Nested blocks, operands of leading operators and parentheses, all together. -/
def maxNesting : Nat := 64

structure Surroundings where
  /-- How many more levels of nesting are allowed. -/
  room : Nat := maxNesting
  inLoop : Bool := false
  inSwitch : Bool := false
  /-- The result type of the function, where it is known. -/
  returns : Option Ty := none

def nested {α : Type} (env : Surroundings) (opening : Word) (inside : Surroundings → Parse α) : Parse α :=
  match env.room with
  | 0 => stop .nestedTooDeeply opening.span
  | room + 1 => inside { env with room }

end Grammar
end Shading
