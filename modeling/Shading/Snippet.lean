import Shading.Diagnostic
import Shading.Token

/-!
# Snippets

Diagnostics drawn under the source line they are about:

    error: no symbol named 'y'
      ┌─ shader:1:9
      │
    1 │ int x = y;
      │         ^

A line ends at `\n`. The mark has a column for every column of the place, and at least one. Tabs
reach to the next multiple of four columns. -/
namespace Shading

/-- A line of a source with its offset; the text includes the end of the line. -/
structure SourceLine where
  number : Nat
  start : Nat
  text : List Char

namespace SourceLine

def split (number start : Nat) (line : List Char) (size : Nat) (found : Array SourceLine) :
    List Char → Array SourceLine
  | [] => found.push ⟨number, start, line.reverse⟩
  | c :: cs =>
    if c = '\n' then
      split (number + 1) (start + size + 1) [] 0 (found.push ⟨number, start, (c :: line).reverse⟩) cs
    else split number start (c :: line) (size + c.utf8Size) found cs

def all (source : String) : Array SourceLine := split 1 0 [] 0 #[] source.toList

def at_ (lines : Array SourceLine) (offset : Nat) : SourceLine :=
  (lines.toList.takeWhile (·.start ≤ offset)).getLastD ⟨1, 0, []⟩

def visible (line : SourceLine) : List Char :=
  (line.text.reverse.dropWhile fun c => c == '\n' || c == '\r' || c == '\x00').reverse

def columnsBefore (bytes count : Nat) : List Char → Nat
  | [] => count
  | c :: cs => if c.utf8Size ≤ bytes then columnsBefore (bytes - c.utf8Size) (count + 1) cs else count

def column (line : SourceLine) (offset : Nat) : Nat := columnsBefore (offset - line.start) 1 line.text

def tabWidth : Nat := 4

def width (column : Nat) (c : Char) : Nat := if c = '\t' then tabWidth - column % tabWidth else 1

def repeated (count : Nat) (sign : Char) (done : List Char) : List Char := List.replicate count sign ++ done

/-- The text as it is drawn: tabs become blanks. `done` is what was drawn before, last first. -/
def drawn (column : Nat) (done : List Char) : List Char → List Char
  | [] => done.reverse
  | c :: cs =>
    let w := width column c
    drawn (column + w) (repeated w (if c = '\t' then ' ' else c) done) cs

/-- What stands below the bytes from `offset` to `next`, when the bytes from `start` to `stop` are
marked: a caret if they overlap, a blank if the mark goes on, and nothing after it. -/
def sign? (start stop offset next : Nat) : Option Char :=
  if max start offset < min stop next then some '^' else if offset < stop then some ' ' else none

/-- The mark below a text. One more column follows the text, for a mark at its end. -/
def mark (start stop : Nat) (column offset : Nat) (done : List Char) : List Char → List Char
  | [] => match sign? start stop offset (offset + 1) with
    | some sign => (sign :: done).reverse
    | none => done.reverse
  | c :: cs =>
    let w := width column c
    let next := offset + c.utf8Size
    match sign? start stop offset next with
    | some sign => mark start stop (column + w) next (repeated w sign done) cs
    | none => done.reverse

end SourceLine

namespace Diagnostic

def severityName : Severity → String
  | .error => "error" | .warning => "warning"

def snippet (path : String) (lines : Array SourceLine) (d : Diagnostic) : String :=
  let line := SourceLine.at_ lines d.span.start
  let number := toString line.number
  let gutter := String.ofList (List.replicate number.length ' ')
  let start := d.span.start - line.start
  let stop := max (d.span.stop - line.start) (start + 1)
  let text := String.ofList (SourceLine.drawn 0 [] line.visible)
  let mark := String.ofList (SourceLine.mark start stop 0 0 [] line.visible)
  s!"{severityName d.severity}: {d.message}\n{gutter} ┌─ {path}:{number}:{line.column d.span.start}\n"
    ++ s!"{gutter} │\n{number} │ {text}\n{gutter} │ {mark}\n\n"

end Diagnostic

def Diagnostics.snippets (ds : Diagnostics) (source path : String) : String :=
  let lines := SourceLine.all source
  String.join (ds.toList.map (Diagnostic.snippet path lines))

end Shading
