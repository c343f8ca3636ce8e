/-!
# Locations

Lines and columns of a text, for people. A line ends with a line feed, a carriage return, or both
together; columns count characters, offsets count bytes. The offsets at which lines start are kept
in a table and found by halving it. -/
namespace Shading

structure Location where
  line : Nat
  column : Nat
deriving DecidableEq, Repr

def byteSize (text : List Char) : Nat := text.foldr (fun c n => c.utf8Size + n) 0

/-- The text up to a number of bytes and the text after them; nothing if they end inside of a
character or past the end. -/
def splitBytes? : Nat → List Char → Option (List Char × List Char)
  | 0, text => some ([], text)
  | _ + 1, [] => none
  | n + 1, c :: text =>
    if n + 1 < c.utf8Size then none
    else (splitBytes? (n + 1 - c.utf8Size) text).map fun (front, back) => (c :: front, back)

/-- The first position from `lo` to `hi` with an entry above the bound, if the entries ascend. -/
def upperBound (entries : Array Nat) (bound lo hi : Nat) : Nat :=
  if lo < hi then
    let mid := lo + (hi - lo) / 2
    if entries.getD mid 0 ≤ bound then upperBound entries bound (mid + 1) hi else upperBound entries bound lo mid
  else lo
termination_by hi - lo

/-- A text and the offsets at which its lines start. -/
structure LineTable where
  text : List Char
  starts : Array Nat

namespace LineTable

/-- Whether a line ends after the character, given what follows. A carriage return waits for its
line feed. -/
def endsLine (c : Char) (rest : List Char) : Bool :=
  match c with
  | '\n' => true
  | '\r' => rest.head? != some '\n'
  | _ => false

def startsFrom (offset : Nat) : List Char → List Nat
  | [] => []
  | c :: rest =>
    let next := offset + c.utf8Size
    if endsLine c rest then next :: startsFrom next rest else startsFrom next rest

def ofString (text : String) : LineTable := ⟨text.toList, (0 :: startsFrom 0 text.toList).toArray⟩

def linesUpTo (t : LineTable) (offset : Nat) : Nat := upperBound t.starts offset 0 t.starts.size

/-- The location of an offset, or of the end for an offset past it. Inside of a character the column
counts bytes. -/
def location (t : LineTable) (offset : Nat) : Location :=
  let offset := min offset (byteSize t.text)
  let index := t.linesUpTo offset - 1
  let start := t.starts.getD index 0
  let line? := do splitBytes? (offset - start) (← splitBytes? start t.text).2
  let column := line?.elim (offset - start) (·.1.length)
  ⟨index + 1, column + 1⟩

end LineTable
end Shading
