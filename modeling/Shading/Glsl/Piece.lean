import Shading.Problem

/-!
# Pieces of GLSL text

GLSL is written in two steps. First a program becomes a list of pieces: the lexemes of the text and
the room between them, which says what it is for. Then the pieces are laid out, either for readers
or with no more whitespace than the lexemes need to stay apart. -/
namespace Shading.Glsl

inductive Piece where
  | lexeme (text : String)
  | blank
  | gap
  | newline
  /-- The end of a line for readers, otherwise a blank. -/
  | newlineOrBlank
  /-- The start of a line that lies so many levels inside. -/
  | indent (level : Nat)
  /-- Something that GLSL cannot express. -/
  | problem (report : Report)

namespace Piece

def indentWidth : Nat := 4

def fuses (a b : Char) : Bool := a == b && (a == '+' || a == '-')

def append (done text : List Char) : List Char := text.foldl (fun done c => c :: done) done

/-- Appends a lexeme. Two signs never meet, since `++` and `--` have meanings of their own. -/
def appendLexeme (done text : List Char) : List Char :=
  match done, text with
  | a :: _, b :: _ => append (if fuses a b then ' ' :: done else done) text
  | _, _ => append done text

def write (minify : Bool) (done : List Char) : Piece → List Char
  | lexeme text => appendLexeme done text.toList
  | blank => ' ' :: done
  | gap => if minify then done else ' ' :: done
  | newline => if minify then done else '\n' :: done
  | newlineOrBlank => (if minify then ' ' else '\n') :: done
  | indent level => if minify then done else append done (List.replicate (level * indentWidth) ' ')
  | problem _ => done

def report? : Piece → Option Report
  | problem r => some r
  | _ => none

end Piece

def layOut (minify : Bool) (first : String) (pieces : List Piece) : String :=
  let done := pieces.foldl (Piece.write minify) first.toList.reverse
  String.ofList (match done with | '\n' :: _ => done | _ => '\n' :: done).reverse

def separated (items : List (List Piece)) : List Piece := (items.intersperse [.lexeme ",", .gap]).flatten

def parenthesized (inside : List Piece) : List Piece := .lexeme "(" :: inside ++ [.lexeme ")"]

end Shading.Glsl
