/-!
# Reading JSON

A text is cut into tokens, and the tokens are read into a value with the open lists and objects kept
on a stack, so that no nesting is too deep. Numbers are checked and kept as they stand. -/
namespace Shading.Json

inductive Token where
  | openList | closeList | openObject | closeObject | comma | colon
  | null
  | bool (value : Bool)
  | number (text : String)
  /-- A text in quotes; none if it holds half a surrogate pair, which no text can. -/
  | text (value : Option String)
deriving DecidableEq, Repr

namespace Token

def isSpace (c : Char) : Bool := c == ' ' || c == '\n' || c == '\t' || c == '\r'

/-! ### Quoted texts -/

def hexValue? (c : Char) : Option Nat :=
  if '0' ≤ c && c ≤ '9' then some (c.toNat - 48)
  else if 'a' ≤ c && c ≤ 'f' then some (c.toNat - 87)
  else if 'A' ≤ c && c ≤ 'F' then some (c.toNat - 55)
  else none

def hex? (a b c d : Char) : Option Nat := do
  return 4096 * (← hexValue? a) + 256 * (← hexValue? b) + 16 * (← hexValue? c) + (← hexValue? d)

def escape? : Char → Option Char
  | '"' => some '"' | '\\' => some '\\' | '/' => some '/' | 'b' => some '\x08' | 'f' => some '\x0c'
  | 'n' => some '\n' | 'r' => some '\r' | 't' => some '\t'
  | _ => none

def isHigh (n : Nat) : Bool := 0xd800 ≤ n && n < 0xdc00

def isLow (n : Nat) : Bool := 0xdc00 ≤ n && n < 0xe000

/-- What has been read of a text: its characters, last first, and the half of a pair that waits for
the other half. -/
structure Partial where
  done : List Char := []
  half : Option Nat := none
  broken : Bool := false

namespace Partial

def settle (p : Partial) : Partial := if p.half.isSome then { p with half := none, broken := true } else p

def addChar (p : Partial) (c : Char) : Partial :=
  let p := p.settle
  { p with done := c :: p.done }

def addUnit (p : Partial) (n : Nat) : Partial :=
  match p.half with
  | some high =>
    if isLow n then
      { p with done := Char.ofNat ((high - 0xd800) * 0x400 + (n - 0xdc00) + 0x10000) :: p.done, half := none }
    else if isHigh n then { p with half := some n, broken := true }
    else p.addChar (Char.ofNat n)
  | none =>
    if isHigh n then { p with half := some n }
    else if isLow n then { p with broken := true }
    else p.addChar (Char.ofNat n)

def result (p : Partial) : Option String :=
  let p := p.settle
  if p.broken then none else some (String.ofList p.done.reverse)

end Partial

def quoted (p : Partial) : List Char → Option (Token × List Char)
  | '"' :: rest => some (.text p.result, rest)
  | '\\' :: 'u' :: a :: b :: c :: d :: rest => match hex? a b c d with
    | some n => quoted (p.addUnit n) rest
    | none => none
  | '\\' :: c :: rest => match escape? c with
    | some e => quoted (p.addChar e) rest
    | none => none
  | c :: rest => if c.toNat < 0x20 || c == '\\' then none else quoted (p.addChar c) rest
  | [] => none

/-! ### Numbers and words -/

def digits? (cs : List Char) : Option (List Char) :=
  if cs.head?.any Char.isDigit then some (cs.dropWhile Char.isDigit) else none

def whole? : List Char → Option (List Char)
  | '0' :: rest => if rest.head?.any Char.isDigit then none else some rest
  | cs => digits? cs

def fraction? : List Char → Option (List Char)
  | '.' :: rest => digits? rest
  | cs => some cs

def exponent? : List Char → Option (List Char)
  | 'e' :: rest | 'E' :: rest => match rest with
    | '+' :: rest | '-' :: rest => digits? rest
    | rest => digits? rest
  | cs => some cs

def isNumber (cs : List Char) : Bool :=
  let cs := match cs with | '-' :: rest => rest | cs => cs
  ((whole? cs).bind fraction?).bind exponent? == some []

def isNumberChar (c : Char) : Bool := c.isDigit || c == '-' || c == '+' || c == '.' || c == 'e' || c == 'E'

def ofRun? (cs : List Char) : Option Token :=
  match String.ofList cs with
  | "null" => some .null
  | "true" => some (.bool true)
  | "false" => some (.bool false)
  | run => if isNumber cs then some (.number run) else none

def ofMark? : Char → Option Token
  | '[' => some .openList | ']' => some .closeList | '\x7b' => some .openObject | '\x7d' => some .closeObject
  | ',' => some .comma | ':' => some .colon
  | _ => none

def isRunChar (c : Char) : Bool := c.isAlphanum || isNumberChar c

def scan (fuel : Nat) (done : List Token) (cs : List Char) : Option (List Token) :=
  match fuel, cs with
  | _, [] => some done.reverse
  | 0, _ :: _ => none
  | fuel + 1, c :: rest =>
    if isSpace c then scan fuel done rest
    else if c == '"' then match quoted {} rest with
      | some (t, rest) => scan fuel (t :: done) rest
      | none => none
    else match ofMark? c with
      | some t => scan fuel (t :: done) rest
      | none => match ofRun? ((c :: rest).takeWhile isRunChar) with
        | some t => scan fuel (t :: done) ((c :: rest).dropWhile isRunChar)
        | none => none

def all? (text : String) : Option (List Token) := scan text.length [] text.toList

end Token

inductive Value where
  | null
  | bool (value : Bool)
  | number (text : String)
  | text (value : Option String)
  | list (items : List Value)
  | object (members : List (Option String × Value))

/-- A list or object that is open: what it holds so far, last first. -/
inductive Frame where
  | list (done : List Value)
  | object (done : List (Option String × Value)) (key : Option String)

mutual
def read (open_ : List Frame) : List Token → Option Value
  | .openList :: .closeList :: rest => close open_ (.list []) rest
  | .openList :: rest => read (.list [] :: open_) rest
  | .openObject :: .closeObject :: rest => close open_ (.object []) rest
  | .openObject :: .text key :: .colon :: rest => read (.object [] key :: open_) rest
  | .null :: rest => close open_ .null rest
  | .bool b :: rest => close open_ (.bool b) rest
  | .number n :: rest => close open_ (.number n) rest
  | .text s :: rest => close open_ (.text s) rest
  | _ => none
def close (open_ : List Frame) (v : Value) : List Token → Option Value
  | [] => if open_.isEmpty then some v else none
  | .comma :: .text key :: .colon :: rest => match open_ with
    | .object done last :: outer => read (.object ((last, v) :: done) key :: outer) rest
    | _ => none
  | .comma :: rest => match open_ with
    | .list done :: outer => read (.list (v :: done) :: outer) rest
    | _ => none
  | .closeList :: rest => match open_ with
    | .list done :: outer => close outer (.list (v :: done).reverse) rest
    | _ => none
  | .closeObject :: rest => match open_ with
    | .object done last :: outer => close outer (.object ((last, v) :: done).reverse) rest
    | _ => none
  | _ => none
end

def parse? (text : String) : Option Value := (Token.all? text).bind (read [])

end Shading.Json
