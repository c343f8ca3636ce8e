import Shading.Token

/-!
# Scanning

The scanner cuts a text into tokens, always taking the longest one, and never fails: what it cannot
read becomes an invalid token. Whitespace and comments are tokens too, so the lexemes of the result,
put side by side, are the text again. -/
namespace Shading
namespace Scan

def isWordStart (c : Char) : Bool := c.isAlpha || c == '_'

def isWordChar (c : Char) : Bool := c.isAlphanum || c == '_'

def isBlank (c : Char) : Bool :=
  c == ' ' || c == '\t' || c == '\n' || c == '\r' || c == '\x0b' || c == '\x0c'

def isHexDigit (c : Char) : Bool := c.isDigit || ('a' ≤ c && c ≤ 'f') || ('A' ≤ c && c ≤ 'F')

def reservedWords : List String :=
  ["attribute", "varying", "precision", "highp", "mediump", "lowp", "shared", "centroid", "sample", "patch",
   "invariant", "precise", "subroutine", "common", "partition", "active", "asm", "class", "union",
     "enum", "typedef",
   "template", "this", "resource", "goto", "public", "static", "extern", "external", "interface",
     "long", "double",
   "fixed", "unsigned", "superp", "input", "output", "filter", "sizeof", "cast", "namespace", "using",
   "dvec2", "dvec3", "dvec4", "hvec2", "hvec3", "hvec4", "fvec2", "fvec3", "fvec4"]

def wordKind (word : List Char) : TokenKind :=
  let text := String.ofList word
  if text == "true" then .truth true
  else if text == "false" then .truth false
  else match Keyword.ofSpelling? text with
    | some k => .keyword k
    | none => if reservedWords.contains text then .reserved else .identifier

def run (p : Char → Bool) (cs : List Char) : List Char × List Char := (cs.takeWhile p, cs.dropWhile p)

/-- A one-letter suffix, taken only where the word ends after it. -/
def suffix (lower upper : Char) (cs : List Char) : List Char × List Char :=
  match cs with
  | c :: rest =>
    if (c == lower || c == upper) && !rest.head?.any isWordChar then ([c], rest) else ([], cs)
  | [] => ([], [])

def fraction : List Char → List Char × List Char
  | '.' :: rest => ('.' :: (run Char.isDigit rest).1, (run Char.isDigit rest).2)
  | cs => ([], cs)

def exponent : List Char → List Char × List Char
  | [] => ([], [])
  | e :: rest =>
    if e == 'e' || e == 'E' then
      match rest with
      | s :: more =>
        if s == '+' || s == '-' then
          if more.head?.any Char.isDigit then (e :: s :: (run Char.isDigit more).1, (run Char.isDigit more).2)
          else ([], e :: rest)
        else if s.isDigit then (e :: (run Char.isDigit rest).1, (run Char.isDigit rest).2)
        else ([], e :: rest)
      | [] => ([], e :: rest)
    else ([], e :: rest)

def decimal (cs : List Char) : TokenKind × List Char × List Char :=
  let (whole, r₁) := run Char.isDigit cs
  let (point, r₂) := fraction r₁
  let (power, r₃) := exponent r₂
  let (f, r₄) := suffix 'f' 'F' r₃
  if point.isEmpty && power.isEmpty && f.isEmpty then
    let (u, r₅) := suffix 'u' 'U' r₃
    (.integer, whole ++ u, r₅)
  else
    (.float, whole ++ point ++ power ++ f, r₄)

/-- A number that starts with `0x` or `0X`; the digits may be missing, which is for the reader of
numerals to refuse. -/
def hexadecimal (x : Char) (cs : List Char) : TokenKind × List Char × List Char :=
  let (ds, r₁) := run isHexDigit cs
  let (u, r₂) := suffix 'u' 'U' r₁
  (.integer, '0' :: x :: ds ++ u, r₂)

def number (cs : List Char) : TokenKind × List Char × List Char :=
  match cs with
  | '0' :: 'x' :: rest => hexadecimal 'x' rest
  | '0' :: 'X' :: rest => hexadecimal 'X' rest
  | _ => decimal cs

/-- Splits after the first `*/`; `taken` holds the characters before, last one first. -/
def throughClose (taken : List Char) : List Char → Option (List Char × List Char)
  | '*' :: '/' :: rest => some ((('/' :: '*' :: taken).reverse), rest)
  | c :: rest => throughClose (c :: taken) rest
  | [] => none

def mark? (cs : List Char) : Option Punctuator := Punctuator.all.find? fun p => p.spelling.isPrefixOf cs

def isLineEnd (c : Char) : Bool := c == '\n' || c == '\r'

def other (c : Char) (rest : List Char) : TokenKind × List Char × List Char :=
  match c, rest with
  | '/', '/' :: more =>
    let (body, r) := run (fun d => !isLineEnd d) more
    (.lineComment, '/' :: '/' :: body, r)
  | '/', '*' :: more =>
    match throughClose ['*', '/'] more with
    | some (body, r) => (.blockComment, body, r)
    | none => (.invalid, c :: rest, [])
  | _, _ =>
    match mark? (c :: rest) with
    | some p => (.mark p, p.spelling, (c :: rest).drop p.spelling.length)
    | none => (.invalid, [c], rest)

def munch (c : Char) (rest : List Char) : TokenKind × List Char × List Char :=
  if isWordStart c then
    let (word, r) := run isWordChar (c :: rest)
    (wordKind word, word, r)
  else if c.isDigit || (c == '.' && rest.head?.any Char.isDigit) then
    number (c :: rest)
  else if isBlank c then
    let (blanks, r) := run isBlank (c :: rest)
    (.whitespace, blanks, r)
  else other c rest

theorem run_append (p : Char → Bool) (cs : List Char) : (run p cs).1 ++ (run p cs).2 = cs :=
  List.takeWhile_append_dropWhile

theorem suffix_append (l u : Char) (cs : List Char) : (suffix l u cs).1 ++ (suffix l u cs).2 = cs := by
  cases cs with
  | nil => rfl
  | cons c rest => simp only [suffix]; split <;> rfl

theorem fraction_append (cs : List Char) : (fraction cs).1 ++ (fraction cs).2 = cs := by
  unfold fraction
  split
  · simp [run]
  · rfl

theorem exponent_append (cs : List Char) : (exponent cs).1 ++ (exponent cs).2 = cs := by
  unfold exponent
  repeat' split
  all_goals simp [run]

theorem decimal_append (cs : List Char) : (decimal cs).2.1 ++ (decimal cs).2.2 = cs := by
  have h₁ := run_append Char.isDigit cs
  have h₂ := fraction_append (run Char.isDigit cs).2
  have h₃ := exponent_append (fraction (run Char.isDigit cs).2).2
  have hf := suffix_append 'f' 'F' (exponent (fraction (run Char.isDigit cs).2).2).2
  have hu := suffix_append 'u' 'U' (exponent (fraction (run Char.isDigit cs).2).2).2
  simp only [decimal]
  split
  · rename_i h
    simp only [Bool.and_eq_true, List.isEmpty_iff] at h
    rw [h.1.2, List.nil_append] at h₃
    rw [h.1.1, List.nil_append] at h₂
    rw [List.append_assoc, hu, h₃, h₂, h₁]
  · simp only [List.append_assoc, hf, h₃, h₂, h₁]

theorem hexadecimal_append (x : Char) (cs : List Char) :
    (hexadecimal x cs).2.1 ++ (hexadecimal x cs).2.2 = '0' :: x :: cs := by
  simp only [hexadecimal, List.cons_append, List.append_assoc, suffix_append, run_append]

theorem number_append (cs : List Char) : (number cs).2.1 ++ (number cs).2.2 = cs := by
  unfold number
  split
  · exact hexadecimal_append ..
  · exact hexadecimal_append ..
  · exact decimal_append ..

theorem throughClose_append {taken cs body rest : List Char} (h : throughClose taken cs = some (body, rest)) :
    body ++ rest = taken.reverse ++ cs := by
  fun_induction throughClose taken cs with
  | case1 taken more => simp only [Option.some.injEq, Prod.mk.injEq] at h; simp [← h.1, ← h.2]
  | case2 taken c more _ ih => simp [ih h]
  | case3 => simp at h

theorem other_append (c : Char) (rest : List Char) : (other c rest).2.1 ++ (other c rest).2.2 = c :: rest := by
  unfold other
  split
  · simp [run]
  · split
    · rename_i h; simpa using throughClose_append h
    · simp
  · split
    · rename_i p h
      have hp := List.find?_some h
      obtain ⟨tail, ht⟩ := List.isPrefixOf_iff_prefix.1 hp
      simp [← ht]
    · rfl

theorem munch_append (c : Char) (rest : List Char) : (munch c rest).2.1 ++ (munch c rest).2.2 = c :: rest := by
  unfold munch
  split
  · exact run_append ..
  split
  · exact number_append ..
  split
  · exact run_append ..
  · exact other_append ..

theorem run_ne_nil {p : Char → Bool} {c : Char} {cs : List Char} (h : p c = true) : (run p (c :: cs)).1 ≠ [] := by
  simp [run, h]

theorem decimal_ne_nil {c : Char} {cs : List Char}
    (h : (c.isDigit || (c == '.' && cs.head?.any Char.isDigit)) = true) :
    (decimal (c :: cs)).2.1 ≠ [] := by
  by_cases hc : c.isDigit = true
  · have := @run_ne_nil _ _ cs hc
    simp only [decimal]
    split <;> simp [this]
  · simp only [hc, Bool.false_or, Bool.and_eq_true, beq_iff_eq] at h
    obtain ⟨rfl, -⟩ := h
    have hrun : run Char.isDigit ('.' :: cs) = ([], '.' :: cs) := rfl
    simp only [decimal, hrun, fraction]
    split <;> simp_all

theorem throughClose_ne_nil {taken cs body rest : List Char} (h : throughClose taken cs = some (body, rest)) :
    body ≠ [] := by
  fun_induction throughClose taken cs with
  | case1 => simp only [Option.some.injEq, Prod.mk.injEq] at h; simp [← h.1]
  | case2 _ _ _ _ ih => exact ih h
  | case3 => simp at h

theorem other_ne_nil (c : Char) (rest : List Char) : (other c rest).2.1 ≠ [] := by
  unfold other
  split
  · simp
  · split
    · rename_i h; exact throughClose_ne_nil h
    · simp
  · split
    · exact Punctuator.spelling_ne_nil _
    · simp

theorem munch_ne_nil (c : Char) (rest : List Char) : (munch c rest).2.1 ≠ [] := by
  unfold munch
  split
  · rename_i h
    refine run_ne_nil ?_
    simp only [isWordStart, isWordChar, Bool.or_eq_true, Char.isAlphanum] at *
    rcases h with h | h <;> simp [h]
  split
  · rename_i h
    unfold number
    split
    · simp [hexadecimal]
    · simp [hexadecimal]
    · exact decimal_ne_nil h
  split
  · rename_i h; exact run_ne_nil h
  · exact other_ne_nil c rest

theorem munch_shorter (c : Char) (rest : List Char) : (munch c rest).2.2.length < (c :: rest).length := by
  have happ := congrArg List.length (munch_append c rest)
  have hne := List.length_pos_iff.2 (munch_ne_nil c rest)
  rw [List.length_append] at happ
  omega

def loop (offset : Nat) (cs : List Char) (found : Array Token) : Array Token :=
  match cs with
  | [] => found.push ⟨.endOfFile, [], offset⟩
  | c :: rest =>
    loop (offset + byteLength (munch c rest).2.1) (munch c rest).2.2
      (found.push ⟨(munch c rest).1, (munch c rest).2.1, offset⟩)
termination_by cs.length
decreasing_by exact munch_shorter c rest

end Scan

def tokenize (source : String) : Array Token := Scan.loop 0 source.toList #[]

end Shading
