import Shading.Span

/-!
# Tokens

A token is a kind, the characters it was cut from and the byte offset of the first of them. Words
that the language keeps for itself are keywords, marks are punctuators; both know their spelling, so
the scanner and every printer share it. -/
namespace Shading

/-- The words with a meaning of their own: statements first, then qualifiers. -/
inductive Keyword where
  | if_ | else_ | for_ | while_ | do_ | switch_ | case_ | default_ | break_ | continue_ | discard
    | return_ | struct_
  | layout | const | uniform | in_ | out | inout | flat | noperspective | smooth | coherent | volatile | restrict
  | readonly | writeonly | buffer | workgroup | pure_ | inline_ | noinline_ | export_
deriving DecidableEq, Repr

namespace Keyword

def spelling : Keyword → String
  | if_ => "if" | else_ => "else" | for_ => "for" | while_ => "while" | do_ => "do"
  | switch_ => "switch" | case_ => "case" | default_ => "default" | break_ => "break"
  | continue_ => "continue" | discard => "discard" | return_ => "return" | struct_ => "struct"
  | layout => "layout" | const => "const" | uniform => "uniform" | in_ => "in" | out => "out"
  | inout => "inout" | flat => "flat" | noperspective => "noperspective" | smooth => "smooth"
  | coherent => "coherent" | volatile => "volatile" | restrict => "restrict" | readonly => "readonly"
  | writeonly => "writeonly" | buffer => "buffer" | workgroup => "workgroup" | pure_ => "pure"
  | inline_ => "inline" | noinline_ => "noinline" | export_ => "export"

def all : List Keyword :=
  [if_, else_, for_, while_, do_, switch_, case_, default_, break_, continue_, discard, return_, struct_,
   layout, const, uniform, in_, out, inout, flat, noperspective, smooth, coherent, volatile, restrict,
   readonly, writeonly, buffer, workgroup, pure_, inline_, noinline_, export_]

theorem mem_all (k : Keyword) : k ∈ all := by cases k <;> decide

def ofSpelling? (word : String) : Option Keyword := all.find? fun k => k.spelling == word

end Keyword

inductive Punctuator where
  | lparen | rparen | lbrace | rbrace | lbracket | rbracket
  | dot | comma | semicolon | colon | question
  | eq | eqEq | bang | bangEq | lt | le | gt | ge | shl | shlEq | shr | shrEq
  | plus | plusPlus | plusEq | minus | minusMinus | minusEq | star | starEq | slash | slashEq
    | percent | percentEq
  | amp | ampAmp | ampEq | pipe | pipePipe | pipeEq | caret | caretCaret | caretEq | tilde
deriving DecidableEq, Repr

namespace Punctuator

def spelling : Punctuator → List Char
  | lparen => ['('] | rparen => [')'] | lbrace => ['{'] | rbrace => ['}'] | lbracket => ['['] | rbracket => [']']
  | dot => ['.'] | comma => [','] | semicolon => [';'] | colon => [':'] | question => ['?']
  | eq => ['='] | eqEq => ['=', '='] | bang => ['!'] | bangEq => ['!', '=']
  | lt => ['<'] | le => ['<', '='] | gt => ['>'] | ge => ['>', '=']
  | shl => ['<', '<'] | shlEq => ['<', '<', '='] | shr => ['>', '>'] | shrEq => ['>', '>', '=']
  | plus => ['+'] | plusPlus => ['+', '+'] | plusEq => ['+', '=']
  | minus => ['-'] | minusMinus => ['-', '-'] | minusEq => ['-', '=']
  | star => ['*'] | starEq => ['*', '='] | slash => ['/'] | slashEq => ['/', '=']
  | percent => ['%'] | percentEq => ['%', '=']
  | amp => ['&'] | ampAmp => ['&', '&'] | ampEq => ['&', '=']
  | pipe => ['|'] | pipePipe => ['|', '|'] | pipeEq => ['|', '=']
  | caret => ['^'] | caretCaret => ['^', '^'] | caretEq => ['^', '='] | tilde => ['~']

/-- All marks, the longer ones first, so that the first match is the longest. -/
def all : List Punctuator :=
  [shlEq, shrEq,
   eqEq, bangEq, ge, le, ampAmp, pipePipe, caretCaret, plusPlus, minusMinus, shl, shr,
   plusEq, minusEq, starEq, slashEq, percentEq, ampEq, pipeEq, caretEq,
   eq, semicolon, dot, comma, lparen, rparen, lbracket, rbracket, lbrace, rbrace, plus, minus, star, slash,
   gt, lt, bang, tilde, question, colon, percent, amp, pipe, caret]

theorem mem_all (p : Punctuator) : p ∈ all := by cases p <;> decide

theorem spelling_ne_nil (p : Punctuator) : p.spelling ≠ [] := by cases p <;> decide

end Punctuator

inductive TokenKind where
  /-- The end of the source; always empty. -/
  | endOfFile
  /-- A character outside the language, or a block comment that is never closed. -/
  | invalid
  | whitespace
  | lineComment
  | blockComment
  | integer
  | float
  | truth (value : Bool)
  | identifier
  | reserved
  | keyword (word : Keyword)
  | mark (punctuator : Punctuator)
deriving DecidableEq, Repr

def TokenKind.isTrivia : TokenKind → Bool
  | .whitespace | .lineComment | .blockComment => true
  | _ => false

def byteLength (cs : List Char) : Nat := cs.foldl (fun n c => n + c.utf8Size) 0

structure Token where
  kind : TokenKind
  lexeme : List Char
  start : Nat
deriving DecidableEq, Repr

namespace Token

def stop (t : Token) : Nat := t.start + byteLength t.lexeme

def span (t : Token) : Span := ⟨t.start, t.stop⟩

def text (t : Token) : String := String.ofList t.lexeme

end Token
end Shading
