import SqfMinifier.Text.Basic

/-!
The coarse tokens of a script. Only comments, line ends, directive markers, quotes, blanks and
slashes are told apart; all other characters are text. Operators, names and numbers have no
tokens of their own, so there is no input that a lexer for these tokens has to refuse.
-/

namespace SqfMinifier

inductive TokenKind where
  | lineComment
  | blockComment
  | newline
  | hash
  | doubleQuote
  | singleQuote
  | tab
  | spaces
  | slash
  | text
  deriving DecidableEq, Repr

structure Token where
  kind : TokenKind
  text : Text
  deriving DecidableEq, Repr

structure Span where
  kind : TokenKind
  start : Nat
  stop : Nat
  deriving DecidableEq, Repr

namespace TokenKind

def all : List TokenKind :=
  [lineComment, blockComment, newline, hash, doubleQuote, singleQuote, tab, spaces, slash, text]

def name : TokenKind → String
  | lineComment => "LineComment"
  | blockComment => "BlockComment"
  | newline => "Newline"
  | hash => "Hash"
  | doubleQuote => "DoubleQuote"
  | singleQuote => "SingleQuote"
  | tab => "Tab"
  | spaces => "Spaces"
  | slash => "Slash"
  | text => "Text"

def tag : TokenKind → String
  | lineComment => "line-comment"
  | blockComment => "block-comment"
  | newline => "newline"
  | hash => "hash"
  | doubleQuote => "double-quote"
  | singleQuote => "single-quote"
  | tab => "tab"
  | spaces => "spaces"
  | slash => "slash"
  | text => "text"

def bracketedTag (k : TokenKind) : String := "<" ++ k.tag ++ ">"

def quote? : TokenKind → Option Char
  | doubleQuote => some '"'
  | singleQuote => some '\''
  | _ => none

end TokenKind

end SqfMinifier
