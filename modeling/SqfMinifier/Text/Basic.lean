/-!
Script text as a list of characters: its size in UTF-8, the classes of characters that the
minifier tells apart, and the cuts of a text into lines.

A line ends at a line feed, a carriage return, or both in this order. A text that ends in a
carriage return has no empty line after it, one that ends in a line feed alone has.
-/

namespace SqfMinifier

abbrev Text := List Char

namespace Text

def byteSize : Text → Nat
  | [] => 0
  | c :: rest => c.utf8Size + byteSize rest

def isLineEnd (c : Char) : Bool := c == '\r' || c == '\n'

def isBlank (c : Char) : Bool := c == ' ' || c == '\t'

def restOfLine (t : Text) : Text := t.takeWhile fun c => !isLineEnd c

def afterLine (t : Text) : Text := t.dropWhile fun c => !isLineEnd c

/-- The pieces between the separators, always one more than there are separators. -/
def split (sep : Char) : Text → List Text
  | [] => [[]]
  | c :: rest =>
    if c = sep then [] :: split sep rest
    else
      match split sep rest with
      | [] => [[c]]
      | piece :: pieces => (c :: piece) :: pieces

def dropTrailingReturn (t : Text) : Text :=
  if t.getLast? = some '\r' then t.dropLast else t

def lines (t : Text) : List Text :=
  (split '\n' t).flatMap fun piece => split '\r' (dropTrailingReturn piece)

end Text

end SqfMinifier
