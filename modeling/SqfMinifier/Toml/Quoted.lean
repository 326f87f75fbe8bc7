import SqfMinifier.Text.Basic

/-!
The four kinds of TOML strings, read from behind their opening quotes. Control characters other
than the tab are refused everywhere, and line ends outside of multi-line strings. Each reader
gives the text and what follows the closing quotes.
-/

namespace SqfMinifier.Toml

def isShown (c : Char) : Bool :=
  c == '\t' || (' ' ≤ c && c ≤ '~') || 0x80 ≤ c.toNat

def afterNewline? : Text → Option Text
  | '\n' :: rest => some rest
  | '\r' :: '\n' :: rest => some rest
  | _ => none

def hexDigit? (c : Char) : Option Nat :=
  if '0' ≤ c && c ≤ '9' then some (c.toNat - '0'.toNat)
  else if 'a' ≤ c && c ≤ 'f' then some (c.toNat - 'a'.toNat + 10)
  else if 'A' ≤ c && c ≤ 'F' then some (c.toNat - 'A'.toNat + 10)
  else none

def codePoint? (count : Nat) (t : Text) : Option (Char × Text) := do
  let digits ← (t.take count).mapM hexDigit?
  let code := digits.foldl (fun n d => 16 * n + d) 0
  if digits.length = count && code.isValidChar then some (Char.ofNat code, t.drop count) else none

def escape? : Text → Option (Char × Text)
  | 'b' :: rest => some ('\x08', rest)
  | 'f' :: rest => some ('\x0c', rest)
  | 'n' :: rest => some ('\n', rest)
  | 'r' :: rest => some ('\r', rest)
  | 't' :: rest => some ('\t', rest)
  | '\\' :: rest => some ('\\', rest)
  | '"' :: rest => some ('"', rest)
  | 'u' :: rest => codePoint? 4 rest
  | 'U' :: rest => codePoint? 8 rest
  | _ => none

def cons (c : Char) (r : Text × Text) : Text × Text := (c :: r.1, r.2)

def basicString : Nat → Text → Option (Text × Text)
  | 0, _ => none
  | fuel + 1, t =>
    match t with
    | [] => none
    | '"' :: rest => some ([], rest)
    | '\\' :: rest => do
      let (c, rest) ← escape? rest
      (basicString fuel rest).map (cons c)
    | c :: rest => if isShown c then (basicString fuel rest).map (cons c) else none

def literalString : Text → Option (Text × Text)
  | [] => none
  | '\'' :: rest => some ([], rest)
  | c :: rest => if isShown c then (literalString rest).map (cons c) else none

def skipLineSpace : Nat → Text → Text
  | 0, t => t
  | fuel + 1, t =>
    match t with
    | ' ' :: rest => skipLineSpace fuel rest
    | '\t' :: rest => skipLineSpace fuel rest
    | t =>
      match afterNewline? t with
      | some rest => skipLineSpace fuel rest
      | none => t

/-- Several lines. Up to two quotes in a row are text, and as many may stand right before the
three that close. Escapes are read if the quote is a double quote; there, a backslash at the end
of a line takes the line end and all blanks and line ends after it away. -/
def multiLine (q : Char) : Nat → Text → Option (Text × Text)
  | 0, _ => none
  | fuel + 1, t =>
    match t with
    | [] => none
    | c :: rest =>
      if c = q then
        let quotes := (t.takeWhile (· == q)).length
        if quotes < 3 then
          if quotes < t.length then (multiLine q fuel rest).map (cons c) else none
        else
          let kept := min (quotes - 3) 2
          some (List.replicate kept q, t.drop (kept + 3))
      else if c = '\\' && q == '"' then
        match afterNewline? (rest.dropWhile Text.isBlank) with
        | some after => multiLine q fuel (skipLineSpace after.length after)
        | none => do
          let (c, rest) ← escape? rest
          (multiLine q fuel rest).map (cons c)
      else
        match afterNewline? t with
        | some after => (multiLine q fuel after).map (cons '\n')
        | none => if isShown c then (multiLine q fuel rest).map (cons c) else none

def multiLineString (q : Char) (t : Text) : Option (Text × Text) :=
  multiLine q (t.length + 1) ((afterNewline? t).getD t)

def lineString? : Text → Option (Text × Text)
  | '"' :: rest => basicString (rest.length + 1) rest
  | '\'' :: rest => literalString rest
  | _ => none

def string? : Text → Option (Text × Text)
  | '"' :: '"' :: '"' :: rest => multiLineString '"' rest
  | '\'' :: '\'' :: '\'' :: rest => multiLineString '\'' rest
  | t => lineString? t

end SqfMinifier.Toml
