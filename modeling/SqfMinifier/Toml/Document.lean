import SqfMinifier.Toml.MomentTable

/-!
TOML documents: keys, values, headers and comments. A reader gives nothing at all for a text
that is not a document; where and why it fails is not told.
-/

namespace SqfMinifier.Toml

def nestingLimit : Nat := 80

def skipBlanks (t : Text) : Text := t.dropWhile Text.isBlank

def isBare (c : Char) : Bool :=
  ('a' ≤ c && c ≤ 'z') || ('A' ≤ c && c ≤ 'Z') || isDigit c || c == '-' || c == '_'

def simpleKey? (t : Text) : Option (Text × Text) :=
  match t.takeWhile isBare with
  | [] => lineString? t
  | bare => some (bare, t.dropWhile isBare)

def keyParts? : Nat → Text → Option (List Text × Text)
  | 0, _ => none
  | fuel + 1, t => do
    let (part, rest) ← simpleKey? (skipBlanks t)
    match skipBlanks rest with
    | '.' :: more =>
      let (parts, rest) ← keyParts? fuel more
      some (part :: parts, rest)
    | rest => some ([part], rest)

def key? (t : Text) : Option ((List Text × Text) × Text) := do
  let (parts, rest) ← keyParts? nestingLimit t
  let last ← parts.getLast?
  if parts.length < nestingLimit then some ((parts.dropLast, last), rest) else none

def skipComment (t : Text) : Text := t.dropWhile isShown

def skipTrivia : Nat → Text → Text
  | 0, t => t
  | fuel + 1, t =>
    match skipBlanks t with
    | '#' :: rest => skipTrivia fuel (skipComment rest)
    | t =>
      match afterNewline? t with
      | some rest => skipTrivia fuel rest
      | none => t

def lineEnd? (t : Text) : Option Text :=
  let t := skipBlanks t
  let t := if t.head? = some '#' then skipComment t else t
  if t = [] then some [] else afterNewline? t

mutual

def value? : (fuel depth : Nat) → Text → Option (Value × Text)
  | 0, _, _ => none
  | fuel + 1, depth, t =>
    match t with
    | '[' :: rest =>
      if depth + 1 < nestingLimit then
        (elements? fuel (depth + 1) (skipTrivia rest.length rest)).map
          fun (elements, rest) => (.array elements, rest)
      else none
    | '\x7b' :: rest =>
      if depth + 1 < nestingLimit then
        match skipBlanks rest with
        | '\x7d' :: rest => some (.table .inline [], rest)
        | rest => (pairs? fuel (depth + 1) [] rest).map
          fun (entries, rest) => (.table .inline entries, rest)
      else none
    | 't' :: 'r' :: 'u' :: 'e' :: rest => some (.boolean true, rest)
    | 'f' :: 'a' :: 'l' :: 's' :: 'e' :: rest => some (.boolean false, rest)
    | t =>
      if t.head? = some '"' || t.head? = some '\'' then
        (string? t).map fun (s, rest) => (.string s, rest)
      else if startsDate t || startsLocalTime t then
        (moment? t).map fun (s, rest) => (.moment s, rest)
      else number? t

def elements? : (fuel depth : Nat) → Text → Option (List Value × Text)
  | 0, _, _ => none
  | fuel + 1, depth, t =>
    match t with
    | ']' :: rest => some ([], rest)
    | t => do
      let (value, rest) ← value? fuel depth t
      match skipTrivia rest.length rest with
      | ']' :: rest => some ([value], rest)
      | ',' :: rest =>
        let (values, rest) ← elements? fuel depth (skipTrivia rest.length rest)
        some (value :: values, rest)
      | _ => none

def pairs? : (fuel depth : Nat) → Table → Text → Option (Table × Text)
  | 0, _, _, _ => none
  | fuel + 1, depth, entries, t => do
    let ((path, key), rest) ← key? t
    let (value, rest) ← value? fuel depth (skipBlanks (← mark? '=' rest))
    let entries ← entries.define .inline path key value
    match skipBlanks rest with
    | '\x7d' :: rest => some (entries, rest)
    | ',' :: rest => pairs? fuel depth entries rest
    | _ => none

end

/-- What has been read, and the header that the next keys stand under. -/
structure Progress where
  root : Table
  header : List Text

def Progress.define (p : Progress) (path : List Text) (key : Text) (value : Value) :
    Option Progress := do
  let root ← p.root.updateAt false (fun style entries => entries.define style path key value)
    p.header .header
  some { p with root }

def keyValue? (p : Progress) (t : Text) : Option (Progress × Text) := do
  let ((path, key), rest) ← key? t
  let rest ← mark? '=' rest
  let (value, rest) ← value? (2 * rest.length + 2) 0 (skipBlanks rest)
  some (← p.define path key value, rest)

def lines? : Nat → Progress → Text → Option Table
  | 0, _, _ => none
  | fuel + 1, p, t =>
    match skipBlanks t with
    | [] => some p.root
    | '[' :: '[' :: rest => do
      let ((path, key), rest) ← key? rest
      let rest ← lineEnd? (← mark? ']' (← mark? ']' rest))
      lines? fuel ⟨← p.root.openElement path key, path ++ [key]⟩ rest
    | '[' :: rest => do
      let ((path, key), rest) ← key? rest
      let rest ← lineEnd? (← mark? ']' rest)
      lines? fuel ⟨← p.root.openTable path key, path ++ [key]⟩ rest
    | t =>
      match if t.head? = some '#' then some t else afterNewline? t with
      | some _ => do lines? fuel p (← lineEnd? t)
      | none => do
        let (p, rest) ← keyValue? p t
        lines? fuel p (← lineEnd? rest)

def dropByteOrderMark : Text → Text
  | '\ufeff' :: rest => rest
  | t => t

/-- A document is a table, or the date or time that its table stands for. -/
def document? (t : Text) : Option Value := do
  let entries ← lines? (t.length + 1) ⟨[], []⟩ (dropByteOrderMark t)
  (Value.table .header entries).resolve?

end SqfMinifier.Toml
