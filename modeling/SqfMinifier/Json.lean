import SqfMinifier.Toml.Quoted

/-!
JSON documents. A reader gives nothing at all for a text that is not a document; where and why it
fails is not told. Numbers are kept as they are written, as a whole number times a power of ten,
and the members of an object in the order in which they stand.
-/

namespace SqfMinifier

inductive Json where
  | null
  | boolean (b : Bool)
  | number (mantissa exponent : Int)
  | string (s : Text)
  | array (elements : List Json)
  | object (members : List (Text × Json))
  deriving Repr

namespace Json

def nestingLimit : Nat := 127

def isSpace (c : Char) : Bool := c == ' ' || c == '\t' || c == '\n' || c == '\r'

def skipSpace (t : Text) : Text := t.dropWhile isSpace

/-- Items up to a closing mark, each of which takes at least one character. -/
def until? {α : Type} (close : Char) (item? : Text → Option (α × Text)) (t : Text) :
    Option (List α × Text) :=
  match t with
  | [] => none
  | c :: rest =>
    if c = close then some ([], rest)
    else
      match item? (c :: rest) with
      | none => none
      | some (item, after) =>
        if _h : after.length < (c :: rest).length then
          (until? close item? after).map fun (items, rest) => (item :: items, rest)
        else none
termination_by t.length
decreasing_by assumption

def spaced? {α : Type} (item? : Text → Option (α × Text)) (t : Text) : Option (α × Text) :=
  (item? (skipSpace t)).map fun (item, rest) => (item, skipSpace rest)

def afterComma? {α : Type} (item? : Text → Option (α × Text)) : Text → Option (α × Text)
  | ',' :: rest => spaced? item? rest
  | _ => none

def list? {α : Type} (close : Char) (item? : Text → Option (α × Text)) (t : Text) :
    Option (List α × Text) :=
  if (skipSpace t).head? = some close then some ([], (skipSpace t).tail)
  else do
    let (first, rest) ← spaced? item? t
    let (others, rest) ← until? close (afterComma? item?) rest
    some (first :: others, rest)

def codeUnit? : Text → Option (Nat × Text)
  | a :: b :: c :: d :: rest => do
    let digits ← [a, b, c, d].mapM Toml.hexDigit?
    some (digits.foldl (fun n d => 16 * n + d) 0, rest)
  | _ => none

def codeUnits? (t : Text) : Option (Char × Text) := do
  let (high, rest) ← codeUnit? t
  if high.isValidChar then some (Char.ofNat high, rest)
  else
    match rest with
    | '\\' :: 'u' :: rest => do
      let (low, rest) ← codeUnit? rest
      if high < 0xdc00 && 0xdc00 ≤ low && low < 0xe000 then
        some (Char.ofNat (0x10000 + (high - 0xd800) * 0x400 + (low - 0xdc00)), rest)
      else none
    | _ => none

def escape? : Text → Option (Char × Text)
  | '"' :: rest => some ('"', rest)
  | '\\' :: rest => some ('\\', rest)
  | '/' :: rest => some ('/', rest)
  | 'b' :: rest => some ('\x08', rest)
  | 'f' :: rest => some ('\x0c', rest)
  | 'n' :: rest => some ('\n', rest)
  | 'r' :: rest => some ('\r', rest)
  | 't' :: rest => some ('\t', rest)
  | 'u' :: rest => codeUnits? rest
  | _ => none

def character? : Text → Option (Char × Text)
  | '\\' :: rest => escape? rest
  | c :: rest => if ' ' ≤ c then some (c, rest) else none
  | [] => none

def string? (t : Text) : Option (Text × Text) := until? '"' character? t

def digits? (t : Text) : Option (Text × Text) :=
  match t.takeWhile Char.isDigit with
  | [] => none
  | digits => some (digits, t.dropWhile Char.isDigit)

def whole? : Text → Option (Text × Text)
  | '0' :: rest => some (['0'], rest)
  | t => digits? t

def fraction? : Text → Option (Text × Text)
  | '.' :: rest => digits? rest
  | t => some ([], t)

def exponent? (t : Text) : Option (Int × Text) :=
  match t with
  | [] => some (0, [])
  | c :: rest =>
    if c == 'e' || c == 'E' then
      match rest with
      | '-' :: rest => (digits? rest).map fun (digits, rest) =>
        (-(Nat.ofDigitChars 10 digits 0 : Int), rest)
      | '+' :: rest => (digits? rest).map fun (digits, rest) =>
        ((Nat.ofDigitChars 10 digits 0 : Int), rest)
      | rest => (digits? rest).map fun (digits, rest) =>
        ((Nat.ofDigitChars 10 digits 0 : Int), rest)
    else some (0, t)

def unsigned? (t : Text) : Option ((Int × Int) × Text) := do
  let (whole, rest) ← whole? t
  let (fraction, rest) ← fraction? rest
  let (shift, rest) ← exponent? rest
  some ((Nat.ofDigitChars 10 (whole ++ fraction) 0, shift - fraction.length), rest)

def number? : Text → Option (Json × Text)
  | '-' :: rest => (unsigned? rest).map fun ((mantissa, exponent), rest) =>
    (number (-mantissa) exponent, rest)
  | t => (unsigned? t).map fun ((mantissa, exponent), rest) => (number mantissa exponent, rest)

def scalar? : Text → Option (Json × Text)
  | 'n' :: 'u' :: 'l' :: 'l' :: rest => some (null, rest)
  | 't' :: 'r' :: 'u' :: 'e' :: rest => some (boolean true, rest)
  | 'f' :: 'a' :: 'l' :: 's' :: 'e' :: rest => some (boolean false, rest)
  | '"' :: rest => (string? rest).map fun (s, rest) => (string s, rest)
  | t => number? t

def member? (value? : Text → Option (Json × Text)) : Text → Option ((Text × Json) × Text)
  | '"' :: rest => do
    let (key, rest) ← string? rest
    match skipSpace rest with
    | ':' :: rest => (value? (skipSpace rest)).map fun (value, rest) => ((key, value), rest)
    | _ => none
  | _ => none

def value? : (depth : Nat) → Text → Option (Json × Text)
  | 0, t => scalar? t
  | depth + 1, t =>
    match t with
    | '[' :: rest => (list? ']' (value? depth) rest).map
        fun (elements, rest) => (array elements, rest)
    | '\x7b' :: rest => (list? '\x7d' (member? (value? depth)) rest).map
        fun (members, rest) => (object members, rest)
    | t => scalar? t

def document? (t : Text) : Option Json := do
  let (value, rest) ← value? nestingLimit (skipSpace t)
  if skipSpace rest = [] then some value else none

end Json

end SqfMinifier
