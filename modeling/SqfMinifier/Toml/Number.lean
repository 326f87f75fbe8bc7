import SqfMinifier.Toml.Quoted
import SqfMinifier.Toml.Value

/-!
TOML numbers. Underscores may stand between digits, leading zeros are refused, and integers have
64 bits with sign. A float too large for a double is refused if it is positive and is negative
infinity otherwise.
-/

namespace SqfMinifier.Toml

def isDigit (c : Char) : Bool := '0' ≤ c && c ≤ '9'

/-- The digits from the front on, underscores between two of them left out. -/
def digitRun (accepts : Char → Bool) : Text → Text × Text
  | [] => ([], [])
  | '_' :: c :: rest => if accepts c then cons c (digitRun accepts rest) else ([], '_' :: c :: rest)
  | c :: rest => if accepts c then cons c (digitRun accepts rest) else ([], c :: rest)

def digits? (accepts : Char → Bool) (t : Text) : Option (Text × Text) :=
  if t.head?.any accepts then some (digitRun accepts t) else none

def wholePart? (t : Text) : Option (Text × Text) :=
  match t with
  | '0' :: rest => some (['0'], rest)
  | t => digits? isDigit t

def sign? : Text → Bool × Text
  | '-' :: rest => (true, rest)
  | '+' :: rest => (false, rest)
  | t => (false, t)

def valueOf (base : Nat) (digits : Text) : Nat :=
  digits.foldl (fun n c => base * n + (hexDigit? c).getD 0) 0

def isInt64 (i : Int) : Bool :=
  let bound : Int := Nat.pow 2 63
  decide (-bound ≤ i) && decide (i < bound)

def integer? (i : Int) : Option Value := if isInt64 i then some (.integer i) else none

def prefixedInteger? (base : Nat) (t : Text) : Option (Value × Text) := do
  let (digits, rest) ← digits? (fun c => (hexDigit? c).any (· < base)) t
  some (← integer? (valueOf base digits), rest)

def fraction? : Text → Option (Text × Text)
  | '.' :: rest => digits? isDigit rest
  | t => some ([], t)

def exponent? (t : Text) : Option (Int × Text) :=
  match t with
  | [] => some (0, [])
  | c :: rest =>
    if c = 'e' || c = 'E' then do
      let (negative, rest) := sign? rest
      let (digits, rest) ← digits? isDigit rest
      let n : Int := valueOf 10 digits
      some (if negative then -n else n, rest)
    else some (0, t)

def float? (negative : Bool) (digits : Nat) (exponent : Int) : Option Value :=
  match Binary64.ofDecimal negative digits exponent with
  | .infinite false => none
  | x => some (.float x)

def startsFloat (t : Text) : Bool := t.head?.any fun c => c == '.' || c == 'e' || c == 'E'

def number? (t : Text) : Option (Value × Text) :=
  match t with
  | '0' :: 'x' :: rest => prefixedInteger? 16 rest
  | '0' :: 'o' :: rest => prefixedInteger? 8 rest
  | '0' :: 'b' :: rest => prefixedInteger? 2 rest
  | t =>
    match sign? t with
    | (negative, 'i' :: 'n' :: 'f' :: rest) => some (.float (.infinite negative), rest)
    | (_, 'n' :: 'a' :: 'n' :: rest) => some (.float .nan, rest)
    | (negative, body) => do
      let (whole, rest) ← wholePart? body
      if startsFloat rest then
        let (places, rest) ← fraction? rest
        let (exponent, rest) ← exponent? rest
        some (← float? negative (valueOf 10 (whole ++ places)) (exponent - places.length), rest)
      else
        let n : Int := valueOf 10 whole
        some (← integer? (if negative then -n else n), rest)

end SqfMinifier.Toml
