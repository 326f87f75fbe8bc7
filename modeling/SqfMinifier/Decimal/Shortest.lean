import SqfMinifier.Decimal.Binary64
import SqfMinifier.Text.Basic

/-!
Decimal text of doubles with the fewest digits that read back as the same number, and among
those the nearest to it. The text is positional, however large or small the number is.
-/

namespace SqfMinifier

structure Decimal where
  digits : Nat
  exponent : Int
  deriving DecidableEq, Repr

namespace Decimal

def trimZeros : Nat → Decimal → Decimal
  | 0, d => d
  | fuel + 1, d =>
    if d.digits ≠ 0 ∧ d.digits % 10 = 0 then trimZeros fuel ⟨d.digits / 10, d.exponent + 1⟩ else d

def toText (d : Decimal) : Text :=
  let digits := Nat.toDigits 10 d.digits
  if 0 ≤ d.exponent then digits ++ List.replicate d.exponent.natAbs '0'
  else
    let places := d.exponent.natAbs
    if places < digits.length then
      digits.take (digits.length - places) ++ '.' :: digits.drop (digits.length - places)
    else '0' :: '.' :: List.replicate (places - digits.length) '0' ++ digits

def shiftToOne (numerator denominator : Nat) : Nat → Nat
  | 0 => 0
  | fuel + 1 =>
    if denominator ≤ numerator then 0
    else shiftToOne (numerator * 10) denominator fuel + 1

def magnitude (numerator denominator : Nat) : Int :=
  if denominator ≤ numerator then (Nat.toDigits 10 (numerator / denominator)).length
  else 1 - shiftToOne numerator denominator 400

/-- Numbers between `low` and `high`, all in units of `1 / unit`, that round to `value`. -/
structure Interval where
  low : Nat
  value : Nat
  high : Nat
  unit : Nat
  closed : Bool
  deriving DecidableEq, Repr

def Interval.contains (i : Interval) (numerator denominator : Nat) : Bool :=
  let n := numerator * i.unit
  if i.closed then i.low * denominator ≤ n && n ≤ i.high * denominator
  else i.low * denominator < n && n < i.high * denominator

/-- The interval of a finite double. Below a power of two its neighbour is nearer. -/
def intervalOf (mantissa : Nat) (exponent : Int) : Interval :=
  let below := if mantissa = Nat.pow 2 52 ∧ Binary64.leastExponent < exponent then 1 else 2
  let scale := if exponent < 2 then 1 else Nat.pow 2 (exponent - 2).natAbs
  let unit := if exponent < 2 then Nat.pow 2 (2 - exponent).natAbs else 1
  { low := (4 * mantissa - below) * scale, value := 4 * mantissa * scale,
    high := (4 * mantissa + 2) * scale, unit, closed := mantissa % 2 == 0 }

/-- The nearest number of the grid `10 ^ exponent` in the interval, looking at the two next to
its value; of two equally near the greater. -/
def nearestOnGrid (i : Interval) (exponent : Int) : Option Decimal :=
  let scale := Nat.pow 10 exponent.natAbs
  let n := if exponent < 0 then i.value * scale else i.value
  let d := if exponent < 0 then i.unit else i.unit * scale
  let within (digits : Nat) : Bool :=
    if exponent < 0 then i.contains digits scale else i.contains (digits * scale) 1
  let floor := n / d
  let up := within (floor + 1)
  let down := within floor
  if up && (!down || d ≤ 2 * (n % d)) then some ⟨floor + 1, exponent⟩
  else if down then some ⟨floor, exponent⟩
  else none

/-- Tries grids of ever more digits; seventeen always suffice. -/
def shortestFrom (i : Interval) (exponent : Int) : Nat → Decimal
  | 0 => ⟨0, 0⟩
  | fuel + 1 =>
    match nearestOnGrid i exponent with
    | some d => trimZeros 20 d
    | none => shortestFrom i (exponent - 1) fuel

def shortest (mantissa : Nat) (exponent : Int) : Decimal :=
  if mantissa = 0 then ⟨0, 0⟩
  else
    let i := intervalOf mantissa exponent
    shortestFrom i (magnitude i.value i.unit - 1) 17

end Decimal

namespace Binary64

def sign (negative : Bool) : Text := if negative then ['-'] else []

def toText : Binary64 → Text
  | nan => "NaN".toList
  | infinite negative => sign negative ++ "inf".toList
  | finite negative mantissa exponent =>
    sign negative ++ (Decimal.shortest mantissa exponent).toText

def toTextWithPoint (x : Binary64) : Text :=
  match x with
  | finite .. => if x.toText.contains '.' then x.toText else x.toText ++ ['.', '0']
  | _ => x.toText

end Binary64

end SqfMinifier
