import SqfMinifier.Toml.Number

/-!
TOML dates and times, read into their normal form: a `T` between date and time, a capital `Z`,
fractions of a second cut at nine places and without zeros at the end.
-/

namespace SqfMinifier.Toml

def fixed? (count low high : Nat) (t : Text) : Option (Text × Text) :=
  let digits := t.take count
  if digits.length = count && digits.all isDigit && low ≤ valueOf 10 digits &&
      valueOf 10 digits ≤ high then
    some (digits, t.drop count)
  else none

def mark? (c : Char) : Text → Option Text
  | [] => none
  | d :: rest => if d = c then some rest else none

def daysIn (year month : Nat) : Nat :=
  if month = 2 then
    if year % 4 = 0 && (year % 100 != 0 || year % 400 = 0) then 29 else 28
  else if month = 4 || month = 6 || month = 9 || month = 11 then 30
  else 31

def date? (t : Text) : Option (Text × Text) := do
  let (year, t) ← fixed? 4 0 9999 t
  let (month, t) ← fixed? 2 1 12 (← mark? '-' t)
  let (day, t) ← fixed? 2 1 (daysIn (valueOf 10 year) (valueOf 10 month)) (← mark? '-' t)
  some (year ++ '-' :: month ++ '-' :: day, t)

def secondFraction? : Text → Option (Text × Text)
  | '.' :: t =>
    let digits := t.takeWhile isDigit
    if digits = [] then none
    else
      let places := ((digits.take 9).reverse.dropWhile (· == '0')).reverse
      some (if places = [] then [] else '.' :: places, t.dropWhile isDigit)
  | t => some ([], t)

def time? (t : Text) : Option (Text × Text) := do
  let (hour, t) ← fixed? 2 0 23 t
  let (minute, t) ← fixed? 2 0 59 (← mark? ':' t)
  let (second, t) ← fixed? 2 0 60 (← mark? ':' t)
  let (fraction, t) ← secondFraction? t
  some (hour ++ ':' :: minute ++ ':' :: second ++ fraction, t)

/-- The offset from universal time, if there is one. An offset of nothing has a plus sign. -/
def offset? (t : Text) : Option (Text × Text) :=
  match t with
  | [] => some ([], [])
  | c :: rest =>
    if c = 'Z' || c = 'z' then some (['Z'], rest)
    else if c = '+' || c = '-' then do
      let (hour, t) ← fixed? 2 0 23 rest
      let (minute, t) ← fixed? 2 0 59 (← mark? ':' t)
      let zero := valueOf 10 (hour ++ minute) = 0
      some ((if zero then '+' else c) :: hour ++ ':' :: minute, t)
    else some ([], t)

/-- Whether a time follows a date: after a `T` or a blank come two digits and a colon. -/
def startsTime (t : Text) : Bool :=
  ((t.take 1).all fun c => c == 'T' || c == 't' || c == ' ') &&
    ((t.drop 1).take 2).all isDigit && (t.drop 3).head? == some ':'

def startsDate (t : Text) : Bool := (t.take 4).all isDigit && (t.drop 4).head? == some '-'

def startsLocalTime (t : Text) : Bool := (t.take 2).all isDigit && (t.drop 2).head? == some ':'

def moment? (t : Text) : Option (Text × Text) := do
  if startsDate t then
    let (date, t) ← date? t
    if startsTime t then
      let (time, t) ← time? (t.drop 1)
      let (offset, t) ← offset? t
      some (date ++ 'T' :: time ++ offset, t)
    else some (date, t)
  else time? t

end SqfMinifier.Toml
