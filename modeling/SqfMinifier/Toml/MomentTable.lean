import SqfMinifier.Toml.Moment

/-!
Tables that stand for a date or time. The first key of such a table is reserved for them, and its
value has to be their text; what other keys the table has does not matter.
-/

namespace SqfMinifier.Toml

def momentKey : Text := "$__toml_private_datetime".toList

def wholeMoment? (t : Text) : Option Text :=
  match moment? t with
  | some (moment, []) => some moment
  | _ => none

def momentValue? : Value → Option Value
  | .string t => (wholeMoment? t).map .moment
  | _ => none

def reserved? : Table → Option Value
  | [] => none
  | (key, value) :: _ => if key = momentKey then some value else none

mutual

/-- Puts dates and times in the place of the tables that stand for them. -/
def Value.resolve? : Value → Option Value
  | .array elements => (resolveElements? elements).map .array
  | .tables elements => (resolveElements? elements).map .tables
  | .table style entries =>
    match reserved? entries with
    | some value => momentValue? value
    | none => (resolveEntries? entries).map (.table style)
  | value => some value

def resolveElements? : List Value → Option (List Value)
  | [] => some []
  | value :: rest => do
    let value ← value.resolve?
    some (value :: (← resolveElements? rest))

def resolveEntries? : List (Text × Value) → Option (List (Text × Value))
  | [] => some []
  | (key, value) :: rest => do
    let value ← value.resolve?
    some ((key, value) :: (← resolveEntries? rest))

end

end SqfMinifier.Toml
