import SqfMinifier.Decimal.Binary64
import SqfMinifier.Text.Basic

/-!
Values of a TOML document, and how keys are added to tables.

A table can be defined once. How it came about decides what may still be added to it: a table
with a header is closed to dotted keys from elsewhere, one that only a longer header implied can
still get its own header, one made by dotted keys takes more dotted keys, and an inline table
takes nothing. Dates and times are kept as text in their normal form.
-/

namespace SqfMinifier.Toml

inductive TableStyle where
  | header
  | implied
  | dotted
  | inline
  deriving DecidableEq, Repr

inductive Value where
  | string (t : Text)
  | integer (i : Int)
  | float (x : Binary64)
  | boolean (b : Bool)
  | moment (t : Text)
  | array (elements : List Value)
  | tables (elements : List Value)
  | table (style : TableStyle) (entries : List (Text × Value))
  deriving Repr

abbrev Table := List (Text × Value)

namespace Table

def put (key : Text) (value : Value) : Table → Table
  | [] => [(key, value)]
  | (k, v) :: rest => if k = key then (k, value) :: rest else (k, v) :: put key value rest

/-- Changes the table that a path of keys leads to. Missing tables on the way are made, by a
dotted key as dotted tables and by a header as implied ones. In an array of tables the path leads
on into the last. -/
def updateAt (byDots : Bool) (change : TableStyle → Table → Option Table) :
    List Text → TableStyle → Table → Option Table
  | [], style, entries => change style entries
  | key :: path, _, entries =>
    match entries.lookup key with
    | none => do
      let style : TableStyle := if byDots then .dotted else .implied
      let inner ← updateAt byDots change path style []
      some (put key (.table style inner) entries)
    | some (.table style inner) =>
      if style = .inline || (byDots && style = .header) then none
      else do
        let inner ← updateAt byDots change path style inner
        some (put key (.table style inner) entries)
    | some (.tables elements) =>
      match elements.getLast? with
      | some (.table style inner) => do
        let inner ← updateAt byDots change path style inner
        some (put key (.tables (elements.dropLast ++ [.table style inner])) entries)
      | _ => none
    | some _ => none

def insertNew (key : Text) (value : Value) (entries : Table) : Option Table :=
  if (entries.lookup key).isSome then none else some (entries ++ [(key, value)])

def define (style : TableStyle) (path : List Text) (key : Text) (value : Value)
    (entries : Table) : Option Table :=
  updateAt true
    (fun style inner =>
      if path = [] || style = .dotted then insertNew key value inner else none)
    path style entries

/-- Opens the table of a header. One that was only implied so far moves behind the keys that have
come since. -/
def openTable (path : List Text) (key : Text) (entries : Table) : Option Table :=
  updateAt false
    (fun _ inner =>
      match inner.lookup key with
      | none => some (inner ++ [(key, .table .header [])])
      | some (.table .implied kept) =>
        some (inner.filter (fun entry => entry.1 != key) ++ [(key, .table .header kept)])
      | some _ => none)
    path .header entries

def openElement (path : List Text) (key : Text) (entries : Table) : Option Table :=
  updateAt false
    (fun _ inner =>
      match inner.lookup key with
      | none => some (inner ++ [(key, .tables [.table .header []])])
      | some (.tables elements) => some (put key (.tables (elements ++ [.table .header []])) inner)
      | some _ => none)
    path .header entries

end Table

end SqfMinifier.Toml
