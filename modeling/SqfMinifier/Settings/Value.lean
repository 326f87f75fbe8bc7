import SqfMinifier.Path
import SqfMinifier.Text.Lowercase
import SqfMinifier.Toml.Value

/-!
Setting values while layers are merged. A value that comes from a file keeps the file's name;
tables and arrays made in the course of merging have no origin.

Keys are merged in lower case. A table is merged key by key into the table that is there, any
other value replaces what is there. An empty table has no keys to merge, so it leaves even a
value that is no table as it is.
-/

namespace SqfMinifier

inductive Scalar where
  | boolean (b : Bool)
  | integer (i : Int)
  | float (x : Binary64)
  | text (t : Text)
  deriving DecidableEq, Repr

inductive Setting where
  | nil
  | scalar (origin : Option Path) (value : Scalar)
  | array (origin : Option Path) (elements : List Setting)
  | table (origin : Option Path) (entries : List (Text × Setting))
  deriving Repr

namespace Setting

mutual

def ofToml (origin : Option Path) : Toml.Value → Setting
  | .string t => scalar origin (.text t)
  | .integer i => scalar origin (.integer i)
  | .float x => scalar origin (.float x)
  | .boolean b => scalar origin (.boolean b)
  | .moment t => scalar origin (.text t)
  | .array elements => array origin (ofElements origin elements)
  | .tables elements => array origin (ofElements origin elements)
  | .table _ entries => table origin (ofEntries origin entries)

def ofElements (origin : Option Path) : List Toml.Value → List Setting
  | [] => []
  | value :: rest => ofToml origin value :: ofElements origin rest

def ofEntries (origin : Option Path) : List (Text × Toml.Value) → List (Text × Setting)
  | [] => []
  | (key, value) :: rest => (key, ofToml origin value) :: ofEntries origin rest

end

def emptyTable : Setting := table none []

def get? (key : Text) : Setting → Option Setting
  | table _ entries => entries.lookup key
  | _ => none

def putEntry (key : Text) (value : Setting) : List (Text × Setting) → List (Text × Setting)
  | [] => [(key, value)]
  | (k, v) :: rest => if k = key then (k, value) :: rest else (k, v) :: putEntry key value rest

/-- Sets a key of a table; what is no table is replaced by a new one. -/
def put (target : Setting) (key : Text) (value : Setting) : Setting :=
  match target with
  | table origin entries => table origin (putEntry key value entries)
  | _ => table none [(key, value)]

mutual

def merge (key : Text) : (value target : Setting) → Setting
  | table _ entries, target =>
    target.put (Text.lower key)
      (mergeAll entries ((target.get? (Text.lower key)).getD emptyTable))
  | value, target => target.put (Text.lower key) value

def mergeAll : List (Text × Setting) → Setting → Setting
  | [], target => target
  | (key, value) :: rest, target => mergeAll rest (merge key value target)

end

end Setting

end SqfMinifier
