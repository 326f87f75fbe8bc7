import SqfMinifier.Settings.Value
import SqfMinifier.Toml.Number

/-!
Keys that are paths into nested settings: a name, then any number of names behind dots and
indices in brackets. Only the keys at the top of a file are read as paths; one that does not have
this form stands for itself.
-/

namespace SqfMinifier

inductive KeyStep where
  | child (name : Text)
  | index (i : Int)
  deriving DecidableEq, Repr

structure KeyPath where
  first : Text
  steps : List KeyStep
  deriving DecidableEq, Repr

namespace KeyPath

def isNameChar (c : Char) : Bool :=
  ('a' ≤ c && c ≤ 'z') || ('A' ≤ c && c ≤ 'Z') || ('0' ≤ c && c ≤ '9') || c == '_' || c == '-' ||
    c == ' '

def name? (t : Text) : Option (Text × Text) :=
  match t.takeWhile isNameChar with
  | [] => none
  | name => some (name, t.dropWhile isNameChar)

def index? (t : Text) : Option (Int × Text) := do
  let (negative, t) : Bool × Text :=
    match t.dropWhile Text.isBlank with
    | '-' :: rest => (true, rest)
    | t => (false, t)
  let digits := t.takeWhile Toml.isDigit
  let n : Int := Toml.valueOf 10 digits
  let i := if negative then -n else n
  match (t.dropWhile Toml.isDigit).dropWhile Text.isBlank with
  | ']' :: rest => if digits ≠ [] && Toml.isInt64 i then some (i, rest) else none
  | _ => none

def steps? : Nat → Text → Option (List KeyStep)
  | _, [] => some []
  | fuel + 1, '.' :: t => do
    let (name, rest) ← name? t
    (steps? fuel rest).map (.child name :: ·)
  | fuel + 1, '[' :: t => do
    let (i, rest) ← index? t
    (steps? fuel rest).map (.index i :: ·)
  | _, _ => none

def ofText? (t : Text) : Option KeyPath := do
  let (first, rest) ← name? t
  (steps? rest.length rest).map (⟨first, ·⟩)

def ofKey (key : Text) : KeyPath := (ofText? key).getD ⟨key, []⟩

end KeyPath

namespace Setting

def elements : Setting → List Setting
  | array _ elements => elements
  | _ => []

def withElements (new : List Setting) : Setting → Setting
  | array origin _ => array origin new
  | _ => array none new

def position (i : Int) (length : Nat) : Nat :=
  if 0 ≤ i then i.toNat else length - i.natAbs

def putElement (i : Nat) (value : Setting) (elements : List Setting) : List Setting :=
  (elements ++ List.replicate (i + 1 - elements.length) nil).set i value

/-- Merges a value at the end of some steps into the setting they start from. What stands in the
way is replaced by the table or array that a step needs. -/
def mergeAt (value : Setting) : List KeyStep → Setting → Setting
  | [], _ => value
  | [.child name], target => merge name value target
  | .child name :: rest, target =>
    let key := Text.lower name
    target.put key (mergeAt value rest ((target.get? key).getD nil))
  | .index i :: rest, target =>
    let n := position i target.elements.length
    target.withElements
      (putElement n (mergeAt value rest (target.elements[n]?.getD nil)) target.elements)

def mergeTop (key : Text) (value : Setting) (target : Setting) : Setting :=
  let path := KeyPath.ofKey key
  mergeAt value (.child path.first :: path.steps) target

def mergeFile (entries : List (Text × Setting)) (target : Setting) : Setting :=
  entries.foldl (fun target (key, value) => mergeTop key value target) target

end Setting

end SqfMinifier
