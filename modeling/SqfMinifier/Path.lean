import SqfMinifier.Text.Basic

/-!
Slash-separated paths as text, and the names derived from them. A path is a lead (the root, a
leading `.`, or nothing) and segments; empty segments and single dots between segments say
nothing and are passed over. Nothing here looks at files.
-/

namespace SqfMinifier

abbrev Path := Text

namespace Path

def isAbsolute (p : Path) : Bool := p.head? == some '/'

/-- The root or leading `.` of a path, and the rest. -/
def lead : Path → Text × Text
  | '/' :: rest => (['/'], rest)
  | ['.'] => (['.'], [])
  | '.' :: '/' :: rest => (['.'], '/' :: rest)
  | p => ([], p)

def saysNothing (segment : Text) : Bool := segment == [] || segment == ['.']

def joinSegments (segments : List Text) : Text := ['/'].intercalate segments

/-- The last segment that says something, and those before it, the nearest first. -/
def unsnoc (p : Path) : Option (Text × List Text) :=
  match (Text.split '/' (lead p).2).reverse.dropWhile saysNothing with
  | [] => none
  | last :: before => some (last, before)

def fileName? (p : Path) : Option Text :=
  match unsnoc p with
  | some (name, _) => if name = ['.', '.'] then none else some name
  | none => none

def parent (p : Path) : Path :=
  match unsnoc p with
  | some (_, before) => (lead p).1 ++ joinSegments (before.dropWhile saysNothing).reverse
  | none => p

/-- An absolute name replaces the base. -/
def push (base : Path) (name : Text) : Path :=
  if isAbsolute name then name
  else if base = [] ∨ base.getLast? = some '/' then base ++ name
  else base ++ '/' :: name

def withFileName (p : Path) (name : Text) : Path :=
  push (if (fileName? p).isSome then parent p else p) name

/-- Stem and extension of a file name. A dot in front of the whole name starts no extension. -/
def splitAtDot (name : Text) : Text × Option Text :=
  match name.reverse.dropWhile (· != '.') with
  | _ :: c :: before =>
    ((c :: before).reverse, some (name.reverse.takeWhile (· != '.')).reverse)
  | _ => (name, none)

def stem (p : Path) : Text :=
  match fileName? p with
  | some name => (splitAtDot name).1
  | none => []

def extension? (p : Path) : Option Text := (fileName? p).bind fun name => (splitAtDot name).2

def outputWith (input : Path) (suffix : Text) (extension : Option Text) : Path :=
  withFileName input <| stem input ++ suffix ++
    match extension with
    | some e => '.' :: e
    | none => []

def defaultOutput (input : Path) (suffix : Text) : Path :=
  outputWith input suffix (extension? input)

end Path

end SqfMinifier
