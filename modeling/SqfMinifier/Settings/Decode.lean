import SqfMinifier.Decimal.Shortest
import SqfMinifier.Settings.Basic
import SqfMinifier.Settings.Value

/-!
Reading the resolved settings out of a merged value. A section is a table of named fields, or an
array that gives the fields by position. Switches and texts are also read from values of other
scalar types.
-/

namespace SqfMinifier

inductive Found where
  | scalar (value : Scalar)
  | sequence
  | map
  | unit
  deriving DecidableEq, Repr

inductive SettingsError where
  | wrongType (found : Found) (expected key : String) (origin : Option Path)
  | notSection (found : Found) (title : String)
  | emptySection (title : String)
  | missingField (name : String)
  | emptySuffix
  | fileNotFound (path : Path)
  | invalidUtf8
  | malformed (file : Path)
  | notTable (found : Found) (file : Path)
  deriving DecidableEq, Repr

def Found.message : Found → String
  | scalar (.boolean b) => "boolean `" ++ toString b ++ "`"
  | scalar (.integer i) => "integer `" ++ toString i ++ "`"
  | scalar (.float x) => "floating point `" ++ String.ofList x.toTextWithPoint ++ "`"
  | scalar (.text t) => "string " ++ String.ofList (Text.quoted t)
  | sequence => "sequence"
  | map => "map"
  | unit => "unit value"

/-- What is wrong with a malformed file, and where, is not told. -/
def SettingsError.message : SettingsError → String
  | wrongType found expected key origin =>
    "invalid type: " ++ found.message ++ ", expected " ++ expected ++ " for key `" ++ key ++ "`" ++
      (match origin with
       | some file => " in " ++ String.ofList file
       | none => "")
  | notSection found title => "invalid type: " ++ found.message ++ ", expected struct " ++ title
  | emptySection title => "invalid length 0, expected struct " ++ title ++ " with 1 element"
  | missingField name => "missing field `" ++ name ++ "`"
  | emptySuffix => "output.suffix must not be empty"
  | fileNotFound path => "configuration file \"" ++ String.ofList path ++ "\" not found"
  | invalidUtf8 => "stream did not contain valid UTF-8"
  | malformed _ => "TOML parse error"
  | notTable found file =>
    "invalid type: " ++ found.message ++ ", expected a map in " ++ String.ofList file ++ " in " ++
      String.ofList file

namespace Setting

def found : Setting → Found
  | nil => .unit
  | scalar _ value => .scalar value
  | array .. => .sequence
  | table .. => .map

def origin? : Setting → Option Path
  | nil => none
  | scalar origin _ | array origin _ | table origin _ => origin

def truthy : List Text := ["1", "true", "on", "yes"].map String.toList

def falsy : List Text := ["0", "false", "off", "no"].map String.toList

def switch? (key : String) (s : Setting) : Except SettingsError Bool :=
  match s with
  | scalar _ (.boolean b) => .ok b
  | scalar _ (.integer i) => .ok (i != 0)
  | scalar _ (.float x) => .ok !x.isZero
  | scalar origin (.text t) =>
    let word := Text.lower t
    if truthy.contains word then .ok true
    else if falsy.contains word then .ok false
    else .error (.wrongType (.scalar (.text word)) "a boolean" key origin)
  | s => .error (.wrongType s.found "a boolean" key s.origin?)

def text? (key : String) (s : Setting) : Except SettingsError Text :=
  match s with
  | scalar _ (.text t) => .ok t
  | scalar _ (.boolean b) => .ok (toString b).toList
  | scalar _ (.integer i) => .ok (toString i).toList
  | scalar _ (.float x) => .ok x.toText
  | s => .error (.wrongType s.found "a string" key s.origin?)

/-- A section of one field: its name in the file, its name in messages, and the field. -/
structure Section where
  key : String
  title : String
  field : String

def Section.read {α : Type} (sec : Section) (decode : String → Setting → Except SettingsError α)
    (root : Setting) : Except SettingsError α :=
  match root.get? sec.key.toList with
  | none => .error (.missingField sec.key)
  | some (table origin entries) =>
    match (table origin entries).get? sec.field.toList with
    | none => .error (.missingField sec.field)
    | some value => decode (sec.key ++ "." ++ sec.field) value
  | some (array _ []) => .error (.emptySection sec.title)
  | some (array _ (value :: _)) => decode (sec.key ++ "[0]") value
  | some other => .error (.notSection other.found sec.title)

end Setting

namespace Settings

def stripSection : Setting.Section := ⟨"strip", "StripConfig", "string_aware"⟩

def outputSection : Setting.Section := ⟨"output", "OutputConfig", "suffix"⟩

/-- An empty suffix would make the input file its own output. -/
def ofSetting (root : Setting) : Except SettingsError Settings := do
  let stringAware ← stripSection.read Setting.switch? root
  let suffix ← outputSection.read Setting.text? root
  if suffix = [] then .error .emptySuffix else .ok ⟨stringAware, suffix⟩

def toSetting (s : Settings) : Setting :=
  .table none
    [("strip".toList, .table none [("string_aware".toList, .scalar none (.boolean s.stringAware))]),
      ("output".toList, .table none [("suffix".toList, .scalar none (.text s.suffix))])]

end Settings

end SqfMinifier
