import SqfMinifier.Settings.Decode
import SqfMinifier.Settings.KeyPath
import SqfMinifier.Toml.Document
import SqfMinifier.World

/-!
Layered settings. Files are merged over the built-in defaults in the order in which they were
added; the two overrides are applied after all files, wherever they stand among them, and the
last of each wins. The first file that fails decides the error.
-/

namespace SqfMinifier

inductive Layer where
  | project (directory : Path)
  | required (path : Path)
  | optional (path : Path)
  | stringAware (value : Bool)
  | suffix (value : Text)
  deriving DecidableEq, Repr

namespace Layer

def projectFile : Text := "sqfmin.toml".toList

def file? : Layer → Option (Path × Bool)
  | project directory => some (Path.push directory projectFile, false)
  | required path => some (path, true)
  | optional path => some (path, false)
  | stringAware _ | suffix _ => none

def stringAware? : Layer → Option Bool
  | stringAware value => some value
  | _ => none

def suffix? : Layer → Option Text
  | suffix value => some value
  | _ => none

end Layer

namespace Path

def places (p : Path) : List Text := (Text.split '/' p).filter fun s => !saysNothing s

def relativeTo : (base place : List Text) → List Text
  | [], place => place
  | b :: base, p :: place =>
    if b = p then relativeTo base place
    else (b :: base).map (fun _ => ['.', '.']) ++ p :: place
  | base, [] => base.map fun _ => ['.', '.']

def addExtension (p : Path) (extension : Text) : Option Path :=
  (fileName? p).map fun name => push (parent p) (name ++ '.' :: extension)

end Path

namespace Settings

def absolute (w : World) (p : Path) : Path :=
  Path.push ('/' :: Path.joinSegments w.workingDirectory) p

/-- A settings file is found under its name, or with `.toml` added to it. -/
def findFile (w : World) (p : Path) : Option Path :=
  let exact := absolute w p
  if w.isFile exact then some exact
  else
    match Path.addExtension exact "toml".toList with
    | some longer => if w.isFile longer then some longer else none
    | none => none

def originOf (w : World) (found : Path) : Path :=
  Path.joinSegments (Path.relativeTo w.workingDirectory (Path.places found))

/-- The entries of a settings file. A file that is missing or unreadable has none, unless it is
required. -/
def loadFile (w : World) (path : Path) (required : Bool) :
    Except SettingsError (List (Text × Setting)) :=
  match findFile w path with
  | none => if required then .error (.fileNotFound path) else .ok []
  | some found =>
    match w.readText found with
    | .error _ => if required then .error .invalidUtf8 else .ok []
    | .ok content =>
      match Toml.document? content with
      | none => .error (.malformed (originOf w found))
      | some value =>
        match Setting.ofToml (some (originOf w found)) value with
        | .table _ entries => .ok entries
        | other => .error (.notTable other.found (originOf w found))

def mergeFiles (w : World) : List Layer → Setting → Except SettingsError Setting
  | [], root => .ok root
  | layer :: rest, root =>
    match layer.file? with
    | none => mergeFiles w rest root
    | some (path, required) => do
      let entries ← loadFile w path required
      mergeFiles w rest (Setting.mergeFile entries root)

def override (sec : Setting.Section) (value : Option Scalar) (root : Setting) : Setting :=
  match value with
  | none => root
  | some value =>
    Setting.mergeAt (.scalar none value)
      [.child sec.key.toList, .child sec.field.toList] root

def resolve (w : World) (layers : List Layer) : Except SettingsError Settings := do
  let root ← mergeFiles w layers Settings.default.toSetting
  let root := override stripSection
    ((layers.filterMap Layer.stringAware?).getLast?.map Scalar.boolean) root
  let root := override outputSection
    ((layers.filterMap Layer.suffix?).getLast?.map Scalar.text) root
  ofSetting root

end Settings

end SqfMinifier
