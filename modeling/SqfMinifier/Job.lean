import SqfMinifier.Event
import SqfMinifier.World

/-!
Jobs on files: loading a source, and minifying one file into a target. A job gives its result,
what it reports, and the world it leaves behind.
-/

namespace SqfMinifier

inductive FileError where
  | notFound (path : Path)
  | io (cause : String)
  deriving DecidableEq, Repr

def FileError.message : FileError → String
  | notFound path => "Cannot find file: \"" ++ String.ofList path ++ "\""
  | io cause => "IO error: " ++ cause

structure Report (α : Type) where
  result : Except FileError α
  events : List Event
  world : World

inductive Target where
  | nowhere
  | besideInput
  | file (path : Path)
  deriving DecidableEq, Repr

def Target.path? (input : Path) (suffix : Text) : Target → Option Path
  | nowhere => none
  | besideInput => some (Path.defaultOutput input suffix)
  | file path => some path

def loadFile (w : World) (path : Path) : Except FileError Text :=
  match w.readText path with
  | .ok source => .ok source
  | .error .noEntry => .error (.notFound path)
  | .error cause => .error (.io cause.message)

def Event.ofLoad (w : World) (path : Path) : List Event :=
  match loadFile w path with
  | .ok source => [.loaded path (Text.byteSize source)]
  | .error _ => []

def loadCode (w : World) (code : Text) : Except FileError Text :=
  if w.isFile code then loadFile w code else .ok code

def Event.ofLoadCode (w : World) (code : Text) : List Event :=
  if w.isFile code then Event.ofLoad w code else []

def minifyFile (w : World) (input : Path) (target : Target) (aware : Bool) (suffix : Text) :
    Report Text :=
  match loadFile w input with
  | .error e => ⟨.error e, [], w⟩
  | .ok source =>
    let output := minify aware source
    let events := Event.ofLoad w input ++ Event.ofMinify aware source
    match target.path? input suffix with
    | none => ⟨.ok output, events, w⟩
    | some path =>
      match w.writeText path output with
      | .error e => ⟨.error (.io e.message), events, w⟩
      | .ok after => ⟨.ok output, events ++ [.wrote path (Text.byteSize output)], after⟩

end SqfMinifier
