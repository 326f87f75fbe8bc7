import SqfMinifier.FileTree.Basic
import SqfMinifier.Path

/-!
The files a run can see, and the directory it works in. Paths are followed segment by segment:
each but the last has to name a directory, `..` leads upwards and stays at the root, and empty
segments and single dots stay where they are.

A write either fails when the path is opened or stores all of its bytes.
-/

namespace SqfMinifier

inductive OsError where
  | noEntry
  | notDirectory
  | isDirectory
  | nameTooLong
  | nulInPath
  | invalidUtf8
  deriving DecidableEq, Repr

def OsError.message : OsError → String
  | noEntry => "No such file or directory (os error 2)"
  | notDirectory => "Not a directory (os error 20)"
  | isDirectory => "Is a directory (os error 21)"
  | nameTooLong => "File name too long (os error 36)"
  | nulInPath => "file name contained an unexpected NUL byte"
  | invalidUtf8 => "stream did not contain valid UTF-8"

structure World where
  tree : FileTree
  workingDirectory : Location
  deriving DecidableEq

namespace World

def maxNameBytes : Nat := 255

def maxPathBytes : Nat := 4095

def empty (workingDirectory : Location) : World :=
  ⟨((FileTree.mk []).makeDirectory workingDirectory).getD ⟨[]⟩, workingDirectory⟩

/-- Follows segments downwards from `here`. The place reached need not exist. -/
def walk (tree : FileTree) (here : Location) : List Text → Except OsError Location
  | [] => .ok here
  | segment :: rest =>
    match tree.get? here with
    | none => .error .noEntry
    | some (.file _) => .error .notDirectory
    | some .directory =>
      if Path.saysNothing segment then walk tree here rest
      else if segment = ['.', '.'] then walk tree here.dropLast rest
      else if maxNameBytes < Text.byteSize segment then .error .nameTooLong
      else walk tree (here ++ [segment]) rest

def start (w : World) (p : Path) : Location :=
  if Path.isAbsolute p then [] else w.workingDirectory

def checkPath (p : Path) : Except OsError Unit :=
  if p.contains '\x00' then .error .nulInPath
  else if p = [] then .error .noEntry
  else if maxPathBytes < Text.byteSize p then .error .nameTooLong
  else .ok ()

def resolve (w : World) (p : Path) : Except OsError Location := do
  checkPath p
  walk w.tree (w.start p) (Text.split '/' p)

def read (w : World) (p : Path) : Except OsError ByteArray := do
  match w.tree.get? (← w.resolve p) with
  | none => .error .noEntry
  | some .directory => .error .isDirectory
  | some (.file content) => .ok content

def readText (w : World) (p : Path) : Except OsError Text := do
  match String.fromUTF8? (← w.read p) with
  | some s => .ok s.toList
  | none => .error .invalidUtf8

def isFile (w : World) (p : Path) : Bool := (w.read p).toOption.isSome

def dropTrailingSlashes (p : Path) : Path := (p.reverse.dropWhile (· == '/')).reverse

/-- The place a written file takes. A path that ends in a slash or in dots names a directory,
whether there is one or not. -/
def resolveOutput (w : World) (p : Path) : Except OsError Location := do
  checkPath p
  let segments := Text.split '/' (dropTrailingSlashes p)
  let here ← walk w.tree (w.start p) segments.dropLast
  match w.tree.get? here, segments.getLast? with
  | none, _ => .error .noEntry
  | some (.file _), _ => .error .notDirectory
  | some .directory, none => .error .isDirectory
  | some .directory, some name =>
    if p.getLast? = some '/' || Path.saysNothing name || name = ['.', '.'] then
      .error .isDirectory
    else if maxNameBytes < Text.byteSize name then .error .nameTooLong
    else if w.tree.get? (here ++ [name]) = some .directory then .error .isDirectory
    else .ok (here ++ [name])

def writeText (w : World) (p : Path) (t : Text) : Except OsError World := do
  let place ← w.resolveOutput p
  .ok { w with tree := w.tree.set place (.file (String.ofList t).toUTF8) }

end World

end SqfMinifier
