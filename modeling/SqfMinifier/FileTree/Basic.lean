import SqfMinifier.Text.Basic

/-!
A tree of files and directories. Entries are found by their location, the names on the way down
from the root; the root itself is always a directory. Links, permissions and other kinds of files
are left out.
-/

namespace SqfMinifier

abbrev Location := List Text

inductive Node where
  | file (content : ByteArray)
  | directory

instance : DecidableEq Node
  | .file a, .file b =>
    match ByteArray.instDecidableEq a b with
    | isTrue h => isTrue (congrArg Node.file h)
    | isFalse h => isFalse fun e => h (Node.file.inj e)
  | .file _, .directory => isFalse nofun
  | .directory, .file _ => isFalse nofun
  | .directory, .directory => isTrue rfl

structure FileTree where
  entries : List (Location × Node)
  deriving DecidableEq

namespace FileTree

def get? (tree : FileTree) (place : Location) : Option Node :=
  if place = [] then some .directory else tree.entries.lookup place

def content? (tree : FileTree) (place : Location) : Option ByteArray :=
  match tree.get? place with
  | some (.file content) => some content
  | _ => none

def set (tree : FileTree) (place : Location) (node : Node) : FileTree :=
  ⟨(place, node) :: tree.entries.filter fun entry => entry.1 ≠ place⟩

def erase (tree : FileTree) (place : Location) : FileTree :=
  ⟨tree.entries.filter fun entry => !place.isPrefixOf entry.1⟩

def makeDirectories (tree : FileTree) (above : Location) : List Text → Option FileTree
  | [] => some tree
  | name :: rest =>
    match tree.get? (above ++ [name]) with
    | some .directory => tree.makeDirectories (above ++ [name]) rest
    | some (.file _) => none
    | none => (tree.set (above ++ [name]) .directory).makeDirectories (above ++ [name]) rest

def makeDirectory (tree : FileTree) (place : Location) : Option FileTree :=
  tree.makeDirectories [] place

def makeFile (tree : FileTree) (place : Location) (content : ByteArray) : Option FileTree := do
  let tree ← tree.makeDirectory place.dropLast
  if tree.get? place = some .directory then none
  else some (tree.set place (.file content))

def files (tree : FileTree) : List (Location × ByteArray) :=
  tree.entries.filterMap fun entry =>
    match entry.2 with
    | .file content => some (entry.1, content)
    | .directory => none

/-- Files that are new or hold something else in `after`, and files that are gone. -/
def changes (before after : FileTree) : List (Location × Option ByteArray) :=
  (after.files.filter fun file => before.get? file.1 ≠ some (.file file.2)).map
      (fun file => (file.1, some file.2)) ++
    (before.files.filter fun file => (after.content? file.1).isNone).map
      (fun file => (file.1, none))

end FileTree

end SqfMinifier
