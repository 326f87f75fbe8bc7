import SqfMinifier.Text.Basic

/-!
The layout of the minified text. Directive lines stand alone, all other lines are joined, runs
of blanks shrink, and line feeds never come twice.

Removing a gap must not change what a second run reads: where it keeps a `/` from a `/` or `*`,
or a `#` from the start of its line, one space stays.
-/

namespace SqfMinifier

namespace Layout

def startsDirective (line : Text) : Bool := line.head? == some '#'

/-- Whether the text so far, ending in `last`, and `next` would meet in a comment marker. -/
def formsMarker (last : Option Char) (next : Text) : Bool :=
  last == some '/' && (next.head? == some '/' || next.head? == some '*')

def joinLines (last : Option Char) : List Text → Text
  | [] => []
  | line :: rest =>
    if startsDirective line then
      '\n' :: line ++ '\n' :: joinLines (some '\n') rest
    else
      (if formsMarker last line then [' '] else []) ++ line ++
        joinLines (line.getLast?.or last) rest

/-- A run of blanks leaves one space if it holds exactly one, or if the space is needed. -/
def keepsSpace (last : Option Char) (run after : Text) : Bool :=
  run.count ' ' == 1 || formsMarker last after || (last.isNone && startsDirective after)

/-- Collapses the rest of a line of which `last` is the last character kept so far. -/
def collapseFrom (last : Option Char) : Text → Text
  | [] => []
  | c :: rest =>
    if Text.isBlank c then
      let after := rest.dropWhile Text.isBlank
      if after.isEmpty then []
      else if keepsSpace last (c :: rest.takeWhile Text.isBlank) after then
        ' ' :: collapseFrom (some ' ') after
      else collapseFrom last after
    else c :: collapseFrom (some c) rest
termination_by line => line.length
decreasing_by
  all_goals
    have := (List.dropWhile_sublist Text.isBlank (l := rest)).length_le
    simp only [List.length_cons]
    omega

def collapseLine (line : Text) : Text := collapseFrom none line

/-- Appends lines to a text; `ended` tells whether it already ends in a line feed. -/
def stackLines (ended : Bool) : List Text → Text
  | [] => []
  | line :: rest =>
    (if ended then [] else ['\n']) ++ collapseLine line ++
      stackLines (collapseLine line).isEmpty rest

end Layout

def isolateDirectives (t : Text) : Text := Layout.joinLines none (Text.lines t)

def collapseBlanks (t : Text) : Text :=
  match Text.split '\n' t with
  | [] => []
  | first :: rest => Layout.collapseLine first ++ Layout.stackLines false rest

def trimLeadingNewline : Text → Text
  | '\n' :: rest => rest
  | t => t

end SqfMinifier
