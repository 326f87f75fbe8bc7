import SqfMinifier.Layout
import SqfMinifier.Scan

/-!
The minifier: comments go, directives are set apart, blanks collapse, and one leading line feed
is trimmed. There is no text that it refuses.
-/

namespace SqfMinifier

structure Stages where
  uncommented : Text
  isolated : Text
  collapsed : Text
  output : Text
  deriving DecidableEq, Repr

def Stages.ofUncommented (uncommented : Text) : Stages :=
  let isolated := isolateDirectives uncommented
  let collapsed := collapseBlanks isolated
  { uncommented, isolated, collapsed, output := trimLeadingNewline collapsed }

def stages (aware : Bool) (source : Text) : Stages :=
  .ofUncommented (removeComments aware source)

/-- The minified form of a source. With `aware`, text in quotes holds no comments. -/
def minify (aware : Bool) (source : Text) : Text := (stages aware source).output

end SqfMinifier
