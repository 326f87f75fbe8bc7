import SqfMinifier.Minify

/-!
The forms in which a source can be given out: minified, or as a dump of its tokens, either one
tag per token or JSON with byte offsets.
-/

namespace SqfMinifier

inductive EmitFormat where
  | minified
  | tokensSimple
  | tokensJson
  deriving DecidableEq, Repr

inductive EmitError where
  | invalidFormat (name : String)
  | serialization (cause : String)
  deriving DecidableEq, Repr

namespace EmitFormat

def all : List EmitFormat := [minified, tokensSimple, tokensJson]

def name : EmitFormat → String
  | minified => "minified"
  | tokensSimple => "tokens-simple"
  | tokensJson => "tokens-json"

def extension? : EmitFormat → Option Text
  | minified => none
  | tokensSimple => some "tokens".toList
  | tokensJson => some "json".toList

def ofName (name : String) : Except EmitError EmitFormat :=
  match all.find? (·.name == name) with
  | some format => .ok format
  | none => .error (.invalidFormat name)

end EmitFormat

def EmitError.message : EmitError → String
  | invalidFormat name =>
    "Invalid format: " ++ name ++ " (expected one of: " ++
      ", ".intercalate (EmitFormat.all.map EmitFormat.name) ++ ")"
  | serialization cause => "Serialization error: " ++ cause

namespace Token

/-- Line ends are shown by their tag alone, so that the dump breaks where the source does. -/
def showTag (t : Token) : Text :=
  match t.kind with
  | .newline => "<newline>\n".toList
  | kind => '<' :: kind.tag.toList ++ ':' :: t.text ++ ['>']

def dumpTags (source : Text) : Text := (tokens source).flatMap showTag

end Token

def Span.showJson (s : Span) : Text :=
  "  \x7b\n    \"token\": \"".toList ++ s.kind.name.toList ++ "\",\n    \"start\": ".toList ++
    Nat.toDigits 10 s.start ++ ",\n    \"end\": ".toList ++ Nat.toDigits 10 s.stop ++
    "\n  \x7d".toList

def Token.dumpJson (source : Text) : Text :=
  match (spans source).map Span.showJson with
  | [] => ['[', ']']
  | items => "[\n".toList ++ [',', '\n'].intercalate items ++ "\n]".toList

def render (format : EmitFormat) (aware : Bool) (source : Text) : Text :=
  match format with
  | .minified => minify aware source
  | .tokensSimple => Token.dumpTags source
  | .tokensJson => Token.dumpJson source

end SqfMinifier
