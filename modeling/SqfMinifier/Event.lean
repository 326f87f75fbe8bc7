import SqfMinifier.Minify
import SqfMinifier.Settings.Basic

/-!
What a run reports while it works. An event is the cause; its level, the part of the program it
comes from, the message and the fields are read off it, and so is the log line.
-/

namespace SqfMinifier

inductive Event where
  | openComment (offset : Nat)
  | minified (aware : Bool) (input uncommented isolated output : Nat)
  | loaded (path : Text) (bytes : Nat)
  | wrote (path : Text) (bytes : Nat)
  | configured (settings : Settings)
  deriving DecidableEq, Repr

namespace Event

inductive Level where
  | debug
  | info
  deriving DecidableEq, Repr

inductive Field where
  | number (n : Nat)
  | flag (b : Bool)
  | text (s : String)
  deriving DecidableEq, Repr

def Level.name : Level → String
  | .debug => "DEBUG"
  | .info => "INFO"

def Field.render : Field → String
  | .number n => toString n
  | .flag b => toString b
  | .text s => s

def level : Event → Level
  | wrote .. => .info
  | _ => .debug

def target : Event → String
  | openComment .. => "sqfmin_core::stripping::comments"
  | minified .. => "sqfmin_core::stripping"
  | loaded .. | wrote .. => "sqfmin_core::loader"
  | configured .. => "sqfmin"

def message : Event → String
  | openComment .. => "unterminated block comment runs to end of input"
  | minified .. => "stripped source"
  | loaded .. => "loaded source"
  | wrote .. => "wrote minified output"
  | configured .. => "loaded configuration"

def fields : Event → List (String × Field)
  | openComment offset => [("offset", .number offset)]
  | minified aware input uncommented isolated output =>
    [("input", .number input), ("uncommented", .number uncommented),
      ("isolated", .number isolated), ("output", .number output), ("string_aware", .flag aware)]
  | loaded path bytes | wrote path bytes =>
    [("path", .text (String.ofList path)), ("bytes", .number bytes)]
  | configured settings => [("config", .text settings.describe)]

def line (e : Event) : String :=
  e.level.name ++ " " ++ e.target ++ ": " ++ e.message ++
    String.join (e.fields.map fun (name, value) => " " ++ name ++ "=" ++ value.render) ++ "\n"

def ofMinify (aware : Bool) (source : Text) : List Event :=
  let s := stages aware source
  (openComments aware source).map openComment ++
    [minified aware (Text.byteSize source) (Text.byteSize s.uncommented)
      (Text.byteSize s.isolated) (Text.byteSize s.output)]

end Event

end SqfMinifier
