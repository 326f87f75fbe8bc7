import SqfMinifier.CommandLine.Arguments
import SqfMinifier.Emit
import SqfMinifier.Job
import SqfMinifier.Settings.Layers

/-!
One run of the command: from the arguments and the world before it to the exit code, the two
output streams and the world after it. The log goes to the error stream, in front of the message
that ends a failed run.
-/

namespace SqfMinifier

inductive Verbosity where
  | silent
  | info
  | debug
  deriving DecidableEq, Repr

structure Outcome where
  exitCode : Nat
  stdout : Text
  stderr : Text
  world : World

inductive Input where
  | file (path : Path)
  | code (text : Text)
  deriving DecidableEq, Repr

namespace Verbosity

/-- Levels by name, in capitals or small letters. What only admits warnings and errors shows
nothing, as there are none. -/
def ofName (name : String) : Verbosity :=
  let level := name.toLower
  if level = "trace" || level = "debug" then debug
  else if level = "info" then info
  else silent

def shows (v : Verbosity) (e : Event) : Bool :=
  match v, e.level with
  | silent, _ => false
  | info, level => level == .info
  | debug, _ => true

def log (v : Verbosity) (events : List Event) : Text :=
  (events.filter v.shows).flatMap fun e => e.line.toList

end Verbosity

namespace CommandLine

def version : String := "sqfmin 0.1.0\n"

def help : String :=
  "Minifies an SQF source file\n" ++
  "\n" ++
  "Usage: sqfmin [OPTIONS] [PATH]...\n" ++
  "\n" ++
  "Arguments:\n" ++
  "  [PATH]...  Input file, optionally followed by the output file\n" ++
  "\n" ++
  "Options:\n" ++
  "      --code <TEXT>     Minify TEXT instead of an input file (an existing file path is read)\n" ++
  "  -d, --default-output  Write to <stem>-min<ext> next to the input instead of printing\n" ++
  "      --string-aware    Never treat // or /* inside string literals as comments\n" ++
  "  -c, --config <FILE>   Configuration file layered over the defaults\n" ++
  "      --emit <emit>     What to produce: minified, tokens-simple, tokens-json " ++
  "[default: minified]\n" ++
  "  -h, --help            Print help\n" ++
  "  -V, --version         Print version\n"

def task? (i : Invocation) : Option (Input × Target) :=
  match i.code, i.paths with
  | some code, [] => some (.code code, .nowhere)
  | some code, [output] => some (.code code, .file output)
  | none, [input] => some (.file input, if i.defaultOutput then .besideInput else .nowhere)
  | none, [input, output] => some (.file input, .file output)
  | _, _ => none

def layers (i : Invocation) : List Layer :=
  .project ['.'] :: (i.config.toList.map Layer.required ++
    if i.stringAware then [.stringAware true] else [])

def format (i : Invocation) : Except EmitError EmitFormat :=
  match i.emit with
  | some name => EmitFormat.ofName (String.ofList name)
  | none => .ok .minified

def outputPath? (settings : Settings) (format : EmitFormat) : Input → Target → Option Path
  | _, .file path => some path
  | .file input, .besideInput =>
    some (Path.outputWith input settings.suffix (format.extension?.or (Path.extension? input)))
  | _, _ => none

def load (w : World) : Input → Except FileError Text
  | .file path => loadFile w path
  | .code text => loadCode w text

def loadEvents (w : World) : Input → List Event
  | .file path => Event.ofLoad w path
  | .code text => Event.ofLoadCode w text

def emit (w : World) (settings : Settings) (format : EmitFormat) (input : Input)
    (target : Target) : Report (Option Text) :=
  match load w input with
  | .error e => ⟨.error e, [], w⟩
  | .ok source =>
    let rendered := render format settings.stringAware source
    let events := loadEvents w input ++
      if format = .minified then Event.ofMinify settings.stringAware source else []
    match outputPath? settings format input target with
    | none => ⟨.ok (some rendered), events, w⟩
    | some path =>
      match w.writeText path rendered with
      | .error e => ⟨.error (.io e.message), events, w⟩
      | .ok after => ⟨.ok none, events, after⟩

def perform (w : World) (settings : Settings) (format : EmitFormat) (input : Input)
    (target : Target) : Report (Option Text) :=
  match input, format with
  | .file path, .minified =>
    let r := minifyFile w path target settings.stringAware settings.suffix
    { r with result := r.result.map fun text => if target = .nowhere then some text else none }
  | _, _ => emit w settings format input target

def failure (w : World) (exitCode : Nat) (log : Text) (message : String) : Outcome :=
  ⟨exitCode, [], log ++ message.toList ++ ['\n'], w⟩

def fileMessage (e : FileError) : String :=
  match e with
  | .notFound _ => e.message
  | .io _ => "Error: " ++ e.message

def runTask (w : World) (verbosity : Verbosity) (i : Invocation) (input : Input)
    (target : Target) : Outcome :=
  match Settings.resolve w (layers i) with
  | .error e => failure w 1 [] ("Configuration error: " ++ e.message)
  | .ok settings =>
    let configured := [Event.configured settings]
    match format i with
    | .error e => failure w 1 (verbosity.log configured) e.message
    | .ok format =>
      let r := perform w settings format input target
      let log := verbosity.log (configured ++ r.events)
      match r.result with
      | .error e => failure r.world 1 log (fileMessage e)
      | .ok none => ⟨0, [], log, r.world⟩
      | .ok (some text) => ⟨0, text ++ ['\n'], log, r.world⟩

def run (w : World) (verbosity : Verbosity) (arguments : List Text) : Outcome :=
  match Arguments.parse arguments with
  | .error .help => ⟨0, help.toList, [], w⟩
  | .error .version => ⟨0, version.toList, [], w⟩
  | .error (.usage e) => failure w 2 [] e.message
  | .ok i =>
    match task? i with
    | none => ⟨0, help.toList, [], w⟩
    | some (input, target) => runTask w verbosity i input target

end CommandLine

end SqfMinifier
