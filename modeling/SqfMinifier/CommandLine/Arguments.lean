import SqfMinifier.Text.ControlSequence

/-!
The arguments of the command. Options and paths mix freely, short flags can be bundled, a value
is attached to its option or follows it, and everything after `--` is a path.

An option that waits for its value and a run of paths are settled only when the next option or
path is met, or at the end. So an unknown argument is reported before a fault in what is not yet
settled, while help and version settle it first.
-/

namespace SqfMinifier

inductive Valued where
  | code
  | config
  | emit
  deriving DecidableEq, Repr

inductive Flag where
  | defaultOutput
  | stringAware
  | help
  | version
  deriving DecidableEq, Repr

inductive UsageError where
  | unexpectedArgument (argument : Text)
  | unexpectedValue (value : Text) (argument : String)
  | valueRequired (argument : String)
  | repeated (argument : String)
  | conflict (first second : String)
  deriving DecidableEq, Repr

inductive Stop where
  | help
  | version
  | usage (error : UsageError)
  deriving DecidableEq, Repr

structure Invocation where
  paths : List Text
  code : Option Text
  config : Option Text
  emit : Option Text
  defaultOutput : Bool
  stringAware : Bool
  deriving DecidableEq, Repr

/-- What was typed is shown without anything that would steer the terminal. -/
def UsageError.message : UsageError → String
  | unexpectedArgument argument =>
    "error: unexpected argument '" ++ String.ofList argument.visible ++ "' found"
  | unexpectedValue value argument =>
    "error: unexpected value '" ++ String.ofList value.visible ++ "' for '" ++ argument ++
      "' found; no more were expected"
  | valueRequired argument =>
    "error: a value is required for '" ++ argument ++ "' but none was supplied"
  | repeated argument => "error: the argument '" ++ argument ++ "' cannot be used multiple times"
  | conflict first second =>
    "error: the argument '" ++ first ++ "' cannot be used with '" ++ second ++ "'"

namespace Valued

def usage : Valued → String
  | code => "--code <TEXT>"
  | config => "--config <FILE>"
  | emit => "--emit <emit>"

def ofLong? (name : Text) : Option Valued :=
  if name = "code".toList then some code
  else if name = "config".toList then some config
  else if name = "emit".toList then some emit
  else none

def ofShort? (c : Char) : Option Valued := if c = 'c' then some config else none

end Valued

namespace Flag

def usage : Flag → String
  | defaultOutput => "--default-output"
  | stringAware => "--string-aware"
  | help => "--help"
  | version => "--version"

def ofLong? (name : Text) : Option Flag :=
  if name = "default-output".toList then some defaultOutput
  else if name = "string-aware".toList then some stringAware
  else if name = "help".toList then some help
  else if name = "version".toList then some version
  else none

def ofShort? (c : Char) : Option Flag :=
  if c = 'd' then some defaultOutput
  else if c = 'h' then some help
  else if c = 'V' then some version
  else none

end Flag

namespace Arguments

def pathsUsage : String := "[PATH]..."

inductive Pending where
  | nothing
  | option (option : Valued) (value : Option Text)
  | paths (paths : List Text)
  deriving DecidableEq, Repr

/-- Settled options in the order in which they were settled, and what is pending. -/
structure State where
  values : List (Valued × Text)
  flags : List Flag
  paths : List Text
  codeFirst : Bool
  pending : Pending
  onlyPaths : Bool
  deriving DecidableEq, Repr

def State.initial : State := ⟨[], [], [], false, .nothing, false⟩

def State.value? (s : State) (option : Valued) : Option Text := s.values.lookup option

abbrev Step := Except Stop State

def fail (error : UsageError) : Step := .error (.usage error)

def acceptValue (s : State) (option : Valued) (value : Text) : Step :=
  if (s.value? option).isSome then fail (.repeated option.usage)
  else if option = .config && value = [] then fail (.valueRequired option.usage)
  else
    .ok { s with
      values := s.values ++ [(option, value)]
      codeFirst := s.codeFirst || (option = .code && !s.flags.contains .defaultOutput) }

def settle (s : State) : Step :=
  let settled := { s with pending := .nothing }
  match s.pending with
  | .nothing => .ok settled
  | .option option none => fail (.valueRequired option.usage)
  | .option option (some value) => acceptValue settled option value
  | .paths paths =>
    if paths.contains [] then fail (.valueRequired pathsUsage)
    else .ok { settled with paths := s.paths ++ paths }

def acceptFlag (s : State) (flag : Flag) : Step := do
  let s ← settle s
  match flag with
  | .help => .error .help
  | .version => .error .version
  | flag =>
    if s.flags.contains flag then fail (.repeated flag.usage)
    else .ok { s with flags := s.flags ++ [flag] }

def acceptOption (s : State) (option : Valued) (attached : Option Text) : Step := do
  let s ← settle s
  match attached with
  | some value => acceptValue s option value
  | none => .ok { s with pending := .option option none }

def acceptPath (s : State) (path : Text) : Step :=
  match s.pending with
  | .paths paths => .ok { s with pending := .paths (paths ++ [path]) }
  | _ => do
    let s ← settle s
    .ok { s with pending := .paths [path] }

def acceptWord (s : State) (word : Text) : Step :=
  match s.pending with
  | .option option none =>
    if s.onlyPaths then acceptPath s word
    else .ok { s with pending := .option option (some word) }
  | _ => acceptPath s word

def splitAtEquals (t : Text) : Text × Option Text :=
  match t.dropWhile (· != '=') with
  | [] => (t, none)
  | _ :: value => (t.takeWhile (· != '='), some value)

def acceptLong (s : State) (body : Text) : Step :=
  let (name, attached) := splitAtEquals body
  match Valued.ofLong? name, Flag.ofLong? name with
  | some option, _ => acceptOption s option attached
  | none, some flag =>
    match attached with
    | some value => fail (.unexpectedValue value flag.usage)
    | none => acceptFlag s flag
  | none, none => fail (.unexpectedArgument ('-' :: '-' :: name))

def dropEquals : Text → Text
  | '=' :: rest => rest
  | t => t

/-- Bundled short flags. An option among them takes the rest as its value, if there is any. -/
def acceptShorts (s : State) : Text → Step
  | [] => .ok s
  | c :: rest =>
    match Valued.ofShort? c, Flag.ofShort? c with
    | some option, _ => acceptOption s option (if rest = [] then none else some (dropEquals rest))
    | none, some flag => do
      let s ← acceptFlag s flag
      acceptShorts s rest
    | none, none => fail (.unexpectedArgument ['-', c])

def accept (s : State) (argument : Text) : Step :=
  if s.onlyPaths then acceptWord s argument
  else
    match argument with
    | ['-', '-'] => .ok { s with onlyPaths := true }
    | '-' :: '-' :: body => acceptLong s body
    | '-' :: c :: rest => acceptShorts s (c :: rest)
    | word => acceptWord s word

/-- Inline code has no place beside which its output could go. -/
def finish (s : State) : Except Stop Invocation := do
  let s ← settle s
  let code := s.value? .code
  let defaultOutput := s.flags.contains .defaultOutput
  if code.isSome && defaultOutput then
    let (first, second) :=
      if s.codeFirst then (Valued.code.usage, Flag.defaultOutput.usage)
      else (Flag.defaultOutput.usage, Valued.code.usage)
    .error (.usage (.conflict first second))
  else
    .ok { paths := s.paths, code, config := s.value? .config, emit := s.value? .emit,
          defaultOutput, stringAware := s.flags.contains .stringAware }

def parse (arguments : List Text) : Except Stop Invocation := do
  finish (← arguments.foldlM accept State.initial)

end Arguments

end SqfMinifier
