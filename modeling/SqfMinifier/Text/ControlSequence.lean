import SqfMinifier.Text.Basic

/-!
Text without what would steer a terminal: control characters other than white space are dropped,
and so are the sequences that an escape character opens. Every escape character opens a new
sequence, and a cancel or substitute character ends the one that is open.

White space inside a sequence of letters and parameters is shown, and so is the text behind it. The
sequence goes on at the next dropped character, unless a character beyond ASCII was shown before.
-/

namespace SqfMinifier

inductive ControlSequence where
  | escape
  | intermediate
  | parameters
  | deviceEntry
  | deviceParameters
  | deviceIntermediate
  | string
  | systemCommand
  deriving DecidableEq, Repr

namespace ControlSequence

inductive State where
  | text
  | inside (sequence : ControlSequence)
  | suspended (sequence : ControlSequence)
  deriving DecidableEq, Repr

def between (low high c : Char) : Bool := low ≤ c && c ≤ high

def isSpacing (c : Char) : Bool := c == '\t' || c == '\n' || c == '\x0c' || c == '\r'

def isShown (c : Char) : Bool := isSpacing c || (' ' ≤ c && c != '\x7f')

def showsSpacing : ControlSequence → Bool
  | escape | intermediate | parameters => true
  | _ => false

/-- A string ends with the byte `9c`, even if that is part of an encoded character. -/
def endsString (c : Char) : Bool := (String.utf8EncodeChar c).contains 0x9c

/-- How a sequence goes on after one more character; nothing if it is complete. -/
def next? (s : ControlSequence) (c : Char) : Option ControlSequence :=
  match s with
  | escape =>
    if c = '[' then some parameters
    else if c = ']' then some systemCommand
    else if c = 'P' then some deviceEntry
    else if c = 'X' || c = '^' || c = '_' then some string
    else if between ' ' '/' c then some intermediate
    else if between '0' '~' c then none
    else some escape
  | intermediate => if between '0' '~' c then none else some intermediate
  | parameters => if between '@' '~' c then none else some parameters
  | deviceEntry =>
    if between ' ' '/' c then some deviceIntermediate
    else if between '0' '?' c then some deviceParameters
    else if between '@' '~' c then some string
    else some deviceEntry
  | deviceParameters =>
    if between ' ' '/' c then some deviceIntermediate
    else if between '<' '~' c then some string
    else some deviceParameters
  | deviceIntermediate => if between '0' '~' c then some string else some deviceIntermediate
  | string => if endsString c then none else some string
  | systemCommand => if c = '\x07' then none else some systemCommand

def step (state : State) (c : Char) : State × Bool :=
  if c = '\x1b' then (.inside escape, false)
  else if c = '\x18' || c = '\x1a' then (.text, false)
  else
    match state with
    | .text => (.text, isShown c)
    | .inside s =>
      if s.showsSpacing && isSpacing c then (.suspended s, true)
      else
        match s.next? c with
        | some s => (.inside s, false)
        | none => (.text, false)
    | .suspended s =>
      if !isShown c then (.inside s, false)
      else if c ≤ '\x7f' then (.suspended s, true)
      else (.text, true)

def visibleFrom (state : State) : Text → Text
  | [] => []
  | c :: rest =>
    let (state, shown) := step state c
    if shown then c :: visibleFrom state rest else visibleFrom state rest

end ControlSequence

namespace Text

def visible (t : Text) : Text := ControlSequence.visibleFrom .text t

end Text

end SqfMinifier
