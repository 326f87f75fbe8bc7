import SqfMinifier.Text.Basic
import SqfMinifier.Text.Unprintable

/-!
Text in double quotes, as messages and log lines show it. Quotes and backslashes get a backslash,
the usual controls their letters, and what cannot be shown its code point in hexadecimal.
-/

namespace SqfMinifier

namespace Text

def escapeChar (c : Char) : Text :=
  if c = '\x00' then ['\\', '0']
  else if c = '\t' then ['\\', 't']
  else if c = '\r' then ['\\', 'r']
  else if c = '\n' then ['\\', 'n']
  else if c = '\\' then ['\\', '\\']
  else if c = '"' then ['\\', '"']
  else if unprintable.contains c then
    ['\\', 'u', '\x7b'] ++ Nat.toDigits 16 c.toNat ++ ['\x7d']
  else [c]

def quoted (t : Text) : Text := '"' :: t.flatMap escapeChar ++ ['"']

end Text

end SqfMinifier
