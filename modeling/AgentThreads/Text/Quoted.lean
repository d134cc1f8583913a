import AgentThreads.Text.Printable

/-!
# Quoted texts

A text shown between quotation marks inside a message, in a form that keeps it on one line and shows
every character: common controls by a letter, other unprintable characters by their number.
-/

namespace AgentThreads.Text.Quoted

/-- A character by its number in lower case hexadecimal, such as `\u{1f}`. -/
def numbered (c : Char) : List Char :=
  ['\\', 'u', '\x7b'] ++ Nat.toDigits 16 c.toNat ++ ['\x7d']

/-- A character inside quotation marks. -/
def encodeChar (c : Char) : List Char :=
  if c = '\x00' then ['\\', '0']
  else if c = '\t' then ['\\', 't']
  else if c = '\n' then ['\\', 'n']
  else if c = '\r' then ['\\', 'r']
  else if c = '"' ∨ c = '\\' then ['\\', c]
  else if isPrintable c then [c]
  else numbered c

/-- The text between quotation marks. -/
def encode (s : String) : String :=
  String.ofList ('"' :: s.toList.flatMap encodeChar ++ ['"'])

end AgentThreads.Text.Quoted
