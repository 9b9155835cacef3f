/-
Text in double quotes, as messages show it: quotes and backslashes are escaped, line ends, tabs and
null characters have short names, and what does not stand for itself is shown by its number.
-/
import Interconnect.Text.Unprinted

namespace Interconnect

namespace Quoted

/-- A character by its number, in hexadecimal digits and curly brackets. -/
def numbered (c : Char) : List Char :=
  ['\\', 'u', '\x7b'] ++ Nat.toDigits 16 c.toNat ++ ['\x7d']

def encodeChar (c : Char) : List Char :=
  if c = '"' then ['\\', '"']
  else if c = '\\' then ['\\', '\\']
  else if c = '\n' then ['\\', 'n']
  else if c = '\r' then ['\\', 'r']
  else if c = '\t' then ['\\', 't']
  else if c = '\x00' then ['\\', '0']
  else if isUnprinted c then numbered c
  else [c]

/-- A text in quotes. -/
def text (s : String) : String :=
  String.ofList ('"' :: s.toList.flatMap encodeChar ++ ['"'])

end Quoted

end Interconnect
