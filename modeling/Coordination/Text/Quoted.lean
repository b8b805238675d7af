import Coordination.Text.Hex
import Coordination.Text.Unprintable
/-!
# Quoted text

Text between double quotes, in which the quote, the backslash and every character that cannot be
seen are written as escapes.
-/

namespace Coordination.Text.Quoted

/-- One character as it stands between the quotes. -/
def escapeChar (c : Char) : List Char :=
  if c = '\x00' then ['\\', '0']
  else if c = '\t' then ['\\', 't']
  else if c = '\r' then ['\\', 'r']
  else if c = '\n' then ['\\', 'n']
  else if c = '"' then ['\\', '"']
  else if c = '\\' then ['\\', '\\']
  else if c.toNat < 0x20 ∨ (0x7e < c.toNat ∧ isUnprintable c) then
    ['\\', 'u', '\x7b'] ++ Hex.lowerDigits c.toNat ++ ['\x7d']
  else [c]

def quote (s : String) : String :=
  String.ofList ('"' :: s.toList.flatMap escapeChar ++ ['"'])

end Coordination.Text.Quoted
