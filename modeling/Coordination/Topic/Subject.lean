import Coordination.Topic.Address
import Coordination.Text.Hex
/-!
# Subjects

A subject is the form of a topic on a broker whose tokens stand between dots.  Each segment of the
topic becomes one token: the wildcard becomes `*`, and the characters that have a meaning of their
own on the broker are escaped by a percent sign and two digits.
-/

namespace Coordination.Topic.Subject

/-! ## Escapes -/

/-- The characters that cannot stand in a token as they are. -/
def isReserved (c : Char) : Bool :=
  c = '%' || c = '.' || c = '*' || c = '>' ||
    c = ' ' || c = '\t' || c = '\n' || c = '\x0c' || c = '\r'

/-- A character in a token.  Every reserved character is below 128 and has two digits. -/
def escapeChar (c : Char) : List Char :=
  if isReserved c then ['%', Text.Hex.upperDigit (c.toNat / 16), Text.Hex.upperDigit (c.toNat % 16)]
  else [c]

/-- A segment as a token. -/
def escapeChars (cs : List Char) : List Char := cs.flatMap escapeChar

/-- The number that two characters after a percent sign write: two hexadecimal digits, or a plus
sign and one digit. -/
def escapeCode? (high low : Char) : Option Nat :=
  match Text.Hex.digit? low with
  | none => none
  | some l =>
    match Text.Hex.digit? high with
    | some h => some (16 * h + l)
    | none => if high = '+' then some l else none

/-- A token with its escapes replaced from left to right; a percent sign that starts no escape stays
as it is. -/
def unescapeChars : List Char → List Char
  | [] => []
  | [c] => [c]
  | [c, d] => [c, d]
  | c :: high :: low :: rest =>
    if c = '%' then
      match escapeCode? high low with
      | some n => Char.ofNat n :: unescapeChars rest
      | none => c :: unescapeChars (high :: low :: rest)
    else c :: unescapeChars (high :: low :: rest)

/-! ## Tokens -/

/-- The token of a segment. -/
def ofSegment (segment : String) : String :=
  if segment = any then "*" else String.ofList (escapeChars segment.toList)

/-- The segment of a token of a definite subject. -/
def toSegment (token : String) : String :=
  String.ofList (unescapeChars token.toList)

end Subject

/-- The subject of a topic or filter. -/
def toSubject (topic : String) : String :=
  Text.join '.' ((Text.split '/' topic).map Subject.ofSegment)

/-- The topic of a definite subject. -/
def ofSubject (subject : String) : String :=
  Text.join '/' ((Text.split '.' subject).map Subject.toSegment)

end Coordination.Topic
