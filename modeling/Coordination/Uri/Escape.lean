import Coordination.Text.Hex
/-!
# Escapes in web addresses

The bytes of a character that cannot stand in a part of an address are written as a percent sign
and two digits each.  Which characters those are depends on the part.
-/

namespace Coordination.Uri

/-- A set of ASCII characters. -/
abbrev EscapeSet := Char → Bool

def controlSet : EscapeSet := fun c => c.toNat < 0x20 || c = '\x7f'

/-- What is escaped after the number sign. -/
def fragmentSet : EscapeSet := fun c =>
  controlSet c || c = ' ' || c = '"' || c = '<' || c = '>' || c = '`'

def querySet : EscapeSet := fun c =>
  controlSet c || c = ' ' || c = '"' || c = '#' || c = '<' || c = '>'

/-- What is escaped in a query under a scheme of the web. -/
def specialQuerySet : EscapeSet := fun c => querySet c || c = '\''

def pathSet : EscapeSet := fun c =>
  fragmentSet c || c = '#' || c = '?' || c = '\x7b' || c = '\x7d'

/-- What is escaped in the name and password of a user. -/
def userSet : EscapeSet := fun c =>
  pathSet c || c = '/' || c = ':' || c = ';' || c = '=' || c = '@' || c = '[' || c = '\\' ||
    c = ']' || c = '^' || c = '|'

def escapeByte (b : UInt8) : List Char :=
  ['%', Text.Hex.upperDigit (b.toNat / 16), Text.Hex.upperDigit (b.toNat % 16)]

/-- A character, escaped if it is in the set or beyond ASCII. -/
def escapeChar (set : EscapeSet) (c : Char) : List Char :=
  if c.toNat < 0x80 && !set c then [c] else (String.utf8EncodeChar c).flatMap escapeByte

/-- Characters, each escaped if it has to be. -/
def escapeChars (set : EscapeSet) (cs : List Char) : List Char :=
  cs.flatMap (escapeChar set)

/-- The bytes of characters with their escapes undone; a percent sign that starts no escape stands
for itself. -/
def unescapeBytes : List Char → List UInt8
  | [] => []
  | [c] => String.utf8EncodeChar c
  | [c, d] => String.utf8EncodeChar c ++ String.utf8EncodeChar d
  | c :: high :: low :: rest =>
    if c = '%' then
      match Text.Hex.digit? high, Text.Hex.digit? low with
      | some h, some l => UInt8.ofNat (16 * h + l) :: unescapeBytes rest
      | _, _ => String.utf8EncodeChar c ++ unescapeBytes (high :: low :: rest)
    else String.utf8EncodeChar c ++ unescapeBytes (high :: low :: rest)

/-! ## Form fields -/

/-- Whether a character stands for itself in a form field. -/
def isFormSafe (c : Char) : Bool :=
  c.isAlphanum || c = '*' || c = '-' || c = '.' || c = '_'

/-- A text in a form field: a blank becomes a plus sign. -/
def formChars (cs : List Char) : List Char :=
  cs.flatMap fun c =>
    if c = ' ' then ['+']
    else if isFormSafe c then [c]
    else (String.utf8EncodeChar c).flatMap escapeByte

/-- Fields as the body of a form. -/
def formBody (fields : List (String × String)) : String :=
  String.intercalate "&" (fields.map fun (k, v) =>
    String.ofList (formChars k.toList ++ '=' :: formChars v.toList))

end Coordination.Uri
