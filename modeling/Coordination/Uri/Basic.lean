import Coordination.Uri.Host
/-!
# Web addresses

An address in its parts, how it is read from text and how it is written.  Reading follows the rules
of the web: blanks around the text are dropped, the schemes of the web have a host and treat a
backslash as a slash, the usual port of a scheme is left out, and dot segments are resolved.
-/

namespace Coordination

inductive UriPath where
  /-- A path without structure, as of a mail address. -/
  | rootless (text : String)
  /-- Segments, each after a slash. -/
  | rooted (segments : List String)
deriving DecidableEq, Repr

structure Uri where
  /-- The scheme in lower case. -/
  scheme : String
  /-- The name of a user, if not empty. -/
  username : String := ""
  password : Option String := none
  /-- The host in canonical form. -/
  host : Option String := none
  /-- The port, where it is not the usual one of the scheme. -/
  port : Option Nat := none
  path : UriPath
  query : Option String := none
  fragment : Option String := none
deriving DecidableEq, Repr

namespace Uri

/-! ## Schemes -/

/-- The schemes of the web with their usual ports. -/
def webPorts : List (String × Nat) :=
  [("http", 80), ("https", 443), ("ws", 80), ("wss", 443), ("ftp", 21)]

def defaultPort? (scheme : String) : Option Nat := webPorts.lookup scheme

/-- Whether a scheme follows the rules of the web. -/
def isSpecial (scheme : String) : Bool :=
  (defaultPort? scheme).isSome || scheme == "file"

/-! ## Writing -/

/-- The part between the two slashes and the path. -/
def authorityText (u : Uri) (withUser : Bool) : String :=
  match u.host with
  | none => ""
  | some host =>
    let user :=
      if !withUser then ""
      else match u.password with
        | some p => u.username ++ ":" ++ p ++ "@"
        | none => if u.username = "" then "" else u.username ++ "@"
    let port := match u.port with
      | some p => ":" ++ Nat.repr p
      | none => ""
    "//" ++ user ++ host ++ port

def pathText (u : Uri) : String :=
  match u.path with
  | .rootless text => text
  | .rooted segments =>
    let text := String.join (segments.map ("/" ++ ·))
    if u.host.isNone ∧ 1 < segments.length ∧ segments.head? = some "" then "/." ++ text else text

/-- The query with its mark. -/
def queryText (u : Uri) : String :=
  match u.query with
  | some q => "?" ++ q
  | none => ""

/-- The fragment with its mark. -/
def fragmentText (u : Uri) : String :=
  match u.fragment with
  | some f => "#" ++ f
  | none => ""

def render (u : Uri) : String :=
  u.scheme ++ ":" ++ u.authorityText true ++ u.pathText ++ u.queryText ++ u.fragmentText

/-- The address as a server sees it: without user and fragment. -/
def requestText (u : Uri) : String :=
  u.scheme ++ ":" ++ u.authorityText false ++ u.pathText ++ u.queryText

/-- The host, if it is not empty. -/
def hostName? (u : Uri) : Option String := u.host.filter (· ≠ "")

/-- The port that is used: the one given, or the usual one of the scheme. -/
def effectivePort? (u : Uri) : Option Nat := u.port.or (defaultPort? u.scheme)

/-! ## Reading -/

/-- Whether a character is dropped at both ends of a text. -/
def isEdge (c : Char) : Bool := c.toNat ≤ 0x20

/-- The text without edges, tabs and line breaks. -/
def clean (s : String) : List Char :=
  let cs := (s.toList.dropWhile isEdge).reverse.dropWhile isEdge |>.reverse
  cs.filter fun c => !(c = '\t' || c = '\n' || c = '\x0d')

/-- Whether a character can stand in a scheme behind its first letter. -/
def isSchemeChar (c : Char) : Bool := c.isAlphanum || c = '+' || c = '-' || c = '.'

/-- The scheme and what follows its colon. -/
def scheme? (cs : List Char) : Option (String × List Char) :=
  match cs with
  | c :: rest =>
    if c.isAlpha then
      let (more, rest) := rest.span isSchemeChar
      match rest with
      | ':' :: rest => some (String.ofList ((c :: more).map Char.toLower), rest)
      | _ => none
    else none
  | [] => none

/-- Whether a character ends the authority. -/
def endsAuthority (special : Bool) (c : Char) : Bool :=
  c = '/' || c = '?' || c = '#' || (special && c = '\\')

/-- Whether a segment stands for the one it is in. -/
def isSingleDot (cs : List Char) : Bool :=
  let s := String.ofList (cs.map Char.toLower)
  s = "." || s = "%2e"

/-- Whether a segment stands for the one above. -/
def isDoubleDot (cs : List Char) : Bool :=
  let s := String.ofList (cs.map Char.toLower)
  s = ".." || s = ".%2e" || s = "%2e." || s = "%2e%2e"

/-- Resolves dot segments; `above` holds the segments so far, the nearest first. -/
def resolve (above : List String) : List (List Char) → List String
  | [] => above.reverse
  | [last] =>
    -- a path that ends in a dot segment ends in a slash
    if isDoubleDot last then ("" :: above.drop 1).reverse
    else if isSingleDot last then ("" :: above).reverse
    else (String.ofList (escapeChars pathSet last) :: above).reverse
  | piece :: next :: rest =>
    if isDoubleDot piece then resolve (above.drop 1) (next :: rest)
    else if isSingleDot piece then resolve above (next :: rest)
    else resolve (String.ofList (escapeChars pathSet piece) :: above) (next :: rest)

def segments (special : Bool) (cs : List Char) : List String :=
  let cs := if special then cs.map fun c => if c = '\\' then '/' else c else cs
  match cs with
  | [] => if special then [""] else []
  | '/' :: rest => resolve [] (Text.splitChars '/' rest)
  | cs => resolve [] (Text.splitChars '/' cs)

/-- The fragment, the query and what stands before them. -/
def splitTail (special : Bool) (cs : List Char) : List Char × Option String × Option String :=
  let (front, afterNumber) := cs.span (· ≠ '#')
  let fragment := match afterNumber with
    | _ :: f => some (String.ofList (escapeChars fragmentSet f))
    | [] => none
  let (path, afterMark) := front.span (· ≠ '?')
  let query := match afterMark with
    | _ :: q => some (String.ofList (escapeChars (if special then specialQuerySet else querySet) q))
    | [] => none
  (path, query, fragment)

/-- The text before and after the last occurrence of a character. -/
def splitLast? (c : Char) (cs : List Char) : Option (List Char × List Char) :=
  match cs.reverse.span (· ≠ c) with
  | (after, _ :: before) => some (before.reverse, after.reverse)
  | (_, []) => none

/-- The host and port text; a colon between brackets belongs to the host. -/
def splitPort (cs : List Char) : List Char × Option (List Char) :=
  match splitLast? ':' cs with
  | some (host, port) => if port.contains ']' then (cs, none) else (host, some port)
  | none => (cs, none)

/-- A port; none at all is written by no digits, and the usual one is left out. -/
def port? (scheme : String) (digits : Option (List Char)) : Option (Option Nat) :=
  match digits with
  | none => some none
  | some [] => some none
  | some ds =>
    if ds.all Char.isDigit then
      let n := ds.foldl (fun n d => if n ≤ 65535 then n * 10 + (d.toNat - 48) else n) 0
      if n ≤ 65535 then some (if defaultPort? scheme = some n then none else some n) else none
    else none

/-- The user name and password before the last at-sign. -/
def user (cs : List Char) : String × Option String :=
  let encode (cs : List Char) : String := String.ofList (escapeChars userSet cs)
  match cs.span (· ≠ ':') with
  | (name, _ :: password) => (encode name, if password = [] then none else some (encode password))
  | (name, []) => (encode name, none)

/-- The host of the right kind for a scheme. -/
def hostOf? (scheme : String) (cs : List Char) : Option String :=
  if isSpecial scheme then specialHost? cs else plainHost? cs

/-- An address with an authority, from what follows the slashes. -/
def withAuthority? (scheme : String) (cs : List Char) : Option Uri :=
  let special := isSpecial scheme
  let (authority, rest) := cs.span fun c => !endsAuthority special c
  let (username, password, place) := match splitLast? '@' authority with
    | some (who, place) => ((user who).1, (user who).2, place)
    | none => ("", none, authority)
  let (path, query, fragment) := splitTail special rest
  let (hostText, portText) := splitPort place
  match hostOf? scheme hostText, port? scheme portText with
  | some host, some port =>
    -- without a host there is neither a user nor a port
    if host = "" ∧ (place ≠ authority ∨ portText.isSome) then none
    else some { scheme, username, password, host := some host, port,
                path := .rooted (segments special path), query, fragment }
  | _, _ => none

/-- An address of a file. -/
def ofFile? (cs : List Char) : Option Uri :=
  let isSlash (c : Char) : Bool := c = '/' || c = '\\'
  let (hostText, rest) := match cs with
    | a :: b :: rest =>
      if isSlash a && isSlash b then rest.span fun c => !endsAuthority true c else ([], cs)
    | cs => ([], cs)
  let host := if hostText = [] then some "" else specialHost? hostText
  let (path, query, fragment) := splitTail true rest
  host.map fun host =>
    { scheme := "file", host := some (if host = "localhost" then "" else host),
      path := .rooted (segments true path), query, fragment }

/-- An address without authority. -/
def withoutAuthority (scheme : String) (cs : List Char) : Uri :=
  let (path, query, fragment) := splitTail false cs
  let path := match path with
    | '/' :: _ => .rooted (segments false path)
    | path => .rootless (String.ofList (escapeChars controlSet path))
  { scheme, path, query, fragment }

/-- The address that a text writes. -/
def parse? (s : String) : Option Uri :=
  (scheme? (clean s)).bind fun (scheme, rest) =>
    if scheme = "file" then ofFile? rest
    else if isSpecial scheme then
      withAuthority? scheme (rest.dropWhile fun c => c = '/' || c = '\\')
    else match rest with
      | '/' :: '/' :: rest => withAuthority? scheme rest
      | rest => some (withoutAuthority scheme rest)

/-! ## Another origin -/

/-- The same address at another host; one without structure has no place for a host. -/
def withHost? (u : Uri) (host : String) : Option Uri :=
  match u.path with
  | .rootless _ => none
  | .rooted _ =>
    if host = "" ∧ isSpecial u.scheme then none
    else (hostOf? u.scheme host.toList).map fun h => { u with host := some h }

/-- The same address at another port, which is left out if it is the usual one; a file has none. -/
def withPort? (u : Uri) (port : Option Nat) : Option Uri :=
  if u.hostName?.isNone ∨ u.scheme = "file" then none
  else some { u with port := if port = defaultPort? u.scheme then none else port }

/-- The same address at the host and port of another. -/
def withOriginOf? (u other : Uri) : Option Uri :=
  other.host.bind fun host => (u.withHost? host).bind fun v => v.withPort? other.port

end Uri

end Coordination
