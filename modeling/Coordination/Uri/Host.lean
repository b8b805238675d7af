import Coordination.Uri.Escape
import Coordination.Text.Segments
/-!
# Hosts of web addresses

The host of an address in its canonical text: a name in lower case, an address of four numbers, or
an address of eight groups between brackets.
-/

namespace Coordination.Uri

/-! ## Names beyond ASCII -/

namespace Punycode

/-- The digit of a value below thirty-six. -/
def digit (n : Nat) : Char :=
  if n < 26 then Char.ofNat (97 + n) else Char.ofNat (22 + n)

/-- How many digits a position takes under a bias. -/
def threshold (k bias : Nat) : Nat :=
  if k ≤ bias then 1 else if bias + 26 ≤ k then 26 else k - bias

/-- Divides by thirty-five until the rest is small; the rest and thirty-six times the count. -/
def adaptLoop (delta k : Nat) : Nat × Nat :=
  if _h : 455 < delta then adaptLoop (delta / 35) (k + 36) else (delta, k)
  termination_by delta

/-- The bias after an insertion. -/
def adapt (delta points : Nat) (first : Bool) : Nat :=
  let delta := if first then delta / 700 else delta / 2
  let (delta, k) := adaptLoop (delta + delta / points) 0
  k + 36 * delta / (delta + 38)

/-- The variable-length digits of a distance.  `fuel` bounds their number. -/
def distance (bias : Nat) : Nat → Nat → Nat → List Char
  | 0, _, _ => []
  | fuel + 1, q, k =>
    let t := threshold k bias
    if q < t then [digit q]
    else digit (t + (q - t) % (36 - t)) :: distance bias fuel ((q - t) / (36 - t)) (k + 36)

/-- The state while the characters of one code point are inserted. -/
structure Progress where
  delta : Nat
  bias : Nat
  handled : Nat
  out : List Char

/-- Passes over one character of the name: earlier code points count, the current one is written. -/
def Progress.visit (basic n : Nat) (p : Progress) (c : Nat) : Progress :=
  if c < n then { p with delta := p.delta + 1 }
  else if c = n then
    { delta := 0
      bias := adapt p.delta (p.handled + 1) (p.handled = basic)
      handled := p.handled + 1
      out := p.out ++ distance p.bias 20 p.delta 36 }
  else p

/-- Inserts the code points from `n` on in ascending order. -/
def insertAll (basic : Nat) (name : List Nat) : List Nat → Nat → Progress → Progress
  | [], _, p => p
  | m :: ms, n, p =>
    let p := { p with delta := p.delta + (m - n) * (p.handled + 1) }
    let p := name.foldl (Progress.visit basic m) p
    insertAll basic name ms (m + 1) { p with delta := p.delta + 1 }

/-- Puts a number at its place in an ascending list without repetition. -/
def insertSorted (n : Nat) : List Nat → List Nat
  | [] => [n]
  | m :: ms => if n < m then n :: m :: ms else if n = m then m :: ms else m :: insertSorted n ms

/-- A label in ASCII characters alone. -/
def encode (label : List Char) : List Char :=
  let name := label.map Char.toNat
  let ascii := label.filter fun c => c.toNat < 128
  let others := name.foldl (fun ns n => if n < 128 then ns else insertSorted n ns) []
  if others = [] then label
  else
    let lead := if ascii = [] then [] else ascii ++ ['-']
    let p := insertAll ascii.length name others 128 ⟨0, 72, ascii.length, lead⟩
    ['x', 'n', '-', '-'] ++ p.out

end Punycode

/-- Whether a letter has its lower-case form behind it, in the alphabets that alternate the two. -/
def precedesLower (n : Nat) : Bool :=
  let evens := [(0x100, 0x12f), (0x132, 0x137), (0x14a, 0x177), (0x1de, 0x1ef), (0x1f8, 0x21f),
    (0x222, 0x233), (0x3d8, 0x3ef), (0x460, 0x481), (0x48a, 0x4bf), (0x4d0, 0x52f),
    (0x1e00, 0x1e95), (0x1ea0, 0x1eff)]
  let odds := [(0x139, 0x148), (0x179, 0x17e), (0x1cd, 0x1dc), (0x4c1, 0x4ce)]
  let within (p : Nat × Nat) : Bool := p.1 ≤ n && n ≤ p.2
  (n % 2 = 0 && evens.any within) || (n % 2 = 1 && odds.any within)

/-- The lower-case form of a letter of the Latin, Greek or Cyrillic alphabet. -/
def lowerLetter (c : Char) : Char :=
  let n := c.toNat
  if (0x41 ≤ n ∧ n ≤ 0x5a) ∨ (0xc0 ≤ n ∧ n ≤ 0xde ∧ n ≠ 0xd7) ∨
      (0x391 ≤ n ∧ n ≤ 0x3ab ∧ n ≠ 0x3a2) ∨ (0x410 ≤ n ∧ n ≤ 0x42f) then Char.ofNat (n + 32)
  else if 0x400 ≤ n ∧ n ≤ 0x40f then Char.ofNat (n + 80)
  else if n = 0x178 then Char.ofNat 0xff
  else if precedesLower n then Char.ofNat (n + 1)
  else c

/-- Whether a character counts as a blank in a name: controls, blanks, and accents that stand
alone. -/
def isNameBlank (n : Nat) : Bool :=
  (0x80 ≤ n && n ≤ 0xa0) || [0xa8, 0xaf, 0xb4, 0xb8, 0x202f, 0x205f, 0x3000].contains n ||
    (0x2000 ≤ n && n ≤ 0x200a) || (0x200e ≤ n && n ≤ 0x200f) || (0x2028 ≤ n && n ≤ 0x202e)

/-- Characters that a name holds in a plainer form. -/
def plainForms : List (Nat × Char) :=
  [(0xaa, 'a'), (0xb2, '2'), (0xb3, '3'), (0xb5, 'μ'), (0xb9, '1'), (0xba, 'o'), (0x17f, 's'),
   (0x3002, '.'), (0xff61, '.')]

/-- What a name holds for a character: nothing for one that is not seen, and the plain form of one
that has such a form.  No name holds a blank. -/
def nameChars (c : Char) : List Char :=
  let n := c.toNat
  if n = 0xad ∨ n = 0x34f ∨ n = 0x200b ∨ n = 0x2060 ∨ n = 0x2064 ∨ n = 0xfeff ∨
      (0xfe00 ≤ n ∧ n ≤ 0xfe0f) then []
  else if isNameBlank n then [' ']
  else if 0xff01 ≤ n ∧ n ≤ 0xff5e then [lowerLetter (Char.ofNat (n - 0xfee0))]
  else [(plainForms.lookup n).getD (lowerLetter c)]

/-- The characters that no host may hold. -/
def isReserved (c : Char) : Bool :=
  c = '\x00' || c = '\t' || c = '\n' || c = '\x0d' || c = ' ' || "#/:<>?@[\\]^|".toList.contains c

/-- The characters that no name of a host may hold. -/
def isForbidden (c : Char) : Bool :=
  isReserved c || controlSet c || c = '%'

/-! ## Addresses of four numbers -/

/-- A number in decimal, octal or hexadecimal digits. -/
def ipv4Number? (s : List Char) : Option Nat :=
  let read (base : Nat) (ds : List Char) : Option Nat :=
    ds.foldl (fun n c => do
      let n ← n
      let d ← Text.Hex.digit? c
      if d < base then some (n * base + d) else none) (some 0)
  match s with
  | [] => none
  | '0' :: 'x' :: ds => read 16 ds
  | '0' :: 'X' :: ds => read 16 ds
  | '0' :: d :: ds => read 8 (d :: ds)
  | ds => read 10 ds

/-- The labels of a name without an empty last one. -/
def labels (cs : List Char) : List (List Char) :=
  let ls := Text.splitChars '.' cs
  if ls.getLast? = some [] ∧ 1 < ls.length then ls.dropLast else ls

/-- Whether a name has to be an address of numbers: its last label is one. -/
def endsInNumber (cs : List Char) : Bool :=
  match (labels cs).getLast? with
  | some l => l ≠ [] && (l.all Char.isDigit || (ipv4Number? l).isSome)
  | none => false

/-- The numbers of an address, the last of which fills the rest. -/
def ipv4OfParts? (ns : List Nat) : Option Nat :=
  match ns.reverse with
  | [] => none
  | last :: front =>
    if 4 < ns.length ∨ front.any (255 < ·) ∨ Nat.pow 256 (5 - ns.length) ≤ last then none
    else
      let high := front.reverse.foldl (fun n p => n * 256 + p) 0
      some (high * Nat.pow 256 (5 - ns.length) + last)

/-- The address of numbers that a name writes. -/
def ipv4? (cs : List Char) : Option Nat :=
  ((labels cs).mapM ipv4Number?).bind ipv4OfParts?

/-- An address as four numbers. -/
def ipv4Chars (n : Nat) : List Char :=
  Text.joinChars '.' ([n / 16777216, n / 65536 % 256, n / 256 % 256, n % 256].map (Nat.toDigits 10))

/-! ## Addresses of eight groups -/

/-- A group of one to four hexadecimal digits. -/
def group? (cs : List Char) : Option Nat :=
  if cs = [] ∨ 4 < cs.length then none
  else (cs.mapM Text.Hex.digit?).map fun ds => ds.foldl (fun n d => n * 16 + d) 0

/-- Four decimal numbers without leading zeros, as two groups. -/
def quadGroups? (cs : List Char) : Option (List Nat) :=
  let number? (ds : List Char) : Option Nat :=
    if ds = [] ∨ 3 < ds.length ∨ !ds.all Char.isDigit ∨ (ds.head? = some '0' ∧ ds.length ≠ 1) then
      none
    else (ipv4Number? ds).bind fun n => if n ≤ 255 then some n else none
  match (Text.splitChars '.' cs).mapM number? with
  | some [a, b, c, d] => some [a * 256 + b, c * 256 + d]
  | _ => none

/-- The groups between colons; the last part may be four numbers. -/
def groups? (cs : List Char) : Option (List Nat) :=
  if cs = [] then some []
  else
    let parts := Text.splitChars ':' cs
    match parts.getLast? with
    | none => none
    | some last =>
      let front := parts.dropLast.mapM group?
      let back := if last.contains '.' then quadGroups? last else (group? last).map ([·])
      front.bind fun f => back.map fun b => f ++ b

/-- The eight groups of an address; one pair of colons stands for a run of zeros. -/
def ipv6? (cs : List Char) : Option (List Nat) :=
  match Text.findChars? [':', ':'] cs with
  | none => (groups? cs).bind fun gs => if gs.length = 8 then some gs else none
  | some (before, after) =>
    if before.contains '.' then none
    else do
      let front ← groups? before
      let back ← groups? after
      if front.length + back.length ≤ 7 then
        some (front ++ List.replicate (8 - front.length - back.length) 0 ++ back)
      else none

/-- The length of the run of zeros at the front. -/
def zeroRun (gs : List Nat) : Nat := (gs.takeWhile (· = 0)).length

/-- The place and length of the first longest run of zeros. -/
def longestRun (gs : List Nat) : Nat × Nat :=
  (List.range gs.length).foldl (fun (at_, n) i =>
    let m := zeroRun (gs.drop i)
    if n < m then (i, m) else (at_, n)) (0, 0)

/-- An address in its shortest form. -/
def ipv6Chars (gs : List Nat) : List Char :=
  let write (gs : List Nat) : List Char := Text.joinChars ':' (gs.map Text.Hex.lowerDigits)
  let (start, n) := longestRun gs
  let inner :=
    if n < 2 then write gs
    else write (gs.take start) ++ [':', ':'] ++ write (gs.drop (start + n))
  '[' :: inner ++ [']']

/-! ## Hosts -/

/-- An address of eight groups between brackets, in canonical form. -/
def bracketed? (cs : List Char) : Option String :=
  match cs with
  | '[' :: rest =>
    if rest.getLast? = some ']' then
      (ipv6? rest.dropLast).map fun gs => String.ofList (ipv6Chars gs)
    else none
  | _ => none

/-- The host under a scheme of the web. -/
def specialHost? (cs : List Char) : Option String :=
  if cs.head? = some '[' then bracketed? cs
  else
    (String.fromUTF8? ⟨(unescapeBytes cs).toArray⟩).bind fun name =>
      let lower := name.toList.flatMap nameChars
      let ascii := Text.joinChars '.' ((Text.splitChars '.' lower).map Punycode.encode)
      if ascii = [] ∨ ascii.any isForbidden then none
      else if endsInNumber ascii then (ipv4? ascii).map fun n => String.ofList (ipv4Chars n)
      else some (String.ofList ascii)

/-- The host under any other scheme, which is not interpreted; it may be empty. -/
def plainHost? (cs : List Char) : Option String :=
  if cs.head? = some '[' then bracketed? cs
  else if cs.any isReserved then none
  else some (String.ofList (escapeChars controlSet cs))

end Coordination.Uri
