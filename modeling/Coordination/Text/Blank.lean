/-!
# Blank text

A character is blank when Unicode gives it the property `White_Space`.
-/

namespace Coordination.Text

/-- The characters of the property `White_Space`, as inclusive ranges of code points. -/
def blankRanges : List (Nat × Nat) :=
  [(0x09, 0x0d), (0x20, 0x20), (0x85, 0x85), (0xa0, 0xa0), (0x1680, 0x1680), (0x2000, 0x200a),
   (0x2028, 0x2029), (0x202f, 0x202f), (0x205f, 0x205f), (0x3000, 0x3000)]

/-- Whether a character counts as white space. -/
def isBlankChar (c : Char) : Bool :=
  blankRanges.any fun (low, high) => low ≤ c.toNat && c.toNat ≤ high

/-- Whether nothing but white space is in the text. -/
def isBlank (s : String) : Bool :=
  s.toList.all isBlankChar

theorem isBlank_empty : isBlank "" := by decide

end Coordination.Text
