/-
# Blank text

A name is BLANK when nothing is left of it once white space is taken away.  White space is the
Unicode property White_Space: more than the ASCII blanks, and without the zero-width characters.
-/

namespace SinkReach.Text

/-- The Unicode property White_Space. -/
def isWhite (c : Char) : Bool :=
  let n := c.toNat
  (0x9 ≤ n && n ≤ 0xd) || n = 0x20 || n = 0x85 || n = 0xa0 || n = 0x1680 ||
    (0x2000 ≤ n && n ≤ 0x200a) || n = 0x2028 || n = 0x2029 || n = 0x202f || n = 0x205f ||
    n = 0x3000

/-- Whether a text has nothing but white space. -/
def isBlank (s : String) : Bool := s.toList.all isWhite

end SinkReach.Text
