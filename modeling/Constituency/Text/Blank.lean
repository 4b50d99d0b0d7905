import Constituency.Text.Ranges

/-
  This file defines the blank characters: those with the
  Unicode property White_Space.

  Key definitions include:
    * `Text.blankRanges`
    * `Text.isBlank`
-/

namespace Constituency

namespace Text

/- The blank code points as closed ranges. -/
def blankRanges : List (Nat × Nat) :=
  [(0x09, 0x0D), (0x20, 0x20), (0x85, 0x85), (0xA0, 0xA0),
    (0x1680, 0x1680), (0x2000, 0x200A), (0x2028, 0x2029),
    (0x202F, 0x202F), (0x205F, 0x205F), (0x3000, 0x3000)]

/- The character separates words. -/
def isBlank
    (c : Char) : Bool :=
  inRanges blankRanges c

end Text

end Constituency
