/-
  This file defines sets of characters that are given by
  ranges of code points.

  Key definitions include:
    * `Text.inRanges`
-/

namespace Constituency

namespace Text

/- The character lies in one of some closed ranges. -/
def inRanges
    (ranges : List (Nat × Nat))
    (c : Char) : Bool :=
  ranges.any
    (fun range => range.1 ≤ c.toNat && c.toNat ≤ range.2)

end Text

end Constituency
