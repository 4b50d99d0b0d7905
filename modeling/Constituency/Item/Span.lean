/-
  This file defines spans: half-open ranges of positions
  between the words of an input.

  Key definitions include:
    * `Span`
    * `Span.point`
    * `Span.isEmpty`
    * `Span.covers`
    * `Span.compare`
    * `Span.text`
-/

namespace Constituency

/-
  The positions from `start` up to `stop`. A span whose
  `stop` lies before its `start` is reversed.
-/
structure Span where
  start : Nat
  stop : Nat
deriving DecidableEq

namespace Span

/- The empty span at a position. -/
def point
    (position : Nat) : Span :=
  ⟨position, position⟩

/- Nothing lies between the ends of the span. -/
def isEmpty
    (s : Span) : Bool :=
  s.start == s.stop

/- The first span lies around the second one. -/
def covers
    (outer inner : Span) : Bool :=
  outer.start ≤ inner.start && inner.stop ≤ outer.stop

/- Spans are ordered by start, then by stop. -/
def compare
    (s t : Span) : Ordering :=
  (Ord.compare s.start t.start).then
    (Ord.compare s.stop t.stop)

/- A span as it is written: `[i,j)`. -/
def text
    (s : Span) : String :=
  "[" ++ toString s.start ++ "," ++ toString s.stop ++ ")"

end Span

end Constituency
