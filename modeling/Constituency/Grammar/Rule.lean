/-
  This file defines the rules of a context-free grammar in
  which every nonempty right-hand side has a head: the
  daughter from which head-driven recognition starts.

  Key definitions include:
    * `Symbol`
    * `RuleSpec`
    * `RuleSpec.markCount`
    * `RuleSpec.headPosition`
    * `Rule`
    * `Rule.ofSpec`
    * `Rule.leftmost`
    * `Rule.headSymbol`
-/

namespace Constituency

/- A grammar symbol is identified with its text. -/
abbrev Symbol :=
  String

------------------------------------------------------------
-- Written Alternatives
------------------------------------------------------------

/-
  One alternative as it is written down: the left-hand side,
  and each right-hand symbol with its head mark.
-/
structure RuleSpec where
  lhs : Symbol
  rhs : List (Symbol × Bool)
deriving DecidableEq

namespace RuleSpec

/- The right-hand symbols without their marks. -/
def symbols
    (spec : RuleSpec) : List Symbol :=
  spec.rhs.map Prod.fst

/- The number of right-hand symbols that carry a head mark. -/
def markCount
    (spec : RuleSpec) : Nat :=
  spec.rhs.countP Prod.snd

/-
  The position of the head: the first marked daughter, or
  the first daughter when none is marked.
-/
def headPosition
    (spec : RuleSpec) : Option Nat :=
  if spec.rhs = [] then
    none
  else
    some ((spec.rhs.findIdx? Prod.snd).getD 0)

theorem headPosition_eq_none_iff
    (spec : RuleSpec) :
    spec.headPosition = none ↔ spec.symbols = [] := by
  unfold headPosition symbols
  split <;> simp_all

theorem lt_length_of_headPosition
    (spec : RuleSpec)
    {h : Nat}
    (hHead : spec.headPosition = some h) :
    h < spec.symbols.length := by
  unfold headPosition at hHead
  split at hHead
  · simp at hHead
  · rename_i hNonempty
    have hPositive : 0 < spec.rhs.length :=
      List.length_pos_iff.mpr hNonempty
    cases hFound : spec.rhs.findIdx? Prod.snd with
    | none =>
        simp only [hFound, Option.getD_none,
          Option.some.injEq] at hHead
        simpa [symbols, ← hHead] using hPositive
    | some k =>
        have hBound :=
          (List.findIdx?_eq_some_iff_findIdx_eq.mp hFound).1
        simp only [hFound, Option.getD_some,
          Option.some.injEq] at hHead
        simpa [symbols, ← hHead] using hBound

end RuleSpec

------------------------------------------------------------
-- Rules
------------------------------------------------------------

/-
  A rule `lhs -> rhs`. Its head is a position of the
  right-hand side, absent exactly when there is none.
-/
structure Rule where
  lhs : Symbol
  rhs : List Symbol
  head : Option Nat
  head_eq_none_iff : head = none ↔ rhs = []
  head_lt : ∀ h, head = some h → h < rhs.length
deriving DecidableEq

namespace Rule

/- The rule that a written alternative stands for. -/
def ofSpec
    (spec : RuleSpec) : Rule where
  lhs := spec.lhs
  rhs := spec.symbols
  head := spec.headPosition
  head_eq_none_iff := spec.headPosition_eq_none_iff
  head_lt := fun _ => spec.lt_length_of_headPosition

/- The number of daughters. -/
def length
    (rule : Rule) : Nat :=
  rule.rhs.length

/- An empty rule has no daughters. -/
def isEmpty
    (rule : Rule) : Bool :=
  rule.rhs.isEmpty

/- The first daughter. -/
def leftmost
    (rule : Rule) : Option Symbol :=
  rule.rhs.head?

/- The head daughter. -/
def headSymbol
    (rule : Rule) : Option Symbol :=
  rule.head.bind (rule.rhs[·]?)

end Rule

end Constituency
