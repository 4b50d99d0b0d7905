import Constituency.Inference.Offer

/-
  This file defines the inference steps of double-dotted
  items, which grow outward from a head: goals say over
  which spans they may grow, completed items and words say
  over what. Each step offers nothing for other items.

  Key definitions include:
    * `Item.goalsEndingWith`
    * `Item.goalsStartingWith`
    * `Item.preComplete`
    * `Item.predictLeft`
    * `Item.predictRight`
    * `Item.completeLeft`
    * `Item.completeRight`
    * `Item.scanLeft`
    * `Item.scanRight`
    * `Item.grow`
-/

namespace Constituency

------------------------------------------------------------
-- Goals Around an Item
------------------------------------------------------------

/- The numbers from `first` to `last`, both included. -/
def between
    (first last : Nat) : List Nat :=
  List.range' first (last + 1 - first)

namespace Item

variable {G : Grammar}

/-
  The span of a goal for a symbol of which `lower` is a head
  corner.
-/
def goalSpan
    (lower : Symbol)
    (item : Item G) : Option Span :=
  match item.key with
  | .goal symbol span =>
      if G.isHeadCornerOf lower symbol then
        some span
      else
        none
  | _ => none

/- The spans of the item's goals that stop where it stops. -/
def goalsEndingWith
    (C : Chart G)
    (item : Item G) : List Span :=
  (C.endingAt item.stop).filterMap (goalSpan item.category)

/- The spans of the item's goals that start where it starts. -/
def goalsStartingWith
    (C : Chart G)
    (item : Item G) : List Span :=
  (C.startingAt item.start).filterMap
    (goalSpan item.category)

/- The completed items for a symbol over a span. -/
def constituents
    (C : Chart G)
    (symbol : Symbol)
    (span : Span) : List (Item G) :=
  (C.spanning span).filter
    (fun found =>
      match found.key with
      | .completed rule _ => (G.rule rule).lhs = symbol
      | _ => false)

------------------------------------------------------------
-- Completion
------------------------------------------------------------

/-
  Close an item that has reached both ends of its rule:

      A -> . α . [i,j)
      ----------------
      <A -> α> [i,j)
-/
def preComplete
    (item : Item G) : Offers G :=
  match item.key with
  | .double rule _ _ span =>
      if item.key.isComplete then
        [create (.completed rule span) item.children]
      else
        []
  | _ => []

------------------------------------------------------------
-- Demand for Sisters
------------------------------------------------------------

/-
  Demand the left sister wherever it may lie:

      A -> α B . β . γ [j,k)    ?C [h,k)    h ≤ i ≤ i' ≤ j
      A is a head corner of C
      ----------------------------------------------------
      ?B [i,i')
-/
def predictLeft
    (C : Chart G)
    (item : Item G) : Offers G :=
  match item.key.leftSister with
  | none => []
  | some wanted =>
      (item.goalsEndingWith C).flatMap (fun goal =>
        (between goal.start item.start).flatMap (fun i =>
          (between i item.start).map (fun j =>
            create (.goal wanted ⟨i, j⟩) [])))

/-
  Demand the right sister wherever it may lie:

      A -> α . β . B γ [i,j)    ?C [i,l)    j ≤ k ≤ k' ≤ l
      A is a head corner of C
      ----------------------------------------------------
      ?B [k,k')
-/
def predictRight
    (C : Chart G)
    (item : Item G) : Offers G :=
  match item.key.rightSister with
  | none => []
  | some wanted =>
      (item.goalsStartingWith C).flatMap (fun goal =>
        (between item.stop goal.stop).flatMap (fun j =>
          (between j goal.stop).map (fun k =>
            create (.goal wanted ⟨j, k⟩) [])))

------------------------------------------------------------
-- Growth over Constituents
------------------------------------------------------------

/-
  Take in a left sister:

      A -> α B . β . γ [j,k)    ?C [i,k)    <B -> δ> [i,j)
      A is a head corner of C
      ----------------------------------------------------
      A -> α . B β . γ [i,k)
-/
def completeLeft
    (C : Chart G)
    (item : Item G) : Offers G :=
  match item.key, item.key.leftSister with
  | .double rule left right span, some wanted =>
      (item.goalsEndingWith C).flatMap (fun goal =>
        (constituents C wanted ⟨goal.start, span.start⟩).map
          (growLeft rule left right span item.children))
  | _, _ => []

/-
  Take in a right sister:

      A -> α . β . B γ [i,j)    ?C [i,l)    <B -> δ> [j,l)
      A is a head corner of C
      ----------------------------------------------------
      A -> α . β B . γ [i,l)
-/
def completeRight
    (C : Chart G)
    (item : Item G) : Offers G :=
  match item.key, item.key.rightSister with
  | .double rule left right span, some wanted =>
      (item.goalsStartingWith C).flatMap (fun goal =>
        (constituents C wanted ⟨span.stop, goal.stop⟩).map
          (growRight rule left right span item.children))
  | _, _ => []

------------------------------------------------------------
-- Growth over Words
------------------------------------------------------------

/-
  Take in the word on the left:

      A -> α a . β . γ [j,k)    ?C [i,k)    i < j
      a is word j - 1, a terminal
      A is a head corner of C
      -------------------------------------------
      A -> α . a β . γ [j-1,k)
-/
def scanLeft
    (C : Chart G)
    (words : List Symbol)
    (item : Item G) : Offers G :=
  match item.key, item.key.leftSister with
  | .double rule left right ⟨before + 1, stop⟩, some wanted =>
      if G.isNonterminal wanted = false ∧
          words[before]? = some wanted ∧
          (item.goalsEndingWith C).any
            (fun goal => goal.start ≤ before) then
        [create (.double rule (left - 1) right ⟨before, stop⟩)
          item.children]
      else
        []
  | _, _ => []

/-
  Take in the word on the right:

      A -> α . β . a γ [i,j)    ?C [i,l)    j < l
      a is word j, a terminal
      A is a head corner of C
      -------------------------------------------
      A -> α . β a . γ [i,j+1)
-/
def scanRight
    (C : Chart G)
    (words : List Symbol)
    (item : Item G) : Offers G :=
  match item.key, item.key.rightSister with
  | .double rule left right span, some wanted =>
      if G.isNonterminal wanted = false ∧
          words[span.stop]? = some wanted ∧
          (item.goalsStartingWith C).any
            (fun goal => span.stop < goal.stop) then
        [create
          (.double rule left (right + 1)
            ⟨span.start, span.stop + 1⟩)
          item.children]
      else
        []
  | _, _ => []

------------------------------------------------------------
-- All Steps Together
------------------------------------------------------------

/- Everything that the chart alone lets the item do. -/
def growInChart
    (C : Chart G)
    (item : Item G) : Offers G :=
  item.preComplete ++ item.predictLeft C ++
    item.predictRight C ++ item.completeLeft C ++
    item.completeRight C

/- Everything that the words let the item do. -/
def growOverWords
    (C : Chart G)
    (words : List Symbol)
    (item : Item G) : Offers G :=
  item.scanLeft C words ++ item.scanRight C words

end Item

end Constituency
