import Constituency.Inference.Growth

/-
  This file defines the inference steps of goals, which look
  for heads inside their span, and of completed items, which
  become heads themselves. Each step offers nothing for
  other items.

  Key definitions include:
    * `Item.narrow`
    * `Item.scanHeads`
    * `Item.scanEmpty`
    * `Item.project`
    * `Item.projectInside`
    * `Item.seek`
    * `Item.projectUp`
    * `Item.combine`
-/

namespace Constituency

namespace Item

variable {G : Grammar}

/- The rules headed by `head` that can lead up to `upper`. -/
def rulesUpTo
    (G : Grammar)
    (head upper : Symbol) : List G.RuleId :=
  (G.rulesWithHead head).filter
    (fun rule => G.isHeadCornerOf (G.rule rule).lhs upper)

------------------------------------------------------------
-- Goals
------------------------------------------------------------

/-
  Demand the same over every initial and final part:

      ?C [h,l)    h ≤ k ≤ l
      ---------------------
      ?C [h,k)    ?C [k,l)

  An item looks only at goals that share an edge with it.
  Inside a wider goal it first grows rightward under a final
  part, then leftward under the whole.
-/
def narrow
    (item : Item G) : Offers G :=
  match item.key with
  | .goal symbol span =>
      (between span.start span.stop).flatMap (fun k =>
        [create (.goal symbol ⟨span.start, k⟩) [],
          create (.goal symbol ⟨k, span.stop⟩) []])
  | _ => []

/-
  Find heads among the words:

      ?C [i,j)    a is word k, a terminal    i ≤ k < j
      A -> α a* γ    A is a head corner of C
      ------------------------------------------------
      A -> α . a . γ [k,k+1)
-/
def scanHeads
    (words : List Symbol)
    (item : Item G) : Offers G :=
  match item.key with
  | .goal symbol span =>
      (List.range' span.start
          (span.stop - span.start)).flatMap (fun k =>
        match words[k]? with
        | none => []
        | some word =>
            if G.isNonterminal word then
              []
            else
              (rulesUpTo G word symbol).filterMap
                (fun rule =>
                  (G.rule rule).head.map (fun head =>
                    create
                      (.double rule head (head + 1)
                        ⟨k, k + 1⟩) [])))
  | _ => []

/-
  Find empty constituents:

      ?C [i,j)    A -> ε    i ≤ k ≤ j
      A is a head corner of C
      -------------------------------
      A -> . . [k,k)
-/
def scanEmpty
    (item : Item G) : Offers G :=
  match item.key with
  | .goal symbol span =>
      (G.emptyRules.filter (fun rule =>
          G.isHeadCornerOf (G.rule rule).lhs symbol)).flatMap
        (fun rule =>
          (between span.start span.stop).map (fun k =>
            create (.double rule 0 0 (.point k)) []))
  | _ => []

------------------------------------------------------------
-- Projection of Constituents
------------------------------------------------------------

/-
  Make a constituent the head of a rule, for a goal around
  it:

      <B -> β> [i,j)    ?C [h,l)    h ≤ i    j ≤ l
      A -> α B* γ    A is a head corner of C
      --------------------------------------------
      A -> α . B . γ [i,j)

  The item grows over the constituent from a pair of dots
  just before the head.
-/
def project
    (symbol : Symbol)
    (found : Item G) : Offers G :=
  (rulesUpTo G found.category symbol).filterMap
    (fun rule =>
      (G.rule rule).head.map (fun head =>
        growRight rule head head (.point found.start) []
          found))

/- The item is a completed one inside a span. -/
def isConstituentIn
    (outer : Span)
    (item : Item G) : Bool :=
  match item.key with
  | .completed _ span => outer.covers span
  | _ => false

/- Project the constituents inside a goal. -/
def projectInside
    (C : Chart G)
    (item : Item G) : Offers G :=
  match item.key with
  | .goal symbol span =>
      (between span.start span.stop).flatMap (fun position =>
        ((C.startingAt position).filter
            (isConstituentIn span)).flatMap
          (project symbol))
  | _ => []

/- Everything that a goal sets off. -/
def seek
    (C : Chart G)
    (words : List Symbol)
    (item : Item G) : Offers G :=
  item.scanHeads words ++ item.scanEmpty ++
    item.projectInside C ++ item.narrow

/- The symbol of a goal whose span lies around another. -/
def goalAround
    (inner : Span)
    (item : Item G) : Option Symbol :=
  match item.key with
  | .goal symbol span =>
      if span.covers inner then some symbol else none
  | _ => none

/- Project a constituent for every goal around it. -/
def projectUp
    (C : Chart G)
    (item : Item G) : Offers G :=
  match item.key with
  | .completed _ span =>
      (between 0 span.start).flatMap (fun position =>
        ((C.startingAt position).filterMap
            (goalAround span)).flatMap
          (fun symbol => item.project symbol))
  | _ => []

------------------------------------------------------------
-- All Steps Together
------------------------------------------------------------

/- Everything that an item sets off, whatever its kind. -/
def combine
    (C : Chart G)
    (words : List Symbol)
    (item : Item G) : Offers G :=
  match item.key with
  | .single _ _ _ => []
  | .double _ _ _ _ =>
      item.growInChart C ++ item.growOverWords C words
  | .goal _ _ => item.seek C words
  | .completed _ _ => item.projectUp C

end Item

end Constituency
