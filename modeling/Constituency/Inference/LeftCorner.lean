import Constituency.Inference.TopDown

/-
  This file defines the inference steps that start a rule
  from its first daughter, when its left-hand side is a left
  corner of a symbol that some item waits for. Each applies
  to a single-dotted item and offers nothing for other
  items.

  Key definitions include:
    * `Item.waitsAbove`
    * `Item.leftCornerPredict`
    * `Item.leftCornerScan`
-/

namespace Constituency

namespace Item

variable {G : Grammar}

/-
  The item waits for a symbol of which the rule's left-hand
  side is a left corner.
-/
def waitsAbove
    (waiting : Item G)
    (rule : G.RuleId) : Bool :=
  waiting.key.next.any
    (fun wanted =>
      G.isLeftCornerOf (G.rule rule).lhs wanted)

/-
  Start a rule from a complete item:

      B -> γ . [i,j)    C -> δ . D ε [h,i)    A -> B α
      A is a left corner of D
      ------------------------------------------------
      A -> B . α [i,j)
-/
def leftCornerPredict
    (C : Chart G)
    (item : Item G) : Offers G :=
  match item.key with
  | .single _ _ span =>
      if item.key.isComplete then
        (G.rulesWithLeftmost item.category).flatMap
          (fun rule =>
            ((C.endingAt span.start).filter
                (fun waiting => waiting.waitsAbove rule)).map
              (fun _ => create (.single rule 1 span) [item]))
      else
        []
  | _ => []

/-
  Start the rules whose first daughter is a terminal word:

      C -> δ . D ε [h,j)    a is word j    A -> a α
      A is a left corner of D
      ---------------------------------------------
      A -> a . α [j,j+1)
-/
def leftCornerScanWord
    (words : List Symbol)
    (item : Item G) : Offers G :=
  match words[item.stop]? with
  | none => []
  | some word =>
      if G.isNonterminal word then
        []
      else
        ((G.rulesWithLeftmost word).filter
            item.waitsAbove).map
          (fun rule =>
            create
              (.single rule 1 ⟨item.stop, item.stop + 1⟩)
              [])

/-
  Start the empty rules, which are complete at once:

      C -> δ . D ε [h,j)    A -> ε
      A is a left corner of D
      ----------------------------
      A -> . [j,j)
-/
def leftCornerScanEmpty
    (item : Item G) : Offers G :=
  (G.emptyRules.filter item.waitsAbove).map
    (fun rule =>
      create (.single rule 0 (.point item.stop)) [])

/- Start rules at the next word, then the empty rules. -/
def leftCornerScan
    (words : List Symbol)
    (item : Item G) : Offers G :=
  item.leftCornerScanWord words ++ item.leftCornerScanEmpty

end Item

end Constituency
