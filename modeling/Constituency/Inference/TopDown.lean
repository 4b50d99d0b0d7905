import Constituency.Inference.Offer

/-
  This file defines the inference steps of Earley's
  algorithm. Each applies to a single-dotted item and offers
  nothing for other items.

  Key definitions include:
    * `Item.predict`
    * `Item.scan`
    * `Item.advance`
    * `Item.complete`
-/

namespace Constituency

namespace Item

variable {G : Grammar}

/-
  Predict what the item waits for:

      A -> α . B β [i,j)    B -> γ
      ----------------------------
      B -> . γ [j,j)
-/
def predict
    (item : Item G) : Offers G :=
  match item.key.next with
  | none => []
  | some wanted =>
      (G.rulesWithLhs wanted).map
        (fun rule =>
          create (.single rule 0 (.point item.stop)) [])

/-
  Move the dot over the next word:

      A -> α . a β [i,j)    a is word j, a terminal
      ---------------------------------------------
      A -> α a . β [i,j+1)
-/
def scan
    (words : List Symbol)
    (item : Item G) : Offers G :=
  match item.key with
  | .single rule dot span =>
      match item.key.next, words[span.stop]? with
      | some wanted, some word =>
          if wanted = word ∧ G.isNonterminal wanted = false
          then
            [create
              (.single rule (dot + 1)
                ⟨span.start, span.stop + 1⟩)
              item.children]
          else
            []
      | _, _ => []
  | _ => []

/-
  The waiting item with its dot moved over a constituent, if
  that is what it waits for.
-/
def advance
    (waiting found : Item G) :
    Option (Except ItemError (Item G)) :=
  match waiting.key with
  | .single rule dot span =>
      if waiting.key.next = some found.category then
        some
          (create
            (.single rule (dot + 1)
              ⟨span.start, found.stop⟩)
            (waiting.children ++ [found]))
      else
        none
  | _ => none

/-
  Move the dots that wait for a complete item:

      B -> γ . [j,k)    A -> α . B β [i,j)
      ------------------------------------
      A -> α B . β [i,k)
-/
def complete
    (C : Chart G)
    (item : Item G) : Offers G :=
  match item.key with
  | .single _ _ span =>
      if item.key.isComplete then
        (C.endingAt span.start).filterMap
          (fun waiting => waiting.advance item)
      else
        []
  | _ => []

end Item

end Constituency
