import Constituency.Chart.Agenda

/-
  This file defines offers: the items that an inference step
  proposes, in order. A proposal that is no item is an
  error, and ends the delivery of the offers; what was
  delivered before it stays.

  Key definitions include:
    * `Offers`
    * `Offers.deliver`
    * `Chart.enterAll`
    * `Agenda.addAll`
-/

namespace Constituency

variable {G : Grammar}

/- The items that a step proposes. -/
abbrev Offers (G : Grammar) : Type :=
  List (Except ItemError (Item G))

/-
  Put offered items into a store one after the other,
  counting from `count` those that were new to it.
-/
def Offers.deliver
    {σ : Type}
    (put : σ → Item G → σ × Bool)
    (store : σ)
    (count : Nat) :
    Offers G → σ × Except ItemError Nat
  | [] => (store, .ok count)
  | .error error :: _ => (store, .error error)
  | .ok item :: offers =>
      match put store item with
      | (store, true) =>
          deliver put store (count + 1) offers
      | (store, false) =>
          deliver put store count offers

/- Admit offered items to a chart. -/
def Chart.enterAll
    (C : Chart G)
    (offers : Offers G) : Chart G × Except ItemError Nat :=
  offers.deliver Chart.enter C 0

/- Queue offered items that neither store knows. -/
def Agenda.addAll
    (A : Agenda G)
    (C : Chart G)
    (offers : Offers G) : Agenda G × Except ItemError Nat :=
  offers.deliver (fun A item => A.add C item) A 0

end Constituency
