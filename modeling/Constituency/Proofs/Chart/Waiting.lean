import Constituency.Chart.Lemmas
import Constituency.Inference.Offer

/-
  This file follows the use of an agenda, whatever the
  charts with which it is used. What has been queued is what
  has been popped, followed by what still waits.

  Key definitions include:
    * `Agenda.Call`
    * `Agenda.History`
    * `Agenda.History.perform`
    * `Agenda.History.performAll`
    * `Offers.accepted`

  Main declarations:
    * `Agenda.History.queued_eq`
    * `Agenda.History.performAll_adds`
    * `Agenda.eq_of_addAll_zero`
-/

namespace Constituency

variable {G : Grammar}

namespace Agenda

------------------------------------------------------------
-- Histories
------------------------------------------------------------

/- A use of an agenda, with the chart that there is then. -/
inductive Call (G : Grammar) where
  | add (C : Chart G) (item : Item G)
  | pop

/-
  An agenda, the items that were queued in it and those that
  were popped from it, both in the order in which it was
  done.
-/
structure History (G : Grammar) where
  agenda : Agenda G
  queued : List (Item G)
  popped : List (Item G)

namespace History

/- Nothing has been done. -/
def empty
    (G : Grammar) : History G :=
  ⟨Agenda.empty G, [], []⟩

/- Use the agenda, and note the answer. -/
def perform
    (H : History G) : Call G → History G
  | .add C item =>
      match H.agenda.add C item with
      | (agenda, true) =>
          ⟨agenda, H.queued ++ [item], H.popped⟩
      | (agenda, false) => { H with agenda := agenda }
  | .pop =>
      match H.agenda.pop? with
      | some (item, agenda) =>
          ⟨agenda, H.queued, H.popped ++ [item]⟩
      | none => H

/- Use the agenda several times. -/
def performAll
    (H : History G)
    (calls : List (Call G)) : History G :=
  calls.foldl perform H

theorem performAll_append
    (H : History G)
    (first second : List (Call G)) :
    H.performAll (first ++ second) =
      (H.performAll first).performAll second :=
  List.foldl_append

/- A call keeps what was queued in order. -/
theorem queued_perform
    {H : History G}
    (hOrder : H.queued = H.popped ++ H.agenda.queue)
    (call : Call G) :
    (H.perform call).queued =
      (H.perform call).popped ++
        (H.perform call).agenda.queue := by
  cases call with
  | add C item =>
      have hQueue := H.agenda.queue_add C item
      cases hAdd : H.agenda.add C item with
      | mk agenda isNew =>
          rw [hAdd] at hQueue
          cases isNew with
          | true =>
              simp only [if_true] at hQueue
              simp only [perform, hAdd, hOrder, hQueue,
                List.append_assoc]
          | false =>
              simp only [Bool.false_eq_true, if_false]
                at hQueue
              simp only [perform, hAdd, hOrder, hQueue]
  | pop =>
      cases hPop : H.agenda.pop? with
      | none =>
          simp only [perform, hPop]
          exact hOrder
      | some result =>
          rcases result with ⟨item, agenda⟩
          have hQueue := H.agenda.pop?_eq_some hPop
          simp only [perform, hPop, hOrder, hQueue,
            List.append_assoc, List.singleton_append]

/-
  Items are popped in the order in which they were queued:
  whatever is done, the queued items are the popped ones and
  then the waiting ones.
-/
theorem queued_eq
    (calls : List (Call G)) :
    let H := (empty G).performAll calls
    H.queued = H.popped ++ H.agenda.queue := by
  have hAll :
      ∀ (calls : List (Call G)) (H : History G),
        H.queued = H.popped ++ H.agenda.queue →
          (H.performAll calls).queued =
            (H.performAll calls).popped ++
              (H.performAll calls).agenda.queue := by
    intro calls
    induction calls with
    | nil => exact fun _ hOrder => hOrder
    | cons call calls ih =>
        intro H hOrder
        exact ih _ (queued_perform hOrder call)
  exact hAll calls (empty G) rfl

/- Popping an item takes it from the agenda. -/
theorem perform_pop
    {H : History G}
    {item : Item G}
    {agenda : Agenda G}
    (hPop : H.agenda.pop? = some (item, agenda)) :
    H.perform .pop =
      ⟨agenda, H.queued, H.popped ++ [item]⟩ := by
  simp only [perform, hPop]

/- Nothing is popped from an agenda without items. -/
theorem perform_pop_none
    {H : History G}
    (hPop : H.agenda.pop? = none) :
    H.perform .pop = H := by
  simp only [perform, hPop]

end History

end Agenda

------------------------------------------------------------
-- Offers
------------------------------------------------------------

/- The items that are offered before the first error. -/
def Offers.accepted : Offers G → List (Item G)
  | [] => []
  | .error _ :: _ => []
  | .ok item :: offers => item :: accepted offers

namespace Agenda

/- Adding the offered items one by one queues them all. -/
theorem History.performAll_adds
    (H : History G)
    (C : Chart G)
    (offers : Offers G) :
    let later :=
      H.performAll (offers.accepted.map (Call.add C))
    later.agenda = (H.agenda.addAll C offers).1 ∧
      later.popped = H.popped := by
  have hDeliver :
      ∀ (offers : Offers G) (H : History G) (count : Nat),
        let later :=
          H.performAll (offers.accepted.map (Call.add C))
        later.agenda =
            (offers.deliver (fun A item => A.add C item)
              H.agenda count).1 ∧
          later.popped = H.popped := by
    intro offers
    induction offers with
    | nil => exact fun _ _ => ⟨rfl, rfl⟩
    | cons offer offers ih =>
        intro H count
        cases offer with
        | error cause => exact ⟨rfl, rfl⟩
        | ok item =>
            simp only [Offers.accepted, List.map_cons,
              performAll, List.foldl_cons, Offers.deliver,
              perform]
            cases hAdd : H.agenda.add C item with
            | mk agenda isNew =>
                cases isNew with
                | true =>
                    exact ih ⟨agenda, H.queued ++ [item],
                      H.popped⟩ (count + 1)
                | false =>
                    exact ih { H with agenda := agenda } count
  exact hDeliver offers H 0

/- An agenda that takes no item stays as it is. -/
theorem add_of_false
    (A : Agenda G)
    (C : Chart G)
    {item : Item G}
    (hAdd : (A.add C item).2 = false) :
    (A.add C item).1 = A := by
  have hKnown := A.add_snd C item
  rw [hAdd] at hKnown
  unfold add
  split
  · rfl
  · rename_i hChart
    split
    · rfl
    · rename_i hNew
      simp [hChart, hNew] at hKnown

/- Neither does it change when it takes none of the offers. -/
theorem eq_of_addAll_zero
    {A B : Agenda G}
    {C : Chart G}
    {offers : Offers G}
    (hAdd : A.addAll C offers = (B, .ok 0)) :
    B = A := by
  have hCount :
      ∀ (offers : Offers G) (A B : Agenda G)
        (count last : Nat),
        offers.deliver (fun A item => A.add C item) A count =
            (B, .ok last) →
          count ≤ last ∧ (last = count → B = A) := by
    intro offers
    induction offers with
    | nil =>
        intro A B count last hDeliver
        cases hDeliver
        exact ⟨Nat.le_refl _, fun _ => rfl⟩
    | cons offer offers ih =>
        intro A B count last hDeliver
        cases offer with
        | error cause => cases hDeliver
        | ok item =>
            have hSame := @add_of_false G A C item
            simp only [Offers.deliver] at hDeliver
            cases hOne : A.add C item with
            | mk next isNew =>
                rw [hOne] at hDeliver hSame
                cases isNew with
                | true =>
                    have hRest := ih _ _ _ _ hDeliver
                    exact ⟨by omega, by omega⟩
                | false =>
                    have hNext : next = A := hSame rfl
                    rw [hNext] at hDeliver
                    exact ih _ _ _ _ hDeliver
  exact (hCount offers A B 0 0 hAdd).2 rfl

end Agenda

end Constituency
