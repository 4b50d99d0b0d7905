import Constituency.Proofs.Parse.Saturation

/-
  This file looks into the steps that saturate a chart. In
  one step an item leaves the agenda, goes to the chart and
  is combined with it, so that its offers are queued one by
  one. What is true at every such moment is true in
  particular after the step.

  Key definitions include:
    * `Saturation.Moment`

  Main declarations:
    * `Saturation.moment_step`
    * `Saturation.Moment.chart_subset`
    * `Saturation.Moment.queue_cases`
-/

namespace Constituency

variable {G : Grammar}

namespace Saturation

variable {plan : Plan}
variable {state : Saturation G}
variable {C : Chart G}
variable {A : Agenda G}

------------------------------------------------------------
-- Moments of a Step
------------------------------------------------------------

/-
  The chart and the agenda while a step is taken from a
  state: as they were; when an item has left the agenda but
  is not in the chart; and when some first offers of an item
  have been queued, be it one that has just come to the
  chart or one that is replayed.
-/
inductive Moment
    (plan : Plan)
    (state : Saturation G) :
    Chart G → Agenda G → Prop where
  | still : Moment plan state state.chart state.agenda
  | popped
      {item : Item G}
      {agenda : Agenda G}
      (hReplay : state.replay = none)
      (hPop : state.agenda.pop? = some (item, agenda)) :
      Moment plan state state.chart agenda
  | settled
      {item : Item G}
      {agenda : Agenda G}
      {chart : Chart G}
      (hReplay : state.replay = none)
      (hPop : state.agenda.pop? = some (item, agenda))
      (hEnter : chart = (state.chart.enter item).1)
      (count : Nat) :
      Moment plan state chart
        (agenda.addAll chart
          ((Step.combine.offers chart plan.words item).take
            count)).1
  | replayed
      {item : Item G}
      {items : List (Item G)}
      (hReplay : state.replay = some (item :: items))
      (count : Nat) :
      Moment plan state state.chart
        (state.agenda.addAll state.chart
          ((Step.combine.offers state.chart plan.words
            item).take count)).1

/- Combining queues all offers of the item, or none. -/
theorem combine_eq_addAll
    (plan : Plan)
    (item : Item G)
    (state : Saturation G) :
    (combine plan item state).state.chart = state.chart ∧
      ∃ count,
        (combine plan item state).state.agenda =
          (state.agenda.addAll state.chart
            ((Step.combine.offers state.chart plan.words
              item).take count)).1 := by
  simp only [combine]
  split
  · exact ⟨rfl, 0, rfl⟩
  · exact ⟨rfl, 0, rfl⟩
  · rename_i agenda count _ hAdd
    refine ⟨rfl,
      (Step.combine.offers state.chart plan.words
        item).length, ?_⟩
    rw [List.take_length, hAdd]
    rfl

/- The end of a step is one of its moments. -/
theorem moment_step
    (plan : Plan)
    (state : Saturation G) :
    Moment plan state (step plan state).state.chart
      (step plan state).state.agenda := by
  unfold step
  split
  · rename_i hReplay
    split
    · rename_i item agenda hPop
      simp only [settle]
      split
      · exact .settled hReplay hPop rfl 0
      · rcases combine_eq_addAll plan item
            { state with
              chart := (state.chart.enter item).1
              agenda := agenda } with
          ⟨hChart, count, hAgenda⟩
        rw [hChart, hAgenda]
        exact .settled hReplay hPop rfl count
    · exact .still
  · rename_i item items hReplay
    rcases combine_eq_addAll plan item
        { state with replay := some items } with
      ⟨hChart, count, hAgenda⟩
    rw [hChart, hAgenda]
    exact .replayed hReplay count
  · split
    · exact .still
    · exact .still

------------------------------------------------------------
-- What Moments Show
------------------------------------------------------------

/- What is queued for an item waited before or follows. -/
theorem queue_addAll_cases
    (plan : Plan)
    (hChart : ∀ x ∈ C.items.toList, x.key.WellFormed)
    {item : Item G}
    (hItem : item ∈ C.items.toList)
    (count : Nat) :
    ∀ x ∈ (A.addAll C
        ((Step.combine.offers C plan.words item).take
          count)).1.queue,
      x ∈ A.queue ∨
        Infers plan.words C.items.toList .combine item x := by
  have hKey := hChart item hItem
  have hOk :
      ∀ offer ∈
          (Step.combine.offers C plan.words item).take count,
        ∃ x, offer = .ok x :=
    fun _ hOffer =>
      (Step.combine.ok_of_mem_offers hChart hKey
        (List.mem_of_mem_take hOffer)).imp
          (fun _ hBoth => hBoth.1)
  rcases A.addAll_of_ok C hOk with
    ⟨later, new, hAdd, hQueue, hDelivery⟩
  intro x hx
  rw [hAdd, hQueue, List.mem_append] at hx
  rcases hx with hOld | hNew
  · exact Or.inl hOld
  · right
    have hOffer :=
      List.mem_of_mem_take (hDelivery.offered x hNew)
    rcases (Step.combine.mem_offers_iff hChart hKey).mp hOffer
      with ⟨y, hSame, hInfers⟩
    cases hSame
    exact hInfers

namespace Moment

/-
  The chart of a moment has all items that were in the chart
  before, and no others than those that were known.
-/
theorem chart_subset
    (hSound : Sound plan state)
    (hMoment : Moment plan state C A) :
    state.chart.items.toList ⊆ C.items.toList ∧
      C.items.toList ⊆ state.view := by
  have hStill :
      state.chart.items.toList ⊆ state.view :=
    List.subset_append_left _ _
  cases hMoment with
  | still => exact ⟨List.Subset.refl _, hStill⟩
  | popped => exact ⟨List.Subset.refl _, hStill⟩
  | replayed => exact ⟨List.Subset.refl _, hStill⟩
  | @settled item agenda chart hReplay hPop hEnter count =>
      rcases hSound.enter hReplay hPop with
        ⟨entered, hEntered, hItems, _⟩
      have hQueue := state.agenda.pop?_eq_some hPop
      rw [hEnter, hEntered, hItems]
      refine ⟨List.subset_append_left _ _, ?_⟩
      apply List.append_subset.mpr
      refine ⟨hStill, ?_⟩
      intro x hx
      rw [List.mem_singleton] at hx
      unfold view
      rw [hQueue, hx]
      simp

/-
  What waits at a moment waited before, or follows from an
  item of the chart with partners in it.
-/
theorem queue_cases
    (hSound : Sound plan state)
    (hMoment : Moment plan state C A) :
    ∀ x ∈ A.queue, x ∈ state.view ∨
      ∃ item ∈ C.items.toList,
        Infers plan.words C.items.toList .combine item x := by
  have hWaits :
      ∀ x ∈ state.agenda.queue, x ∈ state.view :=
    fun _ hx => List.mem_append_right _ hx
  have hRest :
      ∀ {item : Item G} {agenda : Agenda G},
        state.agenda.pop? = some (item, agenda) →
          ∀ x ∈ agenda.queue, x ∈ state.view := by
    intro item agenda hPop x hx
    apply hWaits
    rw [state.agenda.pop?_eq_some hPop]
    exact List.mem_cons_of_mem item hx
  cases hMoment with
  | still => exact fun x hx => Or.inl (hWaits x hx)
  | popped _ hPop =>
      exact fun x hx => Or.inl (hRest hPop x hx)
  | @settled item agenda chart hReplay hPop hEnter count =>
      rcases hSound.enter hReplay hPop with
        ⟨entered, hEntered, hItems, hMiddle⟩
      rw [hEntered] at hEnter
      subst hEnter
      have hItem : item ∈ C.items.toList := by
        rw [hItems]
        simp
      intro x hx
      rcases queue_addAll_cases plan hMiddle.wellFormed hItem
          count x hx with
        hOld | hInfers
      · exact Or.inl (hRest hPop x hOld)
      · exact Or.inr ⟨item, hItem, hInfers⟩
  | @replayed item items hReplay count =>
      have hItem :=
        hSound.replayed _ hReplay List.mem_cons_self
      intro x hx
      rcases queue_addAll_cases plan hSound.wellFormed hItem
          count x hx with
        hOld | hInfers
      · exact Or.inl (hWaits x hOld)
      · exact Or.inr ⟨item, hItem, hInfers⟩

end Moment

end Saturation

end Constituency
