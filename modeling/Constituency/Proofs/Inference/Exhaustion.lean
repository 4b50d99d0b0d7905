import Constituency.Proofs.Inference.Early
import Constituency.Proofs.Inference.Safety

/-
  This file says what one application of a step does, to any
  store and for any item. It puts as many items behind the
  old ones as it counts, all with new keys, and it leaves
  nothing over: the same step taken again right away adds
  nothing. A step that looks into the chart it fills may
  still find more, but only if its item spans no words.

  Key definitions include:
    * `Adds`
    * `Step.LooksBack`

  Main declarations:
    * `Chart.enterAll_exhausts`
    * `Agenda.addAll_exhausts`
    * `Step.exists_create`
    * `Step.offers_congr`
    * `Step.exhausts`
    * `Grammar.steps_exhausted`
    * `Grammar.repeated_exhausted`
-/

namespace Constituency

variable {G : Grammar}

------------------------------------------------------------
-- Delivering Twice
------------------------------------------------------------

/-
  The row `later` is the row `old` with `count` items behind
  it. These were offered; their keys are pairwise distinct,
  and new both to the row and to the items that are known
  besides. No key of an offer is missing any more.
-/
def Adds
    (offers : Offers G)
    (known old later : List (Item G))
    (count : Nat) : Prop :=
  ∃ new, later = old ++ new ∧ new.length = count ∧
    Delivery offers (known ++ old) new

/- What a chart takes is counted, and is not taken twice. -/
theorem Chart.enterAll_exhausts
    {C D : Chart G}
    {offers : Offers G}
    {count : Nat}
    (hSpans : ∀ x, .ok x ∈ offers → x.start ≤ x.stop)
    (hEnter : C.enterAll offers = (D, .ok count)) :
    Adds offers [] C.items.toList D.items.toList count ∧
      D.enterAll offers = (D, .ok 0) := by
  have hOk : ∀ offer ∈ offers,
      ∃ x, offer = .ok x ∧ x.start ≤ x.stop := by
    intro offer hOffer
    rcases Offers.exists_ok_of_deliver hEnter offer hOffer
      with ⟨x, rfl⟩
    exact ⟨x, rfl, hSpans x hOffer⟩
  rcases C.enterAll_of_ok hOk with
    ⟨later, new, hAgain, hItems, hDelivery⟩
  rw [hEnter] at hAgain
  cases hAgain
  refine ⟨⟨new, hItems, rfl, hDelivery⟩, ?_⟩
  refine @Offers.deliver_of_known G (Chart G) Chart.enter
    (fun C => C.items.toList)
    (fun C _ hKey => C.enter_of_mem hKey) offers D ?_ 0
  intro offer hOffer
  rcases hOk offer hOffer with ⟨x, rfl, _⟩
  refine ⟨x, rfl, ?_⟩
  rw [hItems]
  exact hDelivery.known x hOffer

/- What an agenda takes is counted, and is not taken twice. -/
theorem Agenda.addAll_exhausts
    {A B : Agenda G}
    {C : Chart G}
    {offers : Offers G}
    {count : Nat}
    (hAdd : A.addAll C offers = (B, .ok count)) :
    Adds offers C.items.toList A.queue B.queue count ∧
      B.addAll C offers = (B, .ok 0) := by
  have hOk := Offers.exists_ok_of_deliver hAdd
  rcases A.addAll_of_ok C hOk with
    ⟨later, new, hAgain, hQueue, hDelivery⟩
  rw [hAdd] at hAgain
  cases hAgain
  refine ⟨⟨new, hQueue, rfl, hDelivery⟩, ?_⟩
  refine @Offers.deliver_of_known G (Agenda G)
    (fun A item => A.add C item)
    (fun A => C.items.toList ++ A.queue)
    (fun A _ hKey => A.add_of_mem C hKey) offers B ?_ 0
  intro offer hOffer
  rcases hOk offer hOffer with ⟨x, rfl⟩
  refine ⟨x, rfl, ?_⟩
  rw [hQueue, ← List.append_assoc]
  exact hDelivery.known x hOffer

------------------------------------------------------------
-- Steps That Fill a Chart
------------------------------------------------------------

/- An item that is made has no reversed span. -/
theorem Item.start_le_stop_of_create
    {key : ItemKey G}
    {children : List (Item G)}
    {x : Item G}
    (hMade : create key children = .ok x) :
    x.start ≤ x.stop := by
  rcases create_eq_ok_iff.mp hMade with ⟨hKey, rfl⟩
  exact hKey.start_le_stop

/- A row changes only if a new item stops there. -/
theorem Chart.endingAt_of_append
    {C D : Chart G}
    {new : List (Item G)}
    (hItems : D.items.toList = C.items.toList ++ new)
    {position : Nat}
    (hStops : ∀ x ∈ new, x.stop ≠ position) :
    D.endingAt position = C.endingAt position := by
  have hNone :
      new.filter (fun x => x.stop = position) = [] := by
    rw [List.filter_eq_nil_iff]
    intro x hx hStop
    exact hStops x hx (of_decide_eq_true hStop)
  rw [Chart.endingAt_append hItems, hNone, List.append_nil]

namespace Step

variable {C D : Chart G}
variable {words : List Symbol}
variable {item : Item G}
variable {step : Step}

/-
  The step is one of those that fill a chart and look into
  it.
-/
def LooksBack
    (step : Step) : Prop :=
  step = .complete ∨ step = .leftCornerPredict

/-
  All offers of a step that fills a chart are made from
  keys. If it looks back, they stop where its item stops.
-/
theorem exists_create
    (hStep : step ≠ .combine)
    {offer : Except ItemError (Item G)}
    (hOffer : offer ∈ step.offers C words item) :
    ∃ key children, offer = Item.create key children ∧
      (step.LooksBack → key.span.stop = item.stop) := by
  rcases item with ⟨key, children⟩
  cases step with
  | combine => exact absurd rfl hStep
  | predict =>
      change offer ∈ Item.predict _ at hOffer
      unfold Item.predict at hOffer
      split at hOffer
      · cases hOffer
      · rcases List.mem_map.mp hOffer with ⟨r, _, rfl⟩
        exact ⟨_, _, rfl, by simp [LooksBack]⟩
  | leftCornerPredict =>
      change offer ∈ Item.leftCornerPredict C _ at hOffer
      cases key with
      | single r dot span =>
          simp only [Item.leftCornerPredict] at hOffer
          split at hOffer
          · rcases List.mem_flatMap.mp hOffer with
              ⟨rule, _, hOffer⟩
            rcases List.mem_map.mp hOffer with ⟨_, _, rfl⟩
            exact ⟨_, _, rfl, fun _ => rfl⟩
          · cases hOffer
      | _ => cases hOffer
  | complete =>
      change offer ∈ Item.complete C _ at hOffer
      cases key with
      | single r dot span =>
          simp only [Item.complete] at hOffer
          split at hOffer
          · rcases List.mem_filterMap.mp hOffer with
              ⟨waiting, _, hAdvance⟩
            unfold Item.advance at hAdvance
            split at hAdvance
            · split at hAdvance
              · cases hAdvance
                exact ⟨_, _, rfl, fun _ => rfl⟩
              · cases hAdvance
            · cases hAdvance
          · cases hOffer
      | _ => cases hOffer
  | scan =>
      change offer ∈ Item.scan words _ at hOffer
      cases key with
      | single r dot span =>
          simp only [Item.scan] at hOffer
          split at hOffer
          · split at hOffer
            · rw [List.mem_singleton] at hOffer
              exact ⟨_, _, hOffer, by simp [LooksBack]⟩
            · cases hOffer
          · cases hOffer
      | _ => cases hOffer
  | leftCornerScan =>
      rcases List.mem_append.mp hOffer with hWord | hEmpty
      · unfold Item.leftCornerScanWord at hWord
        split at hWord
        · cases hWord
        · split at hWord
          · cases hWord
          · rcases List.mem_map.mp hWord with ⟨r, _, rfl⟩
            exact ⟨_, _, rfl, by simp [LooksBack]⟩
      · rcases List.mem_map.mp hEmpty with ⟨r, _, rfl⟩
        exact ⟨_, _, rfl, by simp [LooksBack]⟩

/-
  A step that looks back finds the same again in a chart in
  which nothing else stops where its item starts. The other
  steps find the same in any chart.
-/
theorem offers_congr
    (hStep : step ≠ .combine)
    (hSame : step.LooksBack →
      D.endingAt item.start = C.endingAt item.start) :
    step.offers D words item = step.offers C words item := by
  cases step with
  | complete =>
      exact Item.complete_congr (hSame (Or.inl rfl))
  | leftCornerPredict =>
      exact Item.leftCornerPredict_congr
        (hSame (Or.inr rfl))
  | combine => exact absurd rfl hStep
  | _ => rfl

/-
  A step that fills a chart exhausts its offers. What it
  finds by looking back stops behind the place to which it
  looks, so that nothing else is found from there.
-/
theorem exhausts
    {count : Nat}
    (hStep : step ≠ .combine)
    (hEnter :
      C.enterAll (step.offers C words item) =
        (D, .ok count)) :
    Adds (step.offers C words item) [] C.items.toList
        D.items.toList count ∧
      ((step.LooksBack → item.start ≠ item.stop) →
        D.enterAll (step.offers D words item) =
          (D, .ok 0)) := by
  have hSpans : ∀ x,
      .ok x ∈ step.offers C words item →
        x.start ≤ x.stop := by
    intro x hOffer
    rcases exists_create hStep hOffer with
      ⟨key, children, hMade, _⟩
    exact Item.start_le_stop_of_create hMade.symm
  rcases Chart.enterAll_exhausts hSpans hEnter with
    ⟨hAdds, hAgain⟩
  refine ⟨hAdds, fun hSpan => ?_⟩
  rcases hAdds with ⟨new, hItems, _, hDelivery⟩
  -- The new items stop where the item stops, and the row
  -- that is looked up is that of its start.
  have hSame : step.LooksBack →
      D.endingAt item.start = C.endingAt item.start := by
    intro hBack
    apply Chart.endingAt_of_append hItems
    intro x hx hStop
    rcases exists_create hStep (hDelivery.offered x hx)
      with ⟨key, children, hMade, hBehind⟩
    rcases Item.create_eq_ok_iff.mp hMade.symm with
      ⟨_, rfl⟩
    exact hSpan hBack (hStop.symm.trans (hBehind hBack))
  rw [offers_congr hStep hSame]
  exact hAgain

end Step

------------------------------------------------------------
-- Every Step
------------------------------------------------------------

namespace Grammar

/-
  Whatever the chart, the agenda and the item, a step that
  comes to no error adds as many items as it counts, with
  new keys. Those that fill the chart put them behind its
  items, all others put them behind the queue and do not
  touch the chart. Taken once more at once the step adds
  nothing and changes nothing, unless it looks back from an
  item over no words.
-/
theorem steps_exhausted
    (G : Grammar)
    (words : List Symbol)
    (C : Chart G)
    (A : Agenda G)
    (item : Item G) :
    (∀ step : Step, step ≠ .combine → ∀ D count,
      C.enterAll (step.offers C words item) =
          (D, .ok count) →
        Adds (step.offers C words item) [] C.items.toList
            D.items.toList count ∧
          ((step.LooksBack → item.start ≠ item.stop) →
            D.enterAll (step.offers D words item) =
              (D, .ok 0))) ∧
      (∀ move : Move, ∀ B count,
        A.addAll C (move.offers C words item) =
            (B, .ok count) →
          Adds (move.offers C words item) C.items.toList
              A.queue B.queue count ∧
            B.addAll C (move.offers C words item) =
              (B, .ok 0)) ∧
      ∀ B count,
        A.addAll C (Step.combine.offers C words item) =
            (B, .ok count) →
          Adds (Step.combine.offers C words item)
              C.items.toList A.queue B.queue count ∧
            B.addAll C (Step.combine.offers C words item) =
              (B, .ok 0) := by
  refine ⟨?_, ?_, ?_⟩
  · intro step hStep D count hEnter
    exact Step.exhausts hStep hEnter
  · intro move B count hAdd
    exact Agenda.addAll_exhausts hAdd
  · intro B count hAdd
    exact Agenda.addAll_exhausts hAdd

/-
  A constituent over a word moves one dot. A goal over the
  word offers four goals, of which two are new.
-/
theorem repeated_exhausted :
    ∃ (C : Chart repeated) (found goal : Item repeated),
      found.start ≠ found.stop ∧
      (∃ D, C.enterAll
            (Step.complete.offers C ["b"] found) =
          (D, .ok 1) ∧
        D.enterAll (Step.complete.offers D ["b"] found) =
          (D, .ok 0)) ∧
      ∃ B, (Agenda.empty repeated).addAll C
            (Move.narrow.offers C ["b"] goal) =
          (B, .ok 2) ∧
        B.addAll C (Move.narrow.offers C ["b"] goal) =
          (B, .ok 0) := by
  let found : Item repeated :=
    ⟨.single ⟨0, by decide⟩ 2 ⟨0, 1⟩, []⟩
  let goal : Item repeated := ⟨.goal "S" ⟨0, 1⟩, []⟩
  let C := Chart.ofItems 1
    [⟨.single ⟨0, by decide⟩ 0 ⟨0, 0⟩, []⟩, found, goal]
  have hSpan : found.start ≠ found.stop := by decide
  refine ⟨C, found, goal, hSpan, ?_, ?_⟩
  · have hCount :
        (C.enterAll (Step.complete.offers C ["b"]
          found)).2.toOption = some 1 := by
      decide +kernel
    rcases hEnter :
        C.enterAll (Step.complete.offers C ["b"] found) with
      ⟨D, count | count⟩
    · rw [hEnter] at hCount
      cases hCount
    · rw [hEnter] at hCount
      cases hCount
      have hExhausted := (steps_exhausted repeated ["b"] C
        (Agenda.empty repeated) found).1 .complete
          (by decide) D 1 hEnter
      exact ⟨D, rfl, hExhausted.2 (fun _ => hSpan)⟩
  · have hCount :
        ((Agenda.empty repeated).addAll C
          (Move.narrow.offers C ["b"] goal)).2.toOption =
            some 2 := by
      decide +kernel
    rcases hAdd :
        (Agenda.empty repeated).addAll C
          (Move.narrow.offers C ["b"] goal) with
      ⟨B, count | count⟩
    · rw [hAdd] at hCount
      cases hCount
    · rw [hAdd] at hCount
      cases hCount
      have hExhausted := (steps_exhausted repeated ["b"] C
        (Agenda.empty repeated) goal).2.1 .narrow B 2 hAdd
      exact ⟨B, rfl, hExhausted.2⟩

/- Two daughters, each of which may be empty. -/
def doubled : Grammar :=
  ofRules
    #[Rule.ofSpec ⟨"S", [("S", false), ("S", false)]⟩,
      Rule.ofSpec ⟨"S", []⟩]
    (by decide)

/-
  An item over no words feeds the row into which it looks:
  it moves the first dot, then the one that it has moved.
-/
example :
    let found : Item doubled :=
      ⟨.single ⟨1, by decide⟩ 0 ⟨0, 0⟩, []⟩
    let C : Chart doubled :=
      Chart.ofItems 0 [⟨.single ⟨0, by decide⟩ 0 ⟨0, 0⟩, []⟩]
    let once :=
      C.enterAll (Step.complete.offers C [] found)
    let twice :=
      once.1.enterAll (Step.complete.offers once.1 [] found)
    once.2.toOption = some 1 ∧
      twice.2.toOption = some 1 := by
  decide +kernel

end Grammar

end Constituency
