import Constituency.Chart.Lemmas
import Constituency.Parse.Saturation
import Constituency.Parse.Sweep
import Constituency.Proofs.Parse.Progress

/-
  This file says what the work on a chart does to it, for
  any input and under any limit: it enters items one by one,
  and tells of events that do not end the parse.

  Key definitions include:
    * `Event.IsFinished`
    * `Chart.Grows`
    * `Advances`
    * `Sweep.Writes`

  Main declarations:
    * `Chart.Grows.keeps`
    * `Sweep.writes_step`
    * `Sweep.advances_step`
    * `Saturation.advances_step`
-/

namespace Constituency

variable {G : Grammar}

------------------------------------------------------------
-- Charts that Grow
------------------------------------------------------------

namespace Chart

/- Items are entered into a chart, one after the other. -/
inductive Grows
    (C : Chart G) : Chart G → Prop where
  | refl : Grows C C
  | enter
      {later : Chart G}
      (hLater : Grows C later)
      (item : Item G) : Grows C (later.enter item).1

/- Entering an item leaves the items before it in place. -/
theorem isPrefix_enter
    (C : Chart G)
    (item : Item G) :
    C.items.toList <+: (C.enter item).1.items.toList := by
  unfold enter
  cases hInsert : C.insert? item with
  | none => exact List.prefix_refl _
  | some inserted =>
      rcases inserted with ⟨later, isNew⟩
      rw [Option.getD_some, C.toList_of_insert? hInsert]
      split
      · exact List.prefix_append _ _
      · exact List.prefix_refl _

namespace Grows

variable {C later last : Chart G}

theorem trans
    (hFirst : C.Grows later)
    (hSecond : later.Grows last) :
    C.Grows last := by
  induction hSecond with
  | refl => exact hFirst
  | enter _ item ih => exact ih.enter item

/- What entering an item keeps is kept while a chart grows. -/
theorem keeps
    {P : Chart G → Prop}
    (hEnter : ∀ C item, P C → P (Chart.enter C item).1)
    (hGrows : C.Grows later)
    (hC : P C) :
    P later := by
  induction hGrows with
  | refl => exact hC
  | enter _ item ih => exact hEnter _ item ih

/- A chart that grows keeps its items, in their order. -/
theorem isPrefix
    (hGrows : C.Grows later) :
    C.items.toList <+: later.items.toList := by
  induction hGrows with
  | refl => exact List.prefix_refl _
  | enter _ item ih =>
      exact ih.trans (isPrefix_enter _ item)

theorem size_le
    (hGrows : C.Grows later) :
    C.size ≤ later.size :=
  hGrows.isPrefix.length_le

end Grows

/- Admitting offered items lets a chart grow. -/
theorem grows_enterAll
    (C : Chart G)
    (offers : Offers G) :
    C.Grows (C.enterAll offers).1 := by
  have hDeliver :
      ∀ (offers : Offers G) (later : Chart G) (count : Nat),
        C.Grows later →
          C.Grows (offers.deliver enter later count).1 := by
    intro offers
    induction offers with
    | nil => exact fun _ _ hLater => hLater
    | cons offer offers ih =>
        intro later count hLater
        cases offer with
        | error => exact hLater
        | ok item =>
            have hNext := hLater.enter item
            unfold Offers.deliver
            split
            · rename_i next hEnter
              rw [hEnter] at hNext
              exact ih _ _ hNext
            · rename_i next hEnter
              rw [hEnter] at hNext
              exact ih _ _ hNext
  exact hDeliver offers C 0 .refl

end Chart

------------------------------------------------------------
-- Charts and Events
------------------------------------------------------------

/- The event ends a parse. -/
def Event.IsFinished : Event G → Prop
  | .finished _ _ _ => True
  | _ => False

/-
  The chart grows, and events are told behind the others,
  none of which ends the parse.
-/
structure Advances
    (C later : Chart G)
    (events told : Array (Event G)) : Prop where
  chart : C.Grows later
  events : ∃ more, told.toList = events.toList ++ more ∧
    ∀ event ∈ more, ¬ event.IsFinished

namespace Advances

variable {C later last : Chart G}
variable {events told all : Array (Event G)}

/- A chart grows, and nothing is told of it. -/
theorem of_grows
    (hGrows : C.Grows later) :
    Advances C later events events where
  chart := hGrows
  events := ⟨[], (List.append_nil _).symm, by simp⟩

theorem refl :
    Advances C C events events :=
  of_grows .refl

theorem trans
    (hFirst : Advances C later events told)
    (hSecond : Advances later last told all) :
    Advances C last events all where
  chart := hFirst.chart.trans hSecond.chart
  events := by
    rcases hFirst.events with ⟨first, hTold, hBefore⟩
    rcases hSecond.events with ⟨second, hAll, hAfter⟩
    refine ⟨first ++ second, ?_, ?_⟩
    · rw [hAll, hTold, List.append_assoc]
    · intro event hEvent
      rcases List.mem_append.mp hEvent with hOld | hNew
      · exact hBefore event hOld
      · exact hAfter event hNew

/- A chart grows, and one event is told of it. -/
theorem tell
    (hGrows : C.Grows later)
    {event : Event G}
    (hEvent : ¬ event.IsFinished) :
    Advances C later events (events.push event) where
  chart := hGrows
  events := ⟨[event], Array.toList_push, by simpa⟩

/- Events stay where they are. -/
theorem isPrefix
    (hAdvances : Advances C later events told) :
    events.toList <+: told.toList := by
  rcases hAdvances.events with ⟨more, hTold, _⟩
  exact ⟨more, hTold.symm⟩

/- No event ends the parse when none did before. -/
theorem not_isFinished
    (hAdvances : Advances C later events told)
    (hEvents :
      ∀ event ∈ events.toList, ¬ event.IsFinished) :
    ∀ event ∈ told.toList, ¬ event.IsFinished := by
  rcases hAdvances.events with ⟨more, hTold, hMore⟩
  intro event hEvent
  rw [hTold, List.mem_append] at hEvent
  rcases hEvent with hOld | hNew
  · exact hEvents event hOld
  · exact hMore event hNew

end Advances

------------------------------------------------------------
-- Sweeps
------------------------------------------------------------

namespace Sweep

/-
  What a sweep does to its chart and its events. It admits
  offered items and tells how many of them were new, if any
  were, and it reports items that wait in vain.
-/
inductive Writes
    (C : Chart G)
    (events : Array (Event G)) :
    Chart G → Array (Event G) → Prop where
  | refl : Writes C events C events
  | grow
      {D later : Chart G}
      {told : Array (Event G)}
      {offers : Offers G}
      {count : Nat}
      (hBefore : Writes C events D told)
      (hEnter : D.enterAll offers = (later, .ok count))
      (hCount : count ≠ 0)
      (step : Step)
      (item : Item G) :
      Writes C events later
        (told.push (.applied step item count))
  | report
      {D : Chart G}
      {told : Array (Event G)}
      (hBefore : Writes C events D told)
      (item : Item G)
      (wanted : Symbol)
      (position : Nat) :
      Writes C events D
        (told.push (.unmatched item wanted position))

/- The chart grows, and events are told of it. -/
theorem Writes.advances
    {C D : Chart G}
    {events told : Array (Event G)}
    (hWrites : Writes C events D told) :
    Advances C D events told := by
  induction hWrites with
  | refl => exact .refl
  | @grow D later told offers count _ hEnter _ step item
      ih =>
      have hGrows := D.grows_enterAll offers
      rw [hEnter] at hGrows
      exact ih.trans (.tell hGrows id)
  | report _ item wanted position ih =>
      exact ih.trans (.tell .refl id)

section

variable (plan : Plan)
variable {C : Chart G}
variable {events : Array (Event G)}
variable {sweep : Sweep G}
variable (hWrites :
  Writes C events sweep.chart sweep.events)

include hWrites

/- Applying steps admits what they offer. -/
theorem writes_applySteps
    (item : Item G)
    (steps : List Step) :
    Writes C events
      (applySteps plan item sweep steps).state.chart
      (applySteps plan item sweep steps).state.events := by
  induction steps generalizing sweep with
  | nil => exact hWrites
  | cons step steps ih =>
      simp only [applySteps]
      split
      · exact hWrites
      · exact ih hWrites
      · rename_i hCount hEnter
        exact ih (hWrites.grow hEnter hCount step item)

/- Reporting writes at most one event. -/
theorem writes_report
    (item : Item G) :
    Writes C events (report plan item sweep).chart
      (report plan item sweep).events := by
  unfold report
  split
  · exact hWrites
  · split
    · exact hWrites
    · exact hWrites.report _ _ _

theorem writes_visit
    (item : Item G) :
    Writes C events (visit plan item sweep).state.chart
      (visit plan item sweep).state.events := by
  have hApply :=
    writes_applySteps plan hWrites item plan.steps
  unfold visit
  cases hAfter : applySteps plan item sweep plan.steps with
  | failed error after =>
      rw [hAfter] at hApply
      exact hApply
  | finished after =>
      rw [hAfter] at hApply
      exact hApply
  | running after =>
      rw [hAfter] at hApply
      cases hLimit : after.chart.limitError plan.limit with
      | none =>
          simp only [hLimit]
          exact writes_report plan hApply item
      | some error =>
          simp only [hLimit]
          exact hApply

/- A step of a sweep writes nothing else. -/
theorem writes_step :
    Writes C events (step plan sweep).state.chart
      (step plan sweep).state.events := by
  unfold step
  split
  · rename_i item _
    exact writes_visit plan hWrites item
  · split
    · exact hWrites
    · split
      · exact hWrites
      · exact hWrites

end

/- A step of a sweep only adds items and events. -/
theorem advances_step
    (plan : Plan)
    (sweep : Sweep G) :
    Advances sweep.chart (step plan sweep).state.chart
      sweep.events (step plan sweep).state.events :=
  (writes_step plan .refl).advances

end Sweep

------------------------------------------------------------
-- Saturation
------------------------------------------------------------

namespace Saturation

variable (plan : Plan)

/- Combining queues items, and tells of it. -/
theorem advances_combine
    (item : Item G)
    (state : Saturation G) :
    Advances state.chart (combine plan item state).state.chart
      state.events (combine plan item state).state.events := by
  simp only [combine]
  split
  · exact .refl
  · exact .refl
  · exact .tell .refl id

/- Moving an item to the chart enters it. -/
theorem advances_settle
    (item : Item G)
    (state : Saturation G) :
    Advances state.chart (settle plan item state).state.chart
      state.events (settle plan item state).state.events := by
  let middle : Saturation G :=
    { state with chart := (state.chart.enter item).1 }
  have hMiddle :
      Advances state.chart middle.chart state.events
        middle.events := .of_grows (.enter .refl item)
  unfold settle
  simp only
  split
  · exact hMiddle
  · exact hMiddle.trans (advances_combine plan item middle)

/- A step of saturation only adds items and events. -/
theorem advances_step
    (state : Saturation G) :
    Advances state.chart (step plan state).state.chart
      state.events (step plan state).state.events := by
  unfold step
  split
  · split
    · rename_i item agenda _
      exact advances_settle plan item
        { state with agenda := agenda }
    · exact .refl
  · rename_i item items _
    exact advances_combine plan item
      { state with replay := some items }
  · split
    · exact .refl
    · exact .refl

end Saturation

end Constituency
