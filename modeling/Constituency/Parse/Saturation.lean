import Constituency.Parse.Progress

/-
  This file fills a chart from an agenda. Waiting items are
  moved to the chart and combined with it until none waits;
  then every item of the chart is combined once more, since
  a partner may have come after it. This is repeated until
  combining the whole chart queues nothing.

  Key definitions include:
    * `Saturation`
    * `Saturation.Plan`
    * `Saturation.begin`
    * `Saturation.combine`
    * `Saturation.step`
    * `Saturation.budget`
    * `Saturation.run`
-/

namespace Constituency

variable {G : Grammar}

/-
  A chart on the way, and the items that wait for it.
-/
structure Saturation (G : Grammar) where
  chart : Chart G
  agenda : Agenda G
  /-
    The items of the chart that are still to be combined
    once more; absent while the agenda is emptied.
  -/
  replay : Option (List (Item G))
  /- The number of items queued since the replay began. -/
  added : Nat
  /- The number of passes begun. -/
  passes : Nat
  events : Array (Event G)

namespace Saturation

/- What stays the same while a chart is saturated. -/
structure Plan where
  words : List Symbol
  start : Symbol
  limit : Option Nat

/- The demand for the start symbol over all words. -/
def seed
    (G : Grammar)
    (plan : Plan) : Item G :=
  ⟨.goal plan.start ⟨0, plan.words.length⟩, []⟩

/- Only the seed waits. -/
def begin
    (G : Grammar)
    (plan : Plan) : Saturation G :=
  let C := Chart.new G plan.words.length
  { chart := C
    agenda := ((Agenda.empty G).add C (seed G plan)).1
    replay := none
    added := 0
    passes := 1
    events := #[.seeded (seed G plan)] }

/-
  Combine an item with the chart and the words, queueing
  what it sets off.
-/
def combine
    (plan : Plan)
    (item : Item G)
    (state : Saturation G) : Progress (Saturation G) :=
  let offers :=
    Step.combine.offers state.chart plan.words item
  match state.agenda.addAll state.chart offers with
  | (_, .error cause) => .failed (.brokenItem cause) state
  | (_, .ok 0) => .running state
  | (agenda, .ok count) =>
      .running
        { state with
          agenda := agenda
          added := state.added + count
          events :=
            state.events.push
              (.applied .combine item count) }

/- Move an item that has waited to the chart. -/
def settle
    (plan : Plan)
    (item : Item G)
    (state : Saturation G) : Progress (Saturation G) :=
  let state :=
    { state with chart := (state.chart.enter item).1 }
  match state.chart.limitError plan.limit with
  | some error => .failed error state
  | none => combine plan item state

/-
  Take the next item from the agenda or, when that is empty,
  the next one to be replayed. A replay that has queued
  something is followed by another pass.
-/
def step
    (plan : Plan)
    (state : Saturation G) : Progress (Saturation G) :=
  match state.replay with
  | none =>
      match state.agenda.pop? with
      | some (item, agenda) =>
          settle plan item { state with agenda := agenda }
      | none =>
          .running
            { state with
              replay := some state.chart.items.toList
              added := 0 }
  | some (item :: items) =>
      combine plan item { state with replay := some items }
  | some [] =>
      if 0 < state.added then
        .running
          { state with
            replay := none
            passes := state.passes + 1 }
      else
        .finished state

/-
  A bound on the items of a chart for `n` words: a rule with
  two dots, a completed rule or a demanded symbol, over a
  span.
-/
def capacity
    (G : Grammar)
    (n : Nat) : Nat :=
  (n + 1) * (n + 2) / 2 *
    (G.total (fun rule =>
        (rule.length + 1) * (rule.length + 2) / 2) +
      G.rules.size + G.symbols.length)

/-
  A bound on the steps: each item waits once, each pass but
  the last one queues an item, and each pass combines every
  item once and has two turning points.
-/
def budget
    (G : Grammar)
    (n : Nat) : Nat :=
  capacity G n +
    (capacity G n + 1) * (capacity G n + 2)

/- Saturate the chart of the words. -/
def run
    (G : Grammar)
    (plan : Plan) : Progress (Saturation G) :=
  Progress.iterate (step plan)
    (budget G plan.words.length) (begin G plan)

end Saturation

end Constituency
