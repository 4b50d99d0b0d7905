import Constituency.Parse.Progress

/-
  This file fills a chart from left to right. At each
  position the items that stop there are visited in the
  order of their admission, those included that are admitted
  during the visit; the position is passed over again until
  a pass admits nothing.

  Key definitions include:
    * `Sweep`
    * `Sweep.Plan`
    * `Sweep.begin`
    * `Sweep.applySteps`
    * `Sweep.expand`
    * `Sweep.report`
    * `Sweep.visit`
    * `Sweep.step`
    * `Sweep.budget`
    * `Sweep.run`
-/

namespace Constituency

variable {G : Grammar}

/- A chart on the way, and how far the passes have come. -/
structure Sweep (G : Grammar) where
  chart : Chart G
  /- The position that is passed over. -/
  position : Nat
  /- The number of items visited in this pass. -/
  visited : Nat
  /- The number of items admitted in this pass. -/
  added : Nat
  /- The number of passes begun. -/
  passes : Nat
  /- The items reported as waiting in vain. -/
  reported : List (ItemKey G)
  events : Array (Event G)

namespace Sweep

/- What stays the same during a sweep. -/
structure Plan where
  words : List Symbol
  start : Symbol
  /- The steps applied to each item, in order. -/
  steps : List Step
  limit : Option Nat

------------------------------------------------------------
-- Seeds
------------------------------------------------------------

/- The items that a sweep starts from. -/
def seeds
    (G : Grammar)
    (start : Symbol) : List (Item G) :=
  (G.rulesWithLhs start).map
    (fun rule => ⟨.single rule 0 (.point 0), []⟩)

/- The sweep before its first visit. -/
def begin
    (G : Grammar)
    (plan : Plan) : Sweep G where
  chart :=
    (seeds G plan.start).foldl
      (fun C item => (C.enter item).1)
      (Chart.new G plan.words.length)
  position := 0
  visited := 0
  added := 0
  passes := 1
  reported := []
  events := ((seeds G plan.start).map Event.seeded).toArray

------------------------------------------------------------
-- Visits
------------------------------------------------------------

/- Apply steps to an item, one after the other. -/
def applySteps
    (plan : Plan)
    (item : Item G)
    (sweep : Sweep G) :
    List Step → Progress (Sweep G)
  | [] => .running sweep
  | step :: steps =>
      let offers := step.offers sweep.chart plan.words item
      match sweep.chart.enterAll offers with
      | (_, .error cause) =>
          .failed (.brokenItem cause) sweep
      | (_, .ok 0) => applySteps plan item sweep steps
      | (chart, .ok count) =>
          applySteps plan item
            { sweep with
              chart := chart
              added := sweep.added + count
              events :=
                sweep.events.push
                  (.applied step item count) }
            steps

/-
  Report an item that waits for a terminal other than the
  next word, unless it has been reported.
-/
def report
    (plan : Plan)
    (item : Item G)
    (sweep : Sweep G) : Sweep G :=
  match item.key.next with
  | none => sweep
  | some wanted =>
      if G.isNonterminal wanted ∨
          plan.words[item.stop]? = some wanted ∨
          item.key ∈ sweep.reported then
        sweep
      else
        { sweep with
          reported := item.key :: sweep.reported
          events :=
            sweep.events.push
              (.unmatched item wanted item.stop) }

/- Visit an item: apply all steps, then report. -/
def visit
    (plan : Plan)
    (item : Item G)
    (sweep : Sweep G) : Progress (Sweep G) :=
  match applySteps plan item sweep plan.steps with
  | .failed error sweep => .failed error sweep
  | .finished sweep => .finished sweep
  | .running sweep =>
      match sweep.chart.limitError plan.limit with
      | some error => .failed error sweep
      | none =>
          let sweep := report plan item sweep
          .running { sweep with visited := sweep.visited + 1 }

------------------------------------------------------------
-- Passes
------------------------------------------------------------

/-
  Visit the next item of the pass. After the last one, pass
  over the position again if something was admitted, else go
  on to the next position.
-/
def step
    (plan : Plan)
    (sweep : Sweep G) : Progress (Sweep G) :=
  match
    sweep.chart.nthEndingAt sweep.position sweep.visited
  with
  | some item => visit plan item sweep
  | none =>
      if 0 < sweep.added then
        .running
          { sweep with
            visited := 0
            added := 0
            passes := sweep.passes + 1 }
      else if sweep.position < plan.words.length then
        .running
          { sweep with
            position := sweep.position + 1
            visited := 0
            passes := sweep.passes + 1 }
      else
        .finished sweep

------------------------------------------------------------
-- Running to the End
------------------------------------------------------------

/-
  A bound on the items of a chart for `n` words: a rule with
  a dot, over a span.
-/
def capacity
    (G : Grammar)
    (n : Nat) : Nat :=
  (n + 1) * (n + 2) / 2 *
    G.total (fun rule => rule.length + 1)

/-
  A bound on the steps: a pass visits each item at most once
  and then ends, and each pass that is not the last one at
  its position admits an item.
-/
def budget
    (G : Grammar)
    (n : Nat) : Nat :=
  (n + 1 + capacity G n) * (capacity G n + 1)

/- Sweep over all positions. -/
def run
    (G : Grammar)
    (plan : Plan) : Progress (Sweep G) :=
  Progress.iterate (step plan)
    (budget G plan.words.length) (begin G plan)

end Sweep

end Constituency
