import Constituency.Proofs.Parse.Limit
import Mathlib.Data.List.Nodup

/-
  This file shows which items are reported during a parse:
  exactly those that wait in vain for a terminal, each of
  them once. A sweep leaves a position only after it has
  visited every item that stops there, however late the item
  was admitted; and what has been reported is remembered, so
  that further passes do not report it again.

  Key definitions include:
    * `Item.missing?`
    * `Item.report?`
    * `Event.isUnmatched`
    * `Sweep.Reports`

  Main declarations:
    * `Sweep.Reports.report`
    * `Sweep.reports_step`
    * `Sweep.reports_finished`
    * `Saturation.unmatched_run`
    * `Grammar.unmatched_reported_once`
    * `Grammar.repeated_unmatched`
-/

namespace Constituency

variable {G : Grammar}

------------------------------------------------------------
-- Waiting in Vain
------------------------------------------------------------

namespace Item

/-
  The terminal that the item waits for in vain: there is no
  word where the item stops, or another one.
-/
def missing?
    (words : List Symbol)
    (item : Item G) : Option Symbol :=
  item.key.next.filter (fun wanted =>
    !G.isNonterminal wanted &&
      words[item.stop]? != some wanted)

theorem missing?_eq_some_iff
    {words : List Symbol}
    {item : Item G}
    {wanted : Symbol} :
    item.missing? words = some wanted ↔
      item.key.next = some wanted ∧
        G.isNonterminal wanted = false ∧
          words[item.stop]? ≠ some wanted := by
  simp [missing?, Option.filter_eq_some_iff]

/- The event that reports the item, if it waits in vain. -/
def report?
    (words : List Symbol)
    (item : Item G) : Option (Event G) :=
  (item.missing? words).map
    (fun wanted => .unmatched item wanted item.stop)

theorem report?_eq_some_iff
    {words : List Symbol}
    {item : Item G}
    {event : Event G} :
    item.report? words = some event ↔
      ∃ wanted, item.key.next = some wanted ∧
        G.isNonterminal wanted = false ∧
          words[item.stop]? ≠ some wanted ∧
            event = .unmatched item wanted item.stop := by
  unfold report?
  rw [Option.map_eq_some_iff]
  simp only [missing?_eq_some_iff, and_assoc,
    eq_comm (a := event)]

end Item

/- The event tells of an item that waits in vain. -/
def Event.isUnmatched : Event G → Bool
  | unmatched _ _ _ => true
  | _ => false

------------------------------------------------------------
-- Reports of a Sweep
------------------------------------------------------------

namespace Sweep

variable {plan : Plan}
variable {sweep : Sweep G}

/- Reporting tells of an item that has not been told of. -/
theorem report_cases
    (plan : Plan)
    (item : Item G)
    (sweep : Sweep G) :
    (report plan item sweep = sweep ∧
      (item.missing? plan.words ≠ none →
        item.key ∈ sweep.reported)) ∨
    ∃ wanted,
      item.missing? plan.words = some wanted ∧
        item.key ∉ sweep.reported ∧
          report plan item sweep =
            { sweep with
              reported := item.key :: sweep.reported
              events :=
                sweep.events.push
                  (.unmatched item wanted item.stop) } := by
  unfold report
  cases hNext : item.key.next with
  | none =>
      refine Or.inl ⟨rfl, fun hMissing => ?_⟩
      exact absurd (by simp [Item.missing?, hNext]) hMissing
  | some wanted =>
      by_cases hKnown : item.key ∈ sweep.reported
      · left
        simp [hKnown]
      · by_cases hMissing :
            item.missing? plan.words = some wanted
        · right
          have hVain := Item.missing?_eq_some_iff.mp hMissing
          exact ⟨wanted, hMissing, hKnown,
            by simp [hKnown, hVain]⟩
        · left
          have hMet :
              G.isNonterminal wanted = true ∨
                plan.words[item.stop]? = some wanted := by
            rw [Item.missing?_eq_some_iff] at hMissing
            by_contra hNeither
            rw [not_or, Bool.not_eq_true] at hNeither
            exact hMissing ⟨hNext, hNeither⟩
          refine ⟨if_pos ?_, fun hSome => ?_⟩
          · exact hMet.imp_right Or.inl
          · rcases Option.ne_none_iff_exists'.mp hSome with
              ⟨other, hOther⟩
            have hVain := Item.missing?_eq_some_iff.mp hOther
            rw [hNext, Option.some.injEq] at hVain
            rw [hVain.1] at hMissing
            exact absurd hOther hMissing

/- Applying steps reports nothing. -/
theorem reported_applySteps
    (plan : Plan)
    (item : Item G)
    (sweep : Sweep G)
    (steps : List Step) :
    let after := (applySteps plan item sweep steps).state
    after.reported = sweep.reported ∧
      after.events.toList.filter Event.isUnmatched =
        sweep.events.toList.filter Event.isUnmatched := by
  induction steps generalizing sweep with
  | nil => exact ⟨rfl, rfl⟩
  | cons step steps ih =>
      simp only [applySteps]
      split
      · exact ⟨rfl, rfl⟩
      · exact ih sweep
      · rename_i chart count _ _
        have hRest := ih
          { sweep with
            chart := chart
            added := sweep.added + count
            events :=
              sweep.events.push (.applied step item count) }
        simpa [Event.isUnmatched] using hRest

/-
  What has been reported in a sweep so far. The items `told`
  are those that the events tell of, and they are in the
  chart and wait in vain. None is missing among the items
  that stop before the current position, nor among those
  that have been visited in this pass.
-/
structure Reports
    (plan : Plan)
    (sweep : Sweep G)
    (told : List (Item G)) : Prop where
  events :
    sweep.events.toList.filter Event.isUnmatched =
      told.filterMap (Item.report? plan.words)
  keys : sweep.reported = (told.map Item.key).reverse
  nodup : (told.map Item.key).Nodup
  source : ∀ item ∈ told,
    item ∈ sweep.chart.items.toList ∧
      item.missing? plan.words ≠ none
  settled : ∀ item ∈ sweep.chart.items.toList,
    item.stop < sweep.position →
      item.missing? plan.words ≠ none →
        item.key ∈ sweep.reported
  visited :
    ∀ item ∈ (sweep.chart.endingAt sweep.position).take
        sweep.visited,
      item.missing? plan.words ≠ none →
        item.key ∈ sweep.reported

namespace Reports

variable {told : List (Item G)}
variable {item : Item G}

/-
  New items that stop here or later are neither settled nor
  visited yet.
-/
theorem expand
    (hReports : Reports plan sweep told)
    {after : Sweep G}
    {steps : List Step}
    {new : List (Item G)}
    (hExpansion : Expansion plan item steps sweep after new)
    (hNew : ∀ x ∈ new, sweep.position ≤ x.stop)
    (hVisited : sweep.visited ≤
      (sweep.chart.endingAt sweep.position).length)
    (hReported : after.reported = sweep.reported)
    (hEvents :
      after.events.toList.filter Event.isUnmatched =
        sweep.events.toList.filter Event.isUnmatched) :
    Reports plan after told where
  events := hEvents.trans hReports.events
  keys := hReported.trans hReports.keys
  nodup := hReports.nodup
  source := by
    intro x hx
    rw [hExpansion.items]
    exact ⟨List.mem_append_left _ (hReports.source x hx).1,
      (hReports.source x hx).2⟩
  settled := by
    intro x hx hBefore
    rw [hExpansion.position] at hBefore
    rw [hExpansion.items] at hx
    rw [hReported]
    rcases List.mem_append.mp hx with hOld | hLater
    · exact hReports.settled x hOld hBefore
    · exact absurd hBefore (Nat.not_lt.mpr (hNew x hLater))
  visited := by
    rw [hExpansion.position, hExpansion.visited, hReported,
      Chart.endingAt_append hExpansion.items,
      List.take_append_of_le_length hVisited]
    exact hReports.visited

/- The item that is visited is reported if need be. -/
theorem report
    (hReports : Reports plan sweep told)
    (hVisited :
      (sweep.chart.endingAt sweep.position)[sweep.visited]? =
        some item) :
    ∃ later,
      Reports plan
        { Sweep.report plan item sweep with
          visited := sweep.visited + 1 } later := by
  have hItem : item ∈ sweep.chart.items.toList :=
    (Item.mem_endingAt_iff.mp
      (List.mem_of_getElem? hVisited)).1
  have hRow :
      (sweep.chart.endingAt sweep.position).take
          (sweep.visited + 1) =
        (sweep.chart.endingAt sweep.position).take
          sweep.visited ++ [item] := by
    rw [List.take_add_one, hVisited, Option.toList_some]
  rcases report_cases plan item sweep with
    ⟨hSame, hKnown⟩ | ⟨wanted, hMissing, hNew, hReport⟩
  · rw [hSame]
    refine ⟨told,
      { events := hReports.events
        keys := hReports.keys
        nodup := hReports.nodup
        source := hReports.source
        settled := hReports.settled
        visited := ?_ }⟩
    intro x hx
    simp only [hRow, List.mem_append, List.mem_singleton]
      at hx
    rcases hx with hBefore | rfl
    · exact hReports.visited x hBefore
    · exact hKnown
  · rw [hReport]
    have hFresh : item.key ∉ told.map Item.key := by
      rwa [hReports.keys, List.mem_reverse] at hNew
    refine ⟨told ++ [item],
      { events := ?_
        keys := ?_
        nodup := ?_
        source := ?_
        settled := ?_
        visited := ?_ }⟩
    · simp [hReports.events, Event.isUnmatched,
        Item.report?, hMissing]
    · simp [hReports.keys]
    · rw [List.map_append, List.map_singleton]
      exact List.nodup_append_comm.mp
        (List.nodup_cons.mpr ⟨hFresh, hReports.nodup⟩)
    · intro x hx
      rcases List.mem_append.mp hx with hOld | hLast
      · exact hReports.source x hOld
      · rw [List.mem_singleton] at hLast
        subst hLast
        exact ⟨hItem, by simp [hMissing]⟩
    · intro x hx hBefore hVain
      exact List.mem_cons_of_mem _
        (hReports.settled x hx hBefore hVain)
    · intro x hx hVain
      simp only [hRow, List.mem_append, List.mem_singleton]
        at hx
      rcases hx with hBefore | rfl
      · exact List.mem_cons_of_mem _
          (hReports.visited x hBefore hVain)
      · exact List.mem_cons_self

/- In a new pass nothing has been visited yet. -/
theorem again
    (hReports : Reports plan sweep told) :
    Reports plan
      { sweep with
        visited := 0
        added := 0
        passes := sweep.passes + 1 } told where
  events := hReports.events
  keys := hReports.keys
  nodup := hReports.nodup
  source := hReports.source
  settled := hReports.settled
  visited := by simp

/- After a pass all items of its position are reported. -/
theorem settled_succ
    (hReports : Reports plan sweep told)
    (hEnd :
      (sweep.chart.endingAt sweep.position)[sweep.visited]? =
        none) :
    ∀ x ∈ sweep.chart.items.toList,
      x.stop < sweep.position + 1 →
        x.missing? plan.words ≠ none →
          x.key ∈ sweep.reported := by
  intro x hx hStop
  rcases Nat.lt_or_ge x.stop sweep.position with
    hBefore | hHere
  · exact hReports.settled x hx hBefore
  · apply hReports.visited
    rw [List.take_of_length_le
      (List.getElem?_eq_none_iff.mp hEnd)]
    exact Item.mem_endingAt_iff.mpr ⟨hx, by omega⟩

theorem onward
    (hReports : Reports plan sweep told)
    (hEnd :
      (sweep.chart.endingAt sweep.position)[sweep.visited]? =
        none) :
    Reports plan
      { sweep with
        position := sweep.position + 1
        visited := 0
        passes := sweep.passes + 1 } told where
  events := hReports.events
  keys := hReports.keys
  nodup := hReports.nodup
  source := hReports.source
  settled := hReports.settled_succ hEnd
  visited := by simp

end Reports

/- A visit keeps the account of what has been reported. -/
theorem reports_visit
    (hSteps : Step.combine ∉ plan.steps)
    (hSound : Sound plan sweep)
    {told : List (Item G)}
    (hReports : Reports plan sweep told)
    {item : Item G}
    (hVisited :
      (sweep.chart.endingAt sweep.position)[sweep.visited]? =
        some item) :
    ∃ later,
      Reports plan (visit plan item sweep).state later := by
  have hRow := (List.getElem?_eq_some_iff.mp hVisited).1
  rcases Item.mem_endingAt_iff.mp
      (List.mem_of_getElem? hVisited) with
    ⟨hItem, hStop⟩
  rcases applySteps_of_sound (List.Subset.refl plan.steps)
      hSound hItem with
    ⟨after, new, hApply, hExpansion⟩
  have hNew : ∀ x ∈ new, sweep.position ≤ x.stop := by
    intro x hx
    rcases hExpansion.source x hx with
      ⟨step, hStep, known, hInfers⟩
    rw [← hStop]
    apply hInfers.stop_le_stop
    rintro rfl
    exact hSteps hStep
  rcases reported_applySteps plan item sweep plan.steps with
    ⟨hReported, hEvents⟩
  rw [hApply] at hReported hEvents
  have hAfter : Reports plan after told :=
    hReports.expand hExpansion hNew (Nat.le_of_lt hRow)
      hReported hEvents
  unfold visit
  simp only [hApply]
  cases hLimit : after.chart.limitError plan.limit with
  | some error => exact ⟨told, hAfter⟩
  | none =>
      have hVisited' :
          (after.chart.endingAt after.position)[
            after.visited]? = some item := by
        rw [hExpansion.position, hExpansion.visited,
          Chart.endingAt_append hExpansion.items,
          List.getElem?_append_left hRow]
        exact hVisited
      rcases report_eq plan item after with
        ⟨reported, events, hReport⟩
      have hLater := hAfter.report hVisited'
      rw [hReport] at hLater ⊢
      exact hLater

/- So does every step. -/
theorem reports_step
    (hSteps : Step.combine ∉ plan.steps)
    (hSound : Sound plan sweep)
    {told : List (Item G)}
    (hReports : Reports plan sweep told) :
    ∃ later,
      Reports plan (step plan sweep).state later := by
  unfold step
  rw [Chart.nthEndingAt_eq]
  split
  · rename_i item hVisited
    exact reports_visit hSteps hSound hReports hVisited
  · rename_i hEnd
    split
    · exact ⟨told, hReports.again⟩
    · split
      · exact ⟨told, hReports.onward hEnd⟩
      · exact ⟨told, hReports⟩

theorem reports_begin
    (plan : Plan) :
    Reports plan (begin G plan) [] where
  events := by
    simp [begin, List.filter_map, Function.comp_def,
      Event.isUnmatched]
  keys := rfl
  nodup := List.nodup_nil
  source := by simp
  settled := fun _ _ hStop => absurd hStop (Nat.not_lt_zero _)
  visited := by simp [begin]

/-
  The step that finishes a sweep leaves it as it is, at the
  end of a pass over the last position.
-/
theorem eq_of_step_finished
    (hSound : Sound plan sweep)
    {last : Sweep G}
    (hStep : step plan sweep = .finished last) :
    last = sweep ∧
      (sweep.chart.endingAt sweep.position)[sweep.visited]? =
          none ∧
        plan.words.length ≤ sweep.position := by
  unfold step at hStep
  rw [Chart.nthEndingAt_eq] at hStep
  split at hStep
  · rename_i item hVisited
    have hItem := (Item.mem_endingAt_iff.mp
      (List.mem_of_getElem? hVisited)).1
    rcases visit_of_sound hSound hItem with
      ⟨after, new, _, hVisit⟩
    rw [hVisit] at hStep
    split at hStep
    · cases hStep
    · cases hStep
  · rename_i hEnd
    split at hStep
    · cases hStep
    · split at hStep
      · cases hStep
      · rename_i hPosition
        cases hStep
        exact ⟨rfl, hEnd, Nat.le_of_not_lt hPosition⟩

/-
  A finished sweep has told of the items of its chart that
  wait in vain, in some order and once each.
-/
theorem reports_finished
    (hSteps : Step.combine ∉ plan.steps)
    {last : Sweep G}
    (hRun : run G plan = .finished last) :
    (last.events.toList.filter Event.isUnmatched).Perm
      (last.chart.items.toList.filterMap
        (Item.report? plan.words)) := by
  rcases Progress.exists_of_iterate_finished
      (P := fun sweep : Sweep G =>
        Sound plan sweep ∧ ∃ told, Reports plan sweep told)
      (fun sweep hSweep =>
        ⟨sound_step hSweep.1,
          hSweep.2.elim (fun _ hReports =>
            reports_step hSteps hSweep.1 hReports)⟩)
      ⟨(begin_spec plan).1, [], reports_begin plan⟩ hRun with
    ⟨before, ⟨hSound, told, hReports⟩, hStep⟩
  rcases eq_of_step_finished hSound hStep with
    ⟨rfl, hEnd, hPosition⟩
  -- What is told of is what waits in vain: an item with a
  -- key that has been told of is the item told of.
  have hTold :
      told.Perm
        (last.chart.items.toList.filter
          (fun x => (x.missing? plan.words).isSome)) := by
    rw [List.perm_ext_iff_of_nodup
      (.of_map Item.key hReports.nodup)
      (last.chart.nodup_items.filter _)]
    intro x
    rw [List.mem_filter, Option.isSome_iff_ne_none]
    refine ⟨hReports.source x, ?_⟩
    rintro ⟨hx, hVain⟩
    have hStop := hSound.stop_le x hx
    have hKey := hReports.settled_succ hEnd x hx
      (by omega) hVain
    rw [hReports.keys, List.mem_reverse, List.mem_map]
      at hKey
    rcases hKey with ⟨y, hy, hSame⟩
    have hBoth := last.chart.eq_of_key_eq
      (hReports.source y hy).1 hx hSame
    exact hBoth ▸ hy
  rw [hReports.events]
  refine (hTold.filterMap _).trans (.of_eq ?_)
  rw [List.filterMap_filter]
  apply List.filterMap_congr
  intro x _
  cases hMissing : x.missing? plan.words with
  | none => simp [Item.report?, hMissing]
  | some wanted => simp

end Sweep

------------------------------------------------------------
-- Saturation
------------------------------------------------------------

namespace Saturation

variable {plan : Plan}

/- Combining items reports none. -/
theorem unmatched_combine
    (plan : Plan)
    (item : Item G)
    (state : Saturation G) :
    (combine plan item state).state.events.toList.filter
        Event.isUnmatched =
      state.events.toList.filter Event.isUnmatched := by
  simp only [combine]
  split
  · rfl
  · rfl
  · simp [Progress.state, Event.isUnmatched]

theorem unmatched_step
    (plan : Plan)
    (state : Saturation G) :
    (step plan state).state.events.toList.filter
        Event.isUnmatched =
      state.events.toList.filter Event.isUnmatched := by
  unfold step
  split
  · split
    · simp only [settle]
      split
      · rfl
      · exact unmatched_combine plan _ _
    · rfl
  · exact unmatched_combine plan _ _
  · split
    · rfl
    · rfl

/- Nothing is reported from heads. -/
theorem unmatched_run
    (plan : Plan) :
    (run G plan).state.events.toList.filter
      Event.isUnmatched = [] := by
  apply Progress.iterate_keeps
    (P := fun state : Saturation G =>
      state.events.toList.filter Event.isUnmatched = [])
  · intro state hState
    rw [unmatched_step]
    exact hState
  · rfl

end Saturation

------------------------------------------------------------
-- Parses
------------------------------------------------------------

namespace Grammar

variable {algorithm : Algorithm}
variable {start : Symbol}
variable {words : List Symbol}
variable {limit : Option Nat}

/- A parse shows the chart of a finished sweep. -/
theorem exists_swept_of_parse
    (hAlgorithm : algorithm ≠ .headCorner)
    {parse : Parse G}
    (hParse :
      (G.parse algorithm start limit words).result =
        .ok parse) :
    ∃ last,
      Sweep.run G ⟨words, start, algorithm.steps, limit⟩ =
          .finished last ∧
        parse.chart = last.chart := by
  rw [parse_eq_sweep hAlgorithm] at hParse
  rcases exists_of_result_ofProgress hParse with
    ⟨_, _, _, hChart⟩
  rcases @Sweep.run_finishes G
      ⟨words, start, algorithm.steps, none⟩
      (combine_not_mem_steps hAlgorithm) rfl with
    ⟨last, hFree, _⟩
  cases limit with
  | none =>
      rw [hFree] at hChart
      exact ⟨last, hFree, hChart⟩
  | some most =>
      have hGuards := @Sweep.run_guards G
        ⟨words, start, algorithm.steps, none⟩ rfl most
      cases hGuards with
      | within _ hSame =>
          have hRun := hSame.trans hFree
          rw [hRun] at hChart
          exact ⟨last, hRun, hChart⟩
      | beyond _ hCut =>
          rw [hCut] at hParse
          cases hParse

/- The end of a parse is no report. -/
theorem unmatched_ofProgress
    {σ : Type}
    {read : σ → Chart G × Nat × Array (Event G)}
    {progress : Progress σ} :
    (Outcome.ofProgress algorithm start words read
        progress).events.filter Event.isUnmatched =
      (read progress.state).2.2.toList.filter
        Event.isUnmatched := by
  cases progress with
  | running state =>
      simp [Outcome.ofProgress, Progress.state,
        Parse.finish, Event.isUnmatched]
  | finished state =>
      simp [Outcome.ofProgress, Progress.state,
        Parse.finish, Event.isUnmatched]
  | failed error state => rfl

/-
  From left to right a parse reports every item of its chart
  that waits for a terminal where the next word is another
  one or missing, with this terminal and the place, and it
  reports each of them once and nothing else. From heads
  nothing is reported, be there a parse or not.
-/
theorem unmatched_reported_once
    (algorithm : Algorithm)
    (start : Symbol)
    (limit : Option Nat)
    (words : List Symbol) :
    let outcome := G.parse algorithm start limit words
    let reports := outcome.events.filter Event.isUnmatched
    (algorithm ≠ .headCorner →
      ∀ parse, outcome.result = .ok parse →
        let vain := parse.chart.items.toList.filterMap
          (Item.report? words)
        reports.Perm vain ∧
          vain.Nodup ∧
          ∀ event, event ∈ vain ↔
            ∃ item ∈ parse.chart.items.toList, ∃ wanted,
              item.key.next = some wanted ∧
                G.isNonterminal wanted = false ∧
                  words[item.stop]? ≠ some wanted ∧
                    event =
                      .unmatched item wanted item.stop) ∧
    (algorithm = .headCorner → reports = []) := by
  intro outcome reports
  constructor
  · intro hAlgorithm parse hParse vain
    refine ⟨?_, ?_, ?_⟩
    · rcases exists_swept_of_parse hAlgorithm hParse with
        ⟨last, hRun, hChart⟩
      have hReports := Sweep.reports_finished
        (combine_not_mem_steps hAlgorithm) hRun
      simp only [reports, outcome, vain, hChart,
        parse_eq_sweep hAlgorithm, unmatched_ofProgress, hRun]
      exact hReports
    · apply List.Nodup.filterMap _ parse.chart.nodup_items
      intro x y event hx hy
      rcases Option.map_eq_some_iff.mp hx with ⟨a, _, rfl⟩
      rcases Option.map_eq_some_iff.mp hy with ⟨b, _, hSame⟩
      cases hSame
      rfl
    · intro event
      simp only [vain, List.mem_filterMap,
        Item.report?_eq_some_iff]
  · rintro rfl
    simp only [reports, outcome, Grammar.parse,
      unmatched_ofProgress]
    exact Saturation.unmatched_run _

/-
  In front of `c` the one item that waits for a `b` is
  reported once, though its position is passed over twice.
  From heads it is not reported.
-/
theorem repeated_unmatched :
    (∃ outcome parse,
      outcome =
          repeated.parse .earley "S" (some 5) ["b", "c"] ∧
        outcome.result = .ok parse ∧
        (parse.chart.items.toList.filterMap
          (Item.report? ["b", "c"])).length = 1 ∧
        (outcome.events.filter Event.isUnmatched).Perm
          (parse.chart.items.toList.filterMap
            (Item.report? ["b", "c"]))) ∧
      (repeated.parse .headCorner "S" none
        ["b", "c"]).events.filter Event.isUnmatched = [] := by
  constructor
  · have hCount :
        ((repeated.parse .earley "S" (some 5)
            ["b", "c"]).result.map (fun parse =>
          (parse.chart.items.toList.filterMap
            (Item.report? ["b", "c"])).length)).toOption =
          some 1 := by
      decide +kernel
    cases hParse :
        (repeated.parse .earley "S" (some 5)
          ["b", "c"]).result with
    | error cause =>
        rw [hParse] at hCount
        cases hCount
    | ok parse =>
        rw [hParse] at hCount
        have hReports :=
          (unmatched_reported_once .earley "S" (some 5)
            ["b", "c"]).1 (by decide) parse hParse
        exact ⟨_, parse, rfl, hParse,
          Option.some.inj hCount, hReports.1⟩
  · exact (unmatched_reported_once .headCorner "S" none
      ["b", "c"]).2 rfl

end Grammar

end Constituency
