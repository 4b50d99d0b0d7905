import Constituency.Proofs.Parse.History
import Constituency.Proofs.Parse.Outcome

/-
  This file shows what a limit on the items of a chart does.
  The work on the chart goes on as it would without a limit,
  until the chart has grown past it; then it is given up at
  the next check, which no growth escapes.

  Main declarations:
    * `Sweep.run_guards`
    * `Saturation.run_guards`
    * `Outcome.of_guards`
    * `Grammar.item_limit_exact`
    * `Grammar.repeated_limit`
-/

namespace Constituency

variable {G : Grammar}

/- A limit is passed by charts with more items. -/
theorem Chart.limitError_some
    (C : Chart G)
    (most : Nat) :
    C.limitError (some most) =
      if most < C.size then some (.itemLimit most)
      else none :=
  rfl

------------------------------------------------------------
-- Sweeps
------------------------------------------------------------

namespace Sweep

variable {plan : Plan}

/- Applying steps does not look at the limit. -/
theorem applySteps_limit
    (limit : Option Nat)
    (item : Item G)
    (sweep : Sweep G)
    (steps : List Step) :
    applySteps { plan with limit := limit } item sweep steps =
      applySteps plan item sweep steps := by
  induction steps generalizing sweep with
  | nil => rfl
  | cons step steps ih => simp only [applySteps, ih]

/- Limited work on a sweep follows the work without a limit. -/
abbrev Guards
    (most : Nat) :
    Progress (Sweep G) → Progress (Sweep G) → Prop :=
  Progress.Guards (fun sweep => sweep.chart.size)
    (fun sweep => sweep.events.toList) most
    (.itemLimit most)

/-
  A visit is checked after all steps have been applied. What
  it tells after the check is missing when it is given up.
-/
theorem visit_guards
    (hLimit : plan.limit = none)
    {sweep : Sweep G}
    (hSound : Sound plan sweep)
    {item : Item G}
    (hItem : item ∈ sweep.chart.items.toList)
    (most : Nat) :
    Guards most (visit plan item sweep)
      (visit { plan with limit := some most } item
        sweep) := by
  rcases applySteps_of_sound (List.Subset.refl _) hSound
      hItem with
    ⟨after, _, hApply, _⟩
  have hFree :
      visit plan item sweep =
        .running { report plan item after with
          visited := (report plan item after).visited + 1 }
      := by
    simp only [visit, hApply, hLimit, Chart.limitError]
  rcases report_eq plan item after with
    ⟨reported, events, hReport⟩
  refine Progress.Guards.of_check after ?_ ?_ ?_
  · rw [hFree, hReport]
    rfl
  · rw [hFree]
    exact (writes_report plan .refl item).advances.isPrefix
  · rw [hFree]
    simp only [visit, applySteps_limit, hApply,
      Chart.limitError_some]
    by_cases hPassed : most < after.chart.size
    · rw [if_pos hPassed, if_pos hPassed]
    · rw [if_neg hPassed, if_neg hPassed]
      rfl

/-
  Every step is guarded: only visits add items, and they are
  checked. A chart that is too large already needs a visit.
-/
theorem step_guards
    (hLimit : plan.limit = none)
    {sweep : Sweep G}
    (hSound : Sound plan sweep)
    {most : Nat}
    (hVisits : most < sweep.chart.size →
      sweep.chart.nthEndingAt sweep.position
        sweep.visited ≠ none) :
    Guards most (step plan sweep)
      (step { plan with limit := some most } sweep) := by
  cases hVisited : sweep.chart.nthEndingAt sweep.position
      sweep.visited with
  | some item =>
      simp only [step, hVisited]
      exact visit_guards hLimit hSound
        (mem_of_nthEndingAt hVisited) most
  | none =>
      have hSize : sweep.chart.size ≤ most := by
        apply Nat.le_of_not_lt
        intro hPassed
        exact hVisits hPassed hVisited
      simp only [step, hVisited]
      split
      · exact .within hSize rfl
      · split
        · exact .within hSize rfl
        · exact .within hSize rfl

/- The first step of a sweep with seeds visits one of them. -/
theorem visits_begin
    (plan : Plan)
    (hSize : 0 < (begin G plan).chart.size) :
    (begin G plan).chart.nthEndingAt
      (begin G plan).position (begin G plan).visited ≠
        none := by
  intro hNone
  have hEmpty : (begin G plan).chart.endingAt 0 = [] := by
    rw [Chart.nthEndingAt_eq] at hNone
    exact List.length_eq_zero_iff.mp
      (Nat.le_zero.mp (List.getElem?_eq_none_iff.mp hNone))
  cases hSeeds : seeds G plan.start with
  | nil =>
      have hChart :
          (begin G plan).chart.size = 0 := by
        rw [chart_begin, hSeeds]
        rfl
      omega
  | cons first rest =>
      have hFirst : first ∈ seeds G plan.start := by
        rw [hSeeds]
        exact List.mem_cons_self
      rcases List.mem_map.mp
          ((begin_spec plan).2 first hFirst) with
        ⟨x, hx, hKey⟩
      have hStop : x.stop = 0 := by
        rw [Item.stop, hKey]
        exact stop_seeds first hFirst
      have hMember : x ∈ (begin G plan).chart.endingAt 0 :=
        Item.mem_endingAt_iff.mpr ⟨hx, hStop⟩
      rw [hEmpty] at hMember
      cases hMember

/-
  A sweep as a whole is guarded by its limit. The seeds are
  entered without a check, but they are visited first.
-/
theorem run_guards
    (hLimit : plan.limit = none)
    (most : Nat) :
    Guards most (run G plan)
      (run G { plan with limit := some most }) := by
  have hGrows :
      ∀ sweep : Sweep G,
        sweep.chart.size ≤ (step plan sweep).state.chart.size ∧
          sweep.events.toList <+:
            (step plan sweep).state.events.toList :=
    fun sweep =>
      ⟨(advances_step plan sweep).chart.size_le,
        (advances_step plan sweep).isPrefix⟩
  have hRest :
      ∀ (budget : Nat) (sweep : Sweep G),
        Sound plan sweep → sweep.chart.size ≤ most →
          Guards most
            (Progress.iterate (step plan) budget sweep)
            (Progress.iterate
              (step { plan with limit := some most })
              budget sweep) := by
    intro budget sweep hSound hSize
    apply Progress.iterate_guards
      (P := fun sweep : Sweep G => Sound plan sweep)
      (fun _ hSound => sound_step hSound) hGrows _ budget
      hSound hSize
    intro sweep hSound hSize
    exact step_guards hLimit hSound
      (fun hPassed => absurd hSize (Nat.not_le.mpr hPassed))
  have hBegin : Sound plan (begin G plan) :=
    (begin_spec plan).1
  have hFirst :
      Guards most (step plan (begin G plan))
        (step { plan with limit := some most }
          (begin G plan)) :=
    step_guards hLimit hBegin
      (fun hPassed => visits_begin plan (by omega))
  have hBudget : budget G plan.words.length ≠ 0 := by
    unfold budget
    exact Nat.mul_ne_zero (by omega) (by omega)
  rcases Nat.exists_eq_succ_of_ne_zero hBudget with
    ⟨later, hLater⟩
  change Guards most
    (Progress.iterate (step plan)
      (budget G plan.words.length) (begin G plan))
    (Progress.iterate (step { plan with limit := some most })
      (budget G plan.words.length) (begin G plan))
  rw [hLater]
  apply hFirst.iterate_succ hGrows
  intro next hNext hSize
  have hKept : Sound plan (step plan (begin G plan)).state :=
    sound_step hBegin
  rw [hNext] at hKept
  exact hRest later next hKept hSize

end Sweep

------------------------------------------------------------
-- Saturation
------------------------------------------------------------

namespace Saturation

variable {plan : Plan}

/- Limited saturation follows saturation without a limit. -/
abbrev Guards
    (most : Nat) :
    Progress (Saturation G) → Progress (Saturation G) →
      Prop :=
  Progress.Guards (fun state => state.chart.size)
    (fun state => state.events.toList) most
    (.itemLimit most)

/- Combining only queues items. -/
theorem chart_combine
    (plan : Plan)
    (item : Item G)
    (state : Saturation G) :
    (combine plan item state).state.chart = state.chart := by
  simp only [combine]
  split
  · rfl
  · rfl
  · rfl

/-
  The chart is checked before the item is combined. What
  combining it tells is missing when the work is given up.
-/
theorem settle_guards
    (hLimit : plan.limit = none)
    (item : Item G)
    (state : Saturation G)
    (most : Nat) :
    Guards most (settle plan item state)
      (settle { plan with limit := some most } item
        state) := by
  let middle : Saturation G :=
    { state with chart := (state.chart.enter item).1 }
  have hFree :
      settle plan item state = combine plan item middle := by
    simp only [settle, hLimit, Chart.limitError]
    rfl
  refine Progress.Guards.of_check middle ?_ ?_ ?_
  · rw [hFree, chart_combine]
  · rw [hFree]
    exact (advances_combine plan item middle).isPrefix
  · rw [hFree]
    simp only [settle, Chart.limitError_some]
    by_cases hPassed : most < middle.chart.size
    · rw [if_pos hPassed, if_pos hPassed]
    · rw [if_neg hPassed, if_neg hPassed]
      rfl

/- Every step is guarded: only settling adds an item. -/
theorem step_guards
    (hLimit : plan.limit = none)
    {state : Saturation G}
    {most : Nat}
    (hSize : state.chart.size ≤ most) :
    Guards most (step plan state)
      (step { plan with limit := some most } state) := by
  cases hReplay : state.replay with
  | none =>
      cases hPop : state.agenda.pop? with
      | some popped =>
          rcases popped with ⟨item, agenda⟩
          simp only [step, hReplay, hPop]
          exact settle_guards hLimit item _ most
      | none =>
          simp only [step, hReplay, hPop]
          exact .within hSize rfl
  | some rest =>
      cases rest with
      | cons item items =>
          simp only [step, hReplay]
          refine .within ?_ rfl
          rw [chart_combine]
          exact hSize
      | nil =>
          simp only [step, hReplay]
          split
          · exact .within hSize rfl
          · exact .within hSize rfl

/- Saturation as a whole is guarded by its limit. -/
theorem run_guards
    (hLimit : plan.limit = none)
    (most : Nat) :
    Guards most (run G plan)
      (run G { plan with limit := some most }) := by
  refine Progress.iterate_guards
    (P := fun _ : Saturation G => True)
    (fun _ _ => trivial) ?_ ?_ _ trivial (Nat.zero_le _)
  · intro state
    exact ⟨(advances_step plan state).chart.size_le,
      (advances_step plan state).isPrefix⟩
  · intro state _ hSize
    exact step_guards hLimit hSize

end Saturation

------------------------------------------------------------
-- Outcomes
------------------------------------------------------------

/-
  What guarded work shows, given that free work ends with a
  parse: an error when the chart of this parse is too large,
  and otherwise the same.
-/
theorem Outcome.of_guards
    {σ : Type}
    {algorithm : Algorithm}
    {start : Symbol}
    {words : List Symbol}
    {read : σ → Chart G × Nat × Array (Event G)}
    {most : Nat}
    {free guarded : Progress σ}
    (hGuards :
      Progress.Guards (fun state => (read state).1.size)
        (fun state => (read state).2.2.toList) most
        (.itemLimit most) free guarded)
    (hEvents :
      ∀ event ∈ (read free.state).2.2.toList,
        ¬ event.IsFinished)
    {parse : Parse G}
    (hParse :
      (ofProgress algorithm start words read free).result =
        .ok parse) :
    let unlimited :=
      ofProgress algorithm start words read free
    let limited :=
      ofProgress algorithm start words read guarded
    (most < parse.chart.size →
      limited.result = .error (.itemLimit most) ∧
        limited.events <+: unlimited.events ∧
          ∀ event ∈ limited.events, ¬ event.IsFinished) ∧
    (parse.chart.size ≤ most → limited = unlimited) := by
  intro unlimited limited
  rcases Grammar.exists_of_result_ofProgress hParse with
    ⟨_, _, _, hChart⟩
  rw [hChart]
  cases hGuards with
  | within hSize hSame =>
      refine ⟨fun hPassed => ?_, fun _ => ?_⟩
      · exact absurd hSize (Nat.not_le.mpr hPassed)
      · simp only [limited, unlimited, hSame]
  | @beyond last hSize hCut hLog =>
      refine ⟨fun _ => ?_, fun hWithin => ?_⟩
      · have hLimited :
            limited = ⟨(read last).2.2.toList,
              .error (.itemLimit most)⟩ := by
          simp only [limited, hCut]
          rfl
        have hUnlimited :
            (read free.state).2.2.toList <+:
              unlimited.events := by
          cases free with
          | running state => exact List.prefix_append _ _
          | finished state => exact List.prefix_append _ _
          | failed error state => exact List.prefix_refl _
        rw [hLimited]
        refine ⟨rfl, hLog.trans hUnlimited, ?_⟩
        intro event hEvent
        exact hEvents event (hLog.subset hEvent)
      · exact absurd hSize (Nat.not_lt.mpr hWithin)

/- A sweep does not tell of the end of the parse. -/
theorem Sweep.not_isFinished_run
    (plan : Sweep.Plan) :
    ∀ event ∈ (run G plan).state.events.toList,
      ¬ event.IsFinished := by
  apply Progress.iterate_keeps
    (P := fun sweep : Sweep G =>
      ∀ event ∈ sweep.events.toList, ¬ event.IsFinished)
  · intro sweep hSweep
    exact (advances_step plan sweep).not_isFinished hSweep
  · intro event hEvent
    simp only [begin, List.toList_toArray, List.mem_map]
      at hEvent
    rcases hEvent with ⟨first, _, hSame⟩
    rw [← hSame]
    exact id

/- Nor does saturation. -/
theorem Saturation.not_isFinished_run
    (plan : Saturation.Plan) :
    ∀ event ∈ (run G plan).state.events.toList,
      ¬ event.IsFinished := by
  apply Progress.iterate_keeps
    (P := fun state : Saturation G =>
      ∀ event ∈ state.events.toList, ¬ event.IsFinished)
  · intro state hState
    exact (advances_step plan state).not_isFinished hState
  · intro event hEvent
    simp only [begin, List.mem_singleton] at hEvent
    rw [hEvent]
    exact id

namespace Grammar

/-
  A limit is exact, and it is not felt before it is passed.
  If the parse without a limit has more items, there is an
  error, and the events up to it are the first ones of that
  parse; otherwise all events and the parse are the same.
-/
theorem item_limit_exact
    {start : Symbol}
    (hStart : G.isNonterminal start = true)
    (words : List Symbol)
    (algorithm : Algorithm)
    (most : Nat) :
    let unlimited := G.parse algorithm start none words
    let limited := G.parse algorithm start (some most) words
    ∃ parse, unlimited.result = .ok parse ∧
      (most < parse.chart.size →
        limited.result = .error (.itemLimit most) ∧
          limited.events <+: unlimited.events ∧
            ∀ event ∈ limited.events,
              ¬ event.IsFinished) ∧
      (parse.chart.size ≤ most → limited = unlimited) := by
  intro unlimited limited
  rcases G.parse_closure algorithm hStart words with
    ⟨parse, hParse, _⟩
  refine ⟨parse, hParse, ?_⟩
  by_cases hAlgorithm : algorithm = .headCorner
  · subst hAlgorithm
    exact Outcome.of_guards
      (@Saturation.run_guards G ⟨words, start, none⟩ rfl most)
      (Saturation.not_isFinished_run _) hParse
  · simp only [limited, unlimited, parse_eq_sweep hAlgorithm]
      at hParse ⊢
    exact Outcome.of_guards
      (@Sweep.run_guards G
        ⟨words, start, algorithm.steps, none⟩ rfl most)
      (Sweep.not_isFinished_run _) hParse

/- Five items are needed here, and four are too few. -/
theorem repeated_limit :
    repeated.isNonterminal "S" = true ∧
      (repeated.parse .earley "S" (some 4) ["b"]).result =
          .error (.itemLimit 4) ∧
        repeated.parse .earley "S" (some 5) ["b"] =
          repeated.parse .earley "S" none ["b"] := by
  have hStart : repeated.isNonterminal "S" = true := by
    decide
  have hFive :
      ((repeated.parse .earley "S" none ["b"]).result.map
          (fun parse => parse.chart.size)).toOption =
        some 5 := by
    decide +kernel
  rcases item_limit_exact hStart ["b"] .earley 4 with
    ⟨parse, hParse, hBeyond, _⟩
  rcases item_limit_exact hStart ["b"] .earley 5 with
    ⟨other, hOther, _, hWithin⟩
  have hSize : parse.chart.size = 5 := by
    rw [hParse] at hFive
    exact Option.some.inj hFive
  have hOtherSize : other.chart.size = 5 := by
    rw [hOther] at hFive
    exact Option.some.inj hFive
  exact ⟨hStart, (hBeyond (by omega)).1,
    hWithin (by omega)⟩

end Grammar

end Constituency
