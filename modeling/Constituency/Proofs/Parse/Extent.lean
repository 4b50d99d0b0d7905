import Constituency.Proofs.Chart.Calls
import Constituency.Proofs.Parse.History
import Constituency.Proofs.Parse.Outcome
import Constituency.Proofs.Text.Sorted
import Mathlib.Data.Finset.Card

/-
  This file bounds what parsing takes: the positions that
  the chart knows of, the items in it and the passes over
  it. A pass is begun because a position is left behind or
  because the pass before it found an item.

  Key definitions include:
    * `Sweep.Tally`
    * `Saturation.Tally`

  Main declarations:
    * `Grammar.length_symbols`
    * `Grammar.positions_of_parse`
    * `Grammar.size_le`
    * `Grammar.passes_le`
    * `Grammar.parse_extent`
    * `Grammar.repeated_extent`
-/

namespace Constituency

variable {G : Grammar}

------------------------------------------------------------
-- Positions
------------------------------------------------------------

namespace Grammar

variable {algorithm : Algorithm}
variable {start : Symbol}
variable {words : List Symbol}
variable {limit : Option Nat}

/- At any time the chart has grown from an empty one. -/
theorem grows_chartAfter
    (algorithm : Algorithm)
    (start : Symbol)
    (limit : Option Nat)
    (words : List Symbol)
    (steps : Nat) :
    (Chart.new G words.length).Grows
      (G.chartAfter algorithm start limit words steps) := by
  have hSweep :
      (Chart.new G words.length).Grows
        (Progress.iterate
          (Sweep.step ⟨words, start, algorithm.steps, limit⟩)
          steps
          (Sweep.begin G
            ⟨words, start, algorithm.steps,
              limit⟩)).state.chart := by
    apply Progress.iterate_keeps
      (P := fun sweep : Sweep G =>
        (Chart.new G words.length).Grows sweep.chart)
    · intro sweep hSweep
      exact hSweep.trans (Sweep.advances_step _ sweep).chart
    · rw [Sweep.chart_begin]
      exact Chart.grows_enterAll _ _
  cases algorithm with
  | headCorner =>
      apply Progress.iterate_keeps
        (P := fun state : Saturation G =>
          (Chart.new G words.length).Grows state.chart)
      · intro state hState
        exact hState.trans
          (Saturation.advances_step _ state).chart
      · exact .refl
  | earley => exact hSweep
  | leftCorner => exact hSweep

/- No parse ever looks beyond the words. -/
theorem positions_of_parse
    {parse : Parse G}
    (hParse :
      (G.parse algorithm start limit words).result =
        .ok parse) :
    parse.chart.positions = words.length + 1 := by
  rcases parse_deduction hParse with ⟨_, _, _, hItems⟩
  rcases exists_chartAfter_of_parse hParse with
    ⟨_, _, _, steps, hChart⟩
  have hGrows :=
    grows_chartAfter (G := G) algorithm start limit words
      steps
  rw [← hChart] at hGrows
  have hKnows : parse.chart.KnowsUpTo words.length :=
    hGrows.keeps (fun _ item hC => hC.enter item) .new
  exact hKnows.positions_eq
    (hItems.stop_le Algorithm.wellFormed_seeds
      Algorithm.stop_seeds)

------------------------------------------------------------
-- Items
------------------------------------------------------------

/- The symbols of a grammar are listed once each. -/
theorem length_symbols
    (G : Grammar) :
    G.symbols.length =
      (G.rules.toList.flatMap
        (fun rule => rule.lhs :: rule.rhs)).toFinset.card := by
  unfold symbols
  rw [← List.toFinset_card_of_nodup
    (Text.nodup_sortDistinct _)]
  congr 1
  ext symbol
  simp only [List.mem_toFinset, Text.mem_sortDistinct_iff]

/-
  The chart is no larger than the spans of the words allow:
  over each span there is room for every rule with every dot
  or, for head-corner recognition, for every rule with two
  dots, every completed rule and every symbol demanded.
-/
theorem size_le
    (hStart : G.isNonterminal start = true)
    {C : Chart G}
    (hItems :
      Deduction words algorithm.steps
        (algorithm.seeds G start words) C.items.toList) :
    let n := words.length
    (algorithm ≠ .headCorner →
      C.size ≤ (n + 1) * (n + 2) / 2 *
        G.total (fun rule => rule.length + 1)) ∧
    (algorithm = .headCorner →
      C.size ≤ (n + 1) * (n + 2) / 2 *
        (G.total (fun rule =>
            (rule.length + 1) * (rule.length + 2) / 2) +
          G.rules.size +
          (G.rules.toList.flatMap (fun rule =>
            rule.lhs :: rule.rhs)).toFinset.card)) := by
  have hStops := hItems.stop_le Algorithm.wellFormed_seeds
    Algorithm.stop_seeds
  have hWellFormed :=
    hItems.wellFormed Algorithm.wellFormed_seeds
  have hSize : C.size = C.items.toList.length :=
    Array.length_toList.symm
  intro n
  rw [hSize]
  constructor
  · intro hAlgorithm
    rw [seeds_eq_sweep hAlgorithm] at hItems
    exact Sweep.length_le_capacity C.nodup_keys hStops
      hWellFormed
      (hItems.isSingle (combine_not_mem_steps hAlgorithm)
        Sweep.isSingle_seeds)
  · intro hAlgorithm
    subst hAlgorithm
    rw [← length_symbols]
    exact Saturation.length_le_capacity C.nodup_keys hStops
      hWellFormed
      (hItems.not_isSingle (Saturation.not_isSingle_seed _))
      (@Saturation.knownSymbol_of_deduction G
        ⟨words, start, none⟩ hStart _ hItems)

end Grammar

------------------------------------------------------------
-- Passes of a Sweep
------------------------------------------------------------

namespace Sweep

variable {plan : Plan}

theorem passes_applySteps
    (plan : Plan)
    (item : Item G)
    (sweep : Sweep G)
    (steps : List Step) :
    (applySteps plan item sweep steps).state.passes =
      sweep.passes := by
  induction steps generalizing sweep with
  | nil => rfl
  | cons step steps ih =>
      simp only [applySteps]
      split
      · rfl
      · exact ih sweep
      · rw [ih]

/- Visits do not begin a pass. -/
theorem passes_visit
    (plan : Plan)
    (item : Item G)
    (sweep : Sweep G) :
    (visit plan item sweep).state.passes = sweep.passes := by
  have hApply :=
    passes_applySteps plan item sweep plan.steps
  unfold visit
  split
  · rename_i error after hAfter
    rw [hAfter] at hApply
    exact hApply
  · rename_i after hAfter
    rw [hAfter] at hApply
    exact hApply
  · rename_i after hAfter
    rw [hAfter] at hApply
    rcases report_eq plan item after with
      ⟨reported, events, hReport⟩
    split
    · exact hApply
    · rw [hReport]
      exact hApply

/-
  All passes but the first one were begun at a new position
  or after a pass that admitted something; what the current
  pass has admitted has not been counted for that yet.
-/
structure Tally
    (plan : Plan)
    (sweep : Sweep G) : Prop where
  position_le : sweep.position ≤ plan.words.length
  passes_le : sweep.passes + sweep.added ≤
    sweep.position + 1 + sweep.chart.items.toList.length

/- What a visit admits is counted on both sides. -/
theorem Tally.of_visit
    {sweep next : Sweep G}
    (hTally : Tally plan sweep)
    {new : List (Item G)}
    (hItems : next.chart.items.toList =
      sweep.chart.items.toList ++ new)
    (hAdded : next.added = sweep.added + new.length)
    (hPosition : next.position = sweep.position)
    (hPasses : next.passes = sweep.passes) :
    Tally plan next where
  position_le := by
    rw [hPosition]
    exact hTally.position_le
  passes_le := by
    have hBound := hTally.passes_le
    rw [hItems, hAdded, hPosition, hPasses,
      List.length_append]
    omega

/- One step keeps the tally. -/
theorem tally_step
    {sweep : Sweep G}
    (hSound : Sound plan sweep)
    (hTally : Tally plan sweep) :
    Tally plan (step plan sweep).state := by
  have hPosition := hTally.position_le
  have hBound := hTally.passes_le
  unfold step
  split
  · rename_i item hVisited
    have hItem := mem_of_nthEndingAt hVisited
    rcases visit_of_sound hSound hItem with
      ⟨after, new, hExpansion, hVisit⟩
    rcases report_eq plan item after with
      ⟨reported, events, hReport⟩
    have hPasses := passes_visit plan item sweep
    rw [hVisit, hReport] at hPasses ⊢
    split at hPasses
    · exact hTally.of_visit hExpansion.items
        hExpansion.added hExpansion.position hPasses
    · exact hTally.of_visit hExpansion.items
        hExpansion.added hExpansion.position hPasses
  · split
    · rename_i hAdded
      refine ⟨hPosition, ?_⟩
      simp only [Progress.state]
      omega
    · split
      · rename_i hBefore
        refine ⟨hBefore, ?_⟩
        simp only [Progress.state]
        omega
      · exact hTally

/- A finished sweep has not begun many passes. -/
theorem passes_le
    {last : Sweep G}
    (hRun : run G plan = .finished last) :
    last.passes ≤ plan.words.length + 1 + last.chart.size := by
  have hBoth :
      Sound plan (run G plan).state ∧
        Tally plan (run G plan).state := by
    apply Progress.iterate_keeps
      (P := fun sweep : Sweep G =>
        Sound plan sweep ∧ Tally plan sweep)
    · intro sweep hSweep
      exact ⟨sound_step hSweep.1,
        tally_step hSweep.1 hSweep.2⟩
    · refine ⟨(begin_spec plan).1, Nat.zero_le _, ?_⟩
      simp only [begin]
      omega
  rw [hRun] at hBoth
  have hPosition := hBoth.2.position_le
  have hBound := hBoth.2.passes_le
  simp only [Progress.state, Array.length_toList]
    at hPosition hBound
  unfold Chart.size
  omega

end Sweep

------------------------------------------------------------
-- Passes of Saturation
------------------------------------------------------------

namespace Saturation

variable {plan : Plan}

theorem passes_combine
    (plan : Plan)
    (item : Item G)
    (state : Saturation G) :
    (combine plan item state).state.passes =
      state.passes := by
  simp only [combine]
  split
  · rfl
  · rfl
  · rfl

theorem passes_settle
    (plan : Plan)
    (item : Item G)
    (state : Saturation G) :
    (settle plan item state).state.passes =
      state.passes := by
  simp only [settle]
  split
  · rfl
  · exact passes_combine plan item _

/-
  Each pass but the first one was begun after one that
  queued something. So there are no more passes than items,
  those that wait included; those queued by a replay have
  not been counted for that yet.
-/
structure Tally
    (state : Saturation G) : Prop where
  waiting : state.replay = none →
    state.passes ≤ state.view.length
  replaying : ∀ rest, state.replay = some rest →
    state.agenda.queue.length = state.added ∧
      state.passes ≤ state.chart.items.toList.length

namespace Tally

variable {state : Saturation G}

/- An item that goes to the chart is still counted. -/
theorem settle
    (hSound : Sound plan state)
    (hTally : Tally state)
    {item : Item G}
    {agenda : Agenda G}
    (hReplay : state.replay = none)
    (hPop : state.agenda.pop? = some (item, agenda)) :
    Tally (Saturation.settle plan item
      { state with agenda := agenda }).state := by
  rcases settle_of_sound hSound hReplay hPop with
    ⟨chart, after, new, hItems, _, hExpansion, hSettle⟩
  have hQueue := state.agenda.pop?_eq_some hPop
  have hPasses :=
    passes_settle plan item
      { state with agenda := agenda }
  have hBound := hTally.waiting hReplay
  have hView :
      (view { state with
        chart := chart, agenda := agenda }).length =
          state.view.length := by
    unfold view
    simp only [hItems, hQueue, List.length_append,
      List.length_cons, List.length_nil]
    omega
  rw [hSettle] at hPasses ⊢
  split at hPasses
  · refine ⟨fun _ => ?_, ?_⟩
    · simp only [Progress.state, hView]
      exact hBound
    · intro rest hRest
      exact absurd (hReplay.symm.trans hRest)
        (Option.some_ne_none rest).symm
  · have hNone : after.replay = none :=
      hExpansion.replay.trans hReplay
    simp only [Progress.state] at hPasses ⊢
    refine ⟨fun _ => ?_, ?_⟩
    · rw [hExpansion.view, List.length_append, hView,
        hPasses]
      omega
    · intro rest hRest
      exact absurd (hNone.symm.trans hRest)
        (Option.some_ne_none rest).symm

/- What a replay queues is counted twice. -/
theorem replay
    (hSound : Sound plan state)
    (hTally : Tally state)
    {item : Item G}
    {items : List (Item G)}
    (hReplay : state.replay = some (item :: items)) :
    Tally (combine plan item
      { state with replay := some items }).state := by
  have hItem : item ∈ state.chart.items.toList :=
    hSound.replayed _ hReplay List.mem_cons_self
  rcases hTally.replaying _ hReplay with ⟨hQueue, hBound⟩
  have hPasses :=
    passes_combine plan item
      { state with replay := some items }
  rcases @combine_of_wellFormed G plan
      { state with replay := some items } hSound.wellFormed
      item (hSound.wellFormed item hItem) with
    ⟨after, new, hCombine, hExpansion⟩
  rw [hCombine] at hPasses ⊢
  simp only [Progress.state] at hPasses ⊢
  have hLater : after.replay = some items :=
    hExpansion.replay
  refine ⟨?_, fun _ _ => ⟨?_, ?_⟩⟩
  · intro hNone
    exact absurd (hLater.symm.trans hNone)
      (Option.some_ne_none items)
  · rw [hExpansion.queue, hExpansion.added,
      List.length_append]
    exact congrArg (· + new.length) hQueue
  · rw [hExpansion.chart, hPasses]
    exact hBound

end Tally

/- One step keeps the tally. -/
theorem tally_step
    {state : Saturation G}
    (hSound : Sound plan state)
    (hTally : Tally state) :
    Tally (step plan state).state := by
  unfold step
  split
  · rename_i hReplay
    split
    · rename_i item agenda hPop
      exact hTally.settle hSound hReplay hPop
    · rename_i hPop
      have hQueue := state.agenda.pop?_eq_none_iff.mp hPop
      have hBound := hTally.waiting hReplay
      rw [view, hQueue, List.append_nil] at hBound
      refine ⟨fun hNone => ?_, fun _ _ => ⟨?_, hBound⟩⟩
      · cases hNone
      · exact congrArg List.length hQueue
  · rename_i item items hReplay
    exact hTally.replay hSound hReplay
  · rename_i hReplay
    rcases hTally.replaying _ hReplay with ⟨hQueue, hBound⟩
    split
    · rename_i hAdded
      refine ⟨fun _ => ?_, fun _ hRest => ?_⟩
      · simp only [Progress.state, view, List.length_append]
        omega
      · cases hRest
    · exact hTally

theorem combine_ne_finished
    (item : Item G)
    (state last : Saturation G) :
    combine plan item state ≠ .finished last := by
  intro hLast
  simp only [combine] at hLast
  split at hLast
  · cases hLast
  · cases hLast
  · cases hLast

theorem settle_ne_finished
    (item : Item G)
    (state last : Saturation G) :
    settle plan item state ≠ .finished last := by
  intro hLast
  simp only [settle] at hLast
  split at hLast
  · cases hLast
  · exact combine_ne_finished item _ last hLast

/-
  Only a replay that has come to its end and has queued
  nothing is the last one.
-/
theorem replay_of_step_finished
    {state last : Saturation G}
    (hStep : step plan state = .finished last) :
    last.replay = some [] ∧ last.added = 0 := by
  unfold step at hStep
  split at hStep
  · split at hStep
    · exact absurd hStep (settle_ne_finished _ _ _)
    · cases hStep
  · exact absurd hStep (combine_ne_finished _ _ _)
  · rename_i hReplay
    split at hStep
    · cases hStep
    · rename_i hAdded
      cases hStep
      exact ⟨hReplay, Nat.eq_zero_of_not_pos hAdded⟩

/- Saturation that is finished has not begun many passes. -/
theorem passes_le
    {last : Saturation G}
    (hRun : run G plan = .finished last) :
    last.passes ≤ last.chart.size := by
  have hKeeps :
      ∀ state : Saturation G,
        Sound plan state ∧ Tally state →
          Sound plan (step plan state).state ∧
            Tally (step plan state).state :=
    fun _ hState => ⟨sound_step hState.1,
      tally_step hState.1 hState.2⟩
  have hBegin : Tally (begin G plan) := by
    refine ⟨fun _ => ?_, fun _ hRest => ?_⟩
    · rw [view_begin]
      exact Nat.le_refl 1
    · cases hRest
  rcases Progress.exists_of_iterate_finished hKeeps
      ⟨sound_begin plan, hBegin⟩ hRun with
    ⟨before, hBefore, hStep⟩
  -- The last state has its replay behind it.
  have hLast := (hKeeps before hBefore).2
  rw [hStep] at hLast
  rcases hLast.replaying _ (replay_of_step_finished hStep).1
    with ⟨_, hBound⟩
  simpa [Chart.size, Progress.state] using hBound

end Saturation

------------------------------------------------------------
-- Extent
------------------------------------------------------------

namespace Grammar

variable {algorithm : Algorithm}
variable {start : Symbol}
variable {words : List Symbol}

/- Work that comes to its end has not begun many passes. -/
theorem passes_le
    {C : Chart G}
    {passes : Nat}
    (hFinishes :
      G.FinishesWith algorithm start words C passes) :
    (algorithm ≠ .headCorner →
      passes ≤ words.length + 1 + C.size) ∧
    (algorithm = .headCorner → passes ≤ C.size) := by
  constructor
  · intro hAlgorithm
    rcases (finishesWith_sweep_iff hAlgorithm).mp hFinishes
      with ⟨last, hRun, hChart, hPasses⟩
    rw [← hChart, ← hPasses]
    exact Sweep.passes_le hRun
  · intro hAlgorithm
    subst hAlgorithm
    rcases hFinishes with ⟨last, hRun, hChart, hPasses⟩
    rw [← hChart, ← hPasses]
    exact Saturation.passes_le hRun

/-
  Without a limit the work comes to its end and gives a
  parse, of which chart and passes are bounded in terms of
  the words and the grammar.
-/
theorem parse_extent
    (hStart : G.isNonterminal start = true)
    (words : List Symbol)
    (algorithm : Algorithm) :
    let n := words.length
    let T := (n + 1) * (n + 2) / 2
    ∃ parse,
      G.FinishesWith algorithm start words parse.chart
          parse.passes ∧
        (G.parse algorithm start none words).result =
          .ok parse ∧
        parse.chart.positions = n + 1 ∧
        (algorithm ≠ .headCorner →
          parse.chart.size ≤
              T * G.total (fun rule => rule.length + 1) ∧
            parse.passes ≤ n + 1 + parse.chart.size) ∧
        (algorithm = .headCorner →
          parse.chart.size ≤
              T * (G.total (fun rule =>
                  (rule.length + 1) *
                    (rule.length + 2) / 2) +
                G.rules.size +
                (G.rules.toList.flatMap (fun rule =>
                  rule.lhs :: rule.rhs)).toFinset.card) ∧
            parse.passes ≤ parse.chart.size) := by
  intro n T
  rcases exists_finishesWith algorithm hStart words with
    ⟨C, passes, hFinishes, hClosure⟩
  rcases size_le hStart hClosure.deduction with
    ⟨hSweepSize, hCornerSize⟩
  rcases passes_le hFinishes with
    ⟨hSweepPasses, hCornerPasses⟩
  exact ⟨⟨algorithm, start, words, C, passes⟩, hFinishes,
    hFinishes.result_eq,
    positions_of_parse hFinishes.result_eq,
    fun hOther => ⟨hSweepSize hOther, hSweepPasses hOther⟩,
    fun hSame => ⟨hCornerSize hSame, hCornerPasses hSame⟩⟩

/- One word, two rules and two symbols leave little room. -/
theorem repeated_extent :
    repeated.isNonterminal "S" = true ∧
      (∃ parse,
        (repeated.parse .earley "S" none ["b"]).result =
            .ok parse ∧
          parse.chart.positions = 2 ∧
            parse.chart.size ≤ 12 ∧ parse.passes ≤ 14) ∧
      ∃ parse,
        (repeated.parse .headCorner "S" none ["b"]).result =
            .ok parse ∧
          parse.chart.positions = 2 ∧
            parse.chart.size ≤ 33 ∧ parse.passes ≤ 33 := by
  have hStart : repeated.isNonterminal "S" = true := by
    decide
  refine ⟨hStart, ?_, ?_⟩
  · rcases parse_extent hStart ["b"] .earley with
      ⟨parse, _, hParse, hPositions, hSweep, _⟩
    rcases hSweep (by decide) with ⟨hSize, hPasses⟩
    have hRoom :
        (["b"].length + 1) * (["b"].length + 2) / 2 *
          repeated.total (fun rule => rule.length + 1) =
            12 := by decide
    rw [hRoom] at hSize
    refine ⟨parse, hParse, hPositions, hSize, ?_⟩
    simp only [List.length_singleton] at hPasses
    omega
  · rcases parse_extent hStart ["b"] .headCorner with
      ⟨parse, _, hParse, hPositions, _, hCorner⟩
    rcases hCorner rfl with ⟨hSize, hPasses⟩
    have hRoom :
        (["b"].length + 1) * (["b"].length + 2) / 2 *
          (repeated.total (fun rule =>
              (rule.length + 1) * (rule.length + 2) / 2) +
            repeated.rules.size +
            (repeated.rules.toList.flatMap (fun rule =>
              rule.lhs :: rule.rhs)).toFinset.card) =
            33 := by decide
    rw [hRoom] at hSize
    exact ⟨parse, hParse, hPositions, hSize,
      Nat.le_trans hPasses hSize⟩

end Grammar

end Constituency
