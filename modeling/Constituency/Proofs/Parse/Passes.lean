import Constituency.Proofs.Grammar.Closure
import Constituency.Proofs.Parse.Extent
import Constituency.Proofs.Parse.Online
import Constituency.Proofs.Parse.Reporting
import Constituency.Proofs.Recognition.Foreseen

/-
  This file shows what a sweep needs its passes for. Without
  empty rules a complete item lies over a word, so that its
  partners end before the current position, where nothing
  changes any more. Then an item that has been visited stays
  closed, and the first pass over a position finds all that
  there is to be found; a second one finds nothing.

  Key definitions include:
    * `Sweep.Pass`
    * `Sweep.passesWithin`
    * `Sweep.passLog`
    * `Sweep.passesOver`
    * `Sweep.Thorough`
    * `Sweep.Idle`
    * `Sweep.Remaining`

  Main declarations:
    * `Grammar.YieldsOver.add_length_le`
    * `Sweep.isClosed_applySteps`
    * `Sweep.Thorough.visit`
    * `Sweep.passes_of_finished`
    * `Sweep.remaining_of_finished`
    * `Grammar.one_pass_suffices`
    * `Grammar.crossed_passes`
-/

namespace Constituency

variable {G : Grammar}

------------------------------------------------------------
-- Grammars without Empty Rules
------------------------------------------------------------

/- Without empty rules every symbol yields a word or more. -/
theorem Grammar.YieldsOver.add_length_le
    (hRules : ∀ r : G.RuleId, (G.rule r).rhs ≠ [])
    {words row : List Symbol}
    {i j : Nat}
    (hRow : G.YieldsOver words row i j) :
    i + row.length ≤ j := by
  induction hRow with
  | nil i => exact Nat.le_refl i
  | word _ _ _ ih =>
      rw [List.length_cons]
      omega
  | rule r _ _ ihDaughters ihRest =>
      have hDaughter :=
        List.length_pos_iff.mpr (hRules r)
      rw [List.length_cons]
      omega

/- A complete item is a rule with the dot behind it. -/
theorem ItemKey.IsSingle.exists_of_isComplete
    {key : ItemKey G}
    (hSingle : key.IsSingle)
    (hComplete : key.isComplete = true) :
    ∃ r i j, key = .single r (G.rule r).length ⟨i, j⟩ := by
  rcases hSingle with ⟨r, dot, span, rfl⟩
  simp only [ItemKey.isComplete, beq_iff_eq] at hComplete
  exact ⟨r, span.start, span.stop, by rw [hComplete]⟩

namespace Sweep

variable {plan : Plan}
variable {sweep : Sweep G}

/- Without empty rules a complete item has some length. -/
theorem start_lt_stop
    (hRules : ∀ r : G.RuleId, (G.rule r).rhs ≠ [])
    (hSteps : Step.combine ∉ plan.steps)
    (hSound : Sound plan sweep)
    {item : Item G}
    (hItem : item ∈ sweep.chart.items.toList)
    (hComplete : item.key.isComplete = true) :
    item.start < item.stop := by
  have hDeduction : Deduction _ _ _ _ := hSound
  have hSingle :=
    hDeduction.isSingle hSteps isSingle_seeds item hItem
  rcases hSingle.exists_of_isComplete hComplete with
    ⟨r, i, j, hKey⟩
  have hForeseen :=
    hDeduction.foreseen item hItem r _ ⟨i, j⟩ hKey
  have hBound :=
    hForeseen.constituent.add_length_le hRules
  rw [List.length_singleton] at hBound
  rw [Item.start, Item.stop, hKey]
  exact hBound

------------------------------------------------------------
-- Visits That Leave Nothing to Be Done
------------------------------------------------------------

/-
  What a step has delivered is all that follows by it, even
  when more items are known that end where the item ends or
  later: these are no partners of an item that has some
  length.
-/
theorem key_mem_of_delivered
    {words : List Symbol}
    {C : Chart G}
    (hChart : ∀ x ∈ C.items.toList, x.key.WellFormed)
    {item : Item G}
    (hItem : item.key.WellFormed)
    (hLength : item.key.isComplete = true →
      item.start < item.stop)
    {step : Step}
    (hStep : step ≠ .combine)
    {new later : List (Item G)}
    (hDelivery :
      Delivery (step.offers C words item) C.items.toList new)
    (hStops : ∀ x ∈ later, item.stop ≤ x.stop)
    {x : Item G}
    (hInfers :
      Infers words (C.items.toList ++ later) step item x) :
    x.key ∈ (C.items.toList ++ new).map Item.key := by
  apply step.key_mem_of_delivery hChart hItem hDelivery
  apply hInfers.of_endingAt hStep
  intro hComplete partner hPartner hStop
  rcases List.mem_append.mp hPartner with hOld | hLater
  · exact hOld
  · have hEnds := hStops partner hLater
    have hSpan := hLength hComplete
    omega

/-
  Once all steps have been applied to an item it is closed,
  though the steps themselves add items.
-/
theorem isClosed_applySteps
    {steps : List Step}
    (hSteps : Step.combine ∉ steps)
    {item : Item G}
    (hItem : item.key.WellFormed)
    (hLength : item.key.isComplete = true →
      item.start < item.stop)
    {after : Sweep G}
    (hChart : ∀ x ∈ sweep.chart.items.toList,
      x.key.WellFormed)
    (hApply :
      applySteps plan item sweep steps = .running after) :
    ∃ new,
      after.chart.items.toList =
          sweep.chart.items.toList ++ new ∧
        (∀ x ∈ new, item.stop ≤ x.stop) ∧
        IsClosed plan.words steps after.chart.items.toList
          item := by
  induction steps generalizing sweep with
  | nil =>
      cases hApply
      exact ⟨[], by simp, by simp, by simp [IsClosed]⟩
  | cons first steps ih =>
      have hFirst : first ≠ .combine := by
        rintro rfl
        exact hSteps List.mem_cons_self
      have hRest : Step.combine ∉ steps :=
        fun hLater => hSteps (List.mem_cons_of_mem _ hLater)
      have hSafe := first.safe_offers hChart hItem plan.words
      rcases sweep.chart.enterAll_of_ok hSafe.ok with
        ⟨chart, new, hEnter, hItems, hDelivery⟩
      rcases applySteps_cons plan steps hEnter hItems with
        ⟨middle, hMiddle, hAdmits⟩
      have hMiddleChart :
          ∀ x ∈ middle.chart.items.toList,
            x.key.WellFormed := by
        rw [hAdmits.items]
        exact List.forall_mem_append.mpr
          ⟨hChart, hSafe.wellFormed_of_delivery hDelivery⟩
      rw [hMiddle] at hApply
      rcases ih hRest hMiddleChart hApply with
        ⟨later, hLater, hLaterStops, hClosed⟩
      rw [hAdmits.items] at hLater
      have hInfers :=
        first.infers_of_delivery hChart hItem hDelivery
      have hStops : ∀ x ∈ new ++ later,
          item.stop ≤ x.stop :=
        List.forall_mem_append.mpr
          ⟨fun x hx => (hInfers x hx).stop_le_stop hFirst,
            hLaterStops⟩
      refine ⟨new ++ later, ?_, hStops, ?_⟩
      · rw [hLater, List.append_assoc]
      · intro step hStep x hFollows
        rcases List.mem_cons.mp hStep with rfl | hOther
        · rw [hLater, List.append_assoc] at hFollows
          have hKey := key_mem_of_delivered hChart hItem
            hLength hFirst hDelivery hStops hFollows
          rw [hLater, List.map_append]
          exact List.mem_append_left _ hKey
        · exact hClosed step hOther x hFollows

/-
  A pass over a position while it may find something: all
  that has been visited in it is closed.
-/
structure Thorough
    (plan : Plan)
    (sweep : Sweep G) : Prop where
  sound : Sound plan sweep
  position_le : sweep.position ≤ plan.words.length
  visited :
    ∀ item ∈ (sweep.chart.endingAt sweep.position).take
        sweep.visited,
      IsClosed plan.words plan.steps
        sweep.chart.items.toList item

/-
  A pass that finds nothing: all items that end at the
  position are closed.
-/
structure Idle
    (plan : Plan)
    (sweep : Sweep G) : Prop where
  sound : Sound plan sweep
  position_le : sweep.position ≤ plan.words.length
  added : sweep.added = 0
  settled : ∀ item ∈ sweep.chart.endingAt sweep.position,
    IsClosed plan.words plan.steps
      sweep.chart.items.toList item

/- A visit closes the item, and opens no other one. -/
theorem Thorough.visit
    (hRules : ∀ r : G.RuleId, (G.rule r).rhs ≠ [])
    (hSteps : Step.combine ∉ plan.steps)
    (hLimit : plan.limit = none)
    (hThorough : Thorough plan sweep)
    {item : Item G}
    (hNth :
      sweep.chart.nthEndingAt sweep.position sweep.visited =
        some item) :
    ∃ next, step plan sweep = .running next ∧
      next.position = sweep.position ∧
        Thorough plan next := by
  have hItem := mem_of_nthEndingAt hNth
  have hStop := stop_of_nthEndingAt hNth
  have hSound := hThorough.sound
  have hChart := hSound.wellFormed wellFormed_seeds
  rcases applySteps_of_sound (List.Subset.refl plan.steps)
      hSound hItem with
    ⟨after, added, hApply, hExpansion⟩
  rcases isClosed_applySteps hSteps (hChart item hItem)
      (start_lt_stop hRules hSteps hSound hItem) hChart
      hApply with
    ⟨new, hItems, hStops, hClosed⟩
  rcases step_of_running hLimit hNth hApply with
    ⟨next, hNext, hCounts⟩
  have hPosition : next.position = sweep.position := by
    rw [hCounts.position, hExpansion.position]
  refine ⟨next, hNext, hPosition, ?_, ?_, ?_⟩
  · unfold Sound
    rw [hCounts.chart]
    exact hExpansion.sound
  · rw [hPosition]
    exact hThorough.position_le
  · rw [hPosition, hCounts.chart, hCounts.visited,
      hExpansion.visited]
    rw [Chart.nthEndingAt_eq] at hNth
    have hRow := (List.getElem?_eq_some_iff.mp hNth).1
    intro x hx
    rw [Chart.endingAt_append hItems,
      List.take_append_of_le_length hRow, List.take_add_one,
      hNth, Option.toList_some, List.mem_append,
      List.mem_singleton] at hx
    rcases hx with hBefore | rfl
    -- What was visited before stays closed: the new items end
    -- at the position or behind it, where no partner of it ends.
    · have hKnown := Item.mem_endingAt_iff.mp
        (List.mem_of_mem_take hBefore)
      rw [hItems]
      apply isClosed_append hSteps
      · intro hComplete y hy
        have hEnds := hStops y hy
        have hSpan := start_lt_stop hRules hSteps hSound
          hKnown.1 hComplete
        omega
      · exact hThorough.visited x hBefore
    · exact hClosed

/- In an idle pass nothing comes of a visit. -/
theorem Idle.visit
    (hLimit : plan.limit = none)
    (hIdle : Idle plan sweep)
    {item : Item G}
    (hNth :
      sweep.chart.nthEndingAt sweep.position sweep.visited =
        some item) :
    ∃ next, step plan sweep = .running next ∧
      next.position = sweep.position ∧ Idle plan next := by
  have hChart := hIdle.sound.wellFormed wellFormed_seeds
  have hItem := mem_of_nthEndingAt hNth
  have hApply := applySteps_of_closed hChart
    (hChart item hItem)
    (hIdle.settled item (Item.mem_endingAt_iff.mpr
      ⟨hItem, stop_of_nthEndingAt hNth⟩))
  rcases step_of_running hLimit hNth hApply with
    ⟨next, hNext, hCounts⟩
  refine ⟨next, hNext, hCounts.position, ?_⟩
  constructor
  · unfold Sound
    rw [hCounts.chart]
    exact hIdle.sound
  · rw [hCounts.position]
    exact hIdle.position_le
  · rw [hCounts.added]
    exact hIdle.added
  · rw [hCounts.chart, hCounts.position]
    exact hIdle.settled

/- At its end a thorough pass has closed the position. -/
theorem Thorough.idle
    (hThorough : Thorough plan sweep)
    (hEnd :
      sweep.chart.nthEndingAt sweep.position sweep.visited =
        none) :
    Idle plan
      { sweep with
        visited := 0
        added := 0
        passes := sweep.passes + 1 } where
  sound := hThorough.sound
  position_le := hThorough.position_le
  added := rfl
  settled := by
    intro item hItem
    rw [Chart.nthEndingAt_eq] at hEnd
    apply hThorough.visited
    rw [List.take_of_length_le
      (List.getElem?_eq_none_iff.mp hEnd)]
    exact hItem

/- A pass over a new position has visited nothing yet. -/
theorem thorough_onward
    (hSound : Sound plan sweep)
    (hPosition : sweep.position < plan.words.length) :
    Thorough plan
      { sweep with
        position := sweep.position + 1
        visited := 0
        passes := sweep.passes + 1 } where
  sound := hSound
  position_le := hPosition
  visited := by simp

theorem thorough_begin
    (plan : Plan) :
    Thorough plan (begin G plan) where
  sound := (begin_spec plan).1
  position_le := Nat.zero_le _
  visited := by simp [begin]

------------------------------------------------------------
-- Passes of a Sweep
------------------------------------------------------------

/- A pass over a position, and what it admitted. -/
structure Pass where
  position : Nat
  added : Nat
deriving DecidableEq

/-
  The pass that a step ends: it does when there is nothing
  left to be visited.
-/
def ended
    (sweep : Sweep G) : List Pass :=
  match
    sweep.chart.nthEndingAt sweep.position sweep.visited
  with
  | some _ => []
  | none => [⟨sweep.position, sweep.added⟩]

/- The passes that are ended in a number of steps. -/
def passesWithin
    (plan : Plan) :
    Nat → Sweep G → List Pass
  | 0, _ => []
  | steps + 1, sweep =>
      ended sweep ++
        match step plan sweep with
        | .running next => passesWithin plan steps next
        | _ => []

/- All passes of a sweep, in order. -/
def passLog
    (G : Grammar)
    (plan : Plan) : List Pass :=
  passesWithin plan (budget G plan.words.length)
    (begin G plan)

/-
  One pass over a position that admits nothing, or one that
  admits something and a second one that does not.
-/
def passesAt
    (position count : Nat) : List Pass :=
  if count = 0 then [⟨position, 0⟩]
  else [⟨position, count⟩, ⟨position, 0⟩]

/-
  Such passes over one position after the other, of which
  the first ones admit the given numbers of items.
-/
def passesOver : Nat → List Nat → List Pass
  | _, [] => []
  | position, count :: counts =>
      passesAt position count ++
        passesOver (position + 1) counts

/- Each position costs a pass, and one more if need be. -/
theorem length_passesOver
    (position : Nat)
    (counts : List Nat) :
    (passesOver position counts).length =
      counts.length + counts.countP (0 < ·) := by
  induction counts generalizing position with
  | nil => rfl
  | cons count counts ih =>
      rw [passesOver, List.length_append, ih,
        List.length_cons, List.countP_cons]
      cases count with
      | zero => simp [passesAt]; omega
      | succ count => simp [passesAt]; omega

/- A visit ends no pass and begins none. -/
theorem passes_step_of_visit
    {item : Item G}
    (hNth :
      sweep.chart.nthEndingAt sweep.position sweep.visited =
        some item) :
    ended sweep = [] ∧
      (step plan sweep).state.passes = sweep.passes := by
  unfold ended step
  rw [hNth]
  exact ⟨rfl, passes_visit plan item sweep⟩

/- The end of a pass is followed by another one, or none. -/
theorem passes_step_of_end
    (plan : Plan)
    (hEnd :
      sweep.chart.nthEndingAt sweep.position sweep.visited =
        none) :
    ended sweep = [⟨sweep.position, sweep.added⟩] ∧
      ((∃ next, step plan sweep = .running next ∧
          next.passes = sweep.passes + 1) ∨
        step plan sweep = .finished sweep) := by
  refine ⟨by rw [ended, hEnd], ?_⟩
  unfold step
  rw [hEnd]
  simp only
  split
  · exact Or.inl ⟨_, rfl, rfl⟩
  · split
    · exact Or.inl ⟨_, rfl, rfl⟩
    · exact Or.inr rfl

/- The passes that a sweep counts are those it has ended. -/
theorem passes_of_finished
    (steps : Nat)
    {last : Sweep G}
    (hSound : Sound plan sweep)
    (hRun :
      Progress.iterate (step plan) steps sweep =
        .finished last) :
    last.passes + 1 =
      sweep.passes +
        (passesWithin plan steps sweep).length := by
  induction steps generalizing sweep with
  | zero => cases hRun
  | succ steps ih =>
      have hKept := sound_step hSound
      rw [Progress.iterate] at hRun
      rw [passesWithin, List.length_append]
      cases hNth :
          sweep.chart.nthEndingAt sweep.position
            sweep.visited with
      | some item =>
          rcases passes_step_of_visit hNth with
            ⟨hEnded, hPasses⟩
          rw [hEnded]
          cases hStep : step plan sweep with
          | running next =>
              rw [hStep] at hRun
              rw [hStep, Progress.state] at hKept hPasses
              have hRest := ih hKept hRun
              simp only [List.length_nil]
              omega
          | finished other =>
              have hEnd := (eq_of_step_finished hSound hStep).2.1
              rw [← Chart.nthEndingAt_eq, hNth] at hEnd
              cases hEnd
          | failed error other =>
              rw [hStep] at hRun
              cases hRun
      | none =>
          rcases passes_step_of_end plan hNth with
            ⟨hEnded, ⟨next, hStep, hPasses⟩ | hStep⟩
          · rw [hStep] at hRun
            rw [hStep, Progress.state] at hKept
            have hRest := ih hKept hRun
            rw [hEnded, hStep]
            simp only [List.length_singleton]
            omega
          · rw [hStep] at hRun
            cases hRun
            rw [hEnded, hStep]
            rfl

/-
  What is left of the passes from the first one over a
  position on, and from the second one on.
-/
def Remaining
    (plan : Plan)
    (steps : Nat)
    (sweep : Sweep G) : Prop :=
  (Thorough plan sweep →
    ∃ counts,
      counts.length + sweep.position =
          plan.words.length + 1 ∧
        passesWithin plan steps sweep =
          passesOver sweep.position counts) ∧
  (Idle plan sweep →
    ∃ counts,
      counts.length + sweep.position = plan.words.length ∧
        passesWithin plan steps sweep =
          ⟨sweep.position, 0⟩ ::
            passesOver (sweep.position + 1) counts)

namespace Remaining

variable {steps : Nat}

/- A visit leaves the passes that are left as they are. -/
theorem of_visit
    (hRules : ∀ r : G.RuleId, (G.rule r).rhs ≠ [])
    (hSteps : Step.combine ∉ plan.steps)
    (hLimit : plan.limit = none)
    (hLater : ∀ next, step plan sweep = .running next →
      Remaining plan steps next)
    {item : Item G}
    (hNth :
      sweep.chart.nthEndingAt sweep.position sweep.visited =
        some item) :
    Remaining plan (steps + 1) sweep := by
  have hLog :
      ∀ next, step plan sweep = .running next →
        passesWithin plan (steps + 1) sweep =
          passesWithin plan steps next := by
    intro next hNext
    rw [passesWithin, ended, hNth, hNext]
    rfl
  constructor
  · intro hThorough
    rcases hThorough.visit hRules hSteps hLimit hNth with
      ⟨next, hNext, hPosition, hKept⟩
    rw [hLog next hNext, ← hPosition]
    exact (hLater next hNext).1 hKept
  · intro hIdle
    rcases hIdle.visit hLimit hNth with
      ⟨next, hNext, hPosition, hKept⟩
    rw [hLog next hNext, ← hPosition]
    exact (hLater next hNext).2 hKept

/-
  After a pass that admits nothing, the passes over the
  positions behind it are left.
-/
theorem onward
    (hLater : ∀ next, step plan sweep = .running next →
      Remaining plan steps next)
    (hSound : Sound plan sweep)
    (hBound : sweep.position ≤ plan.words.length)
    (hAdded : sweep.added = 0)
    (hEnd :
      sweep.chart.nthEndingAt sweep.position sweep.visited =
        none) :
    ∃ counts,
      counts.length + sweep.position = plan.words.length ∧
        passesWithin plan (steps + 1) sweep =
          ⟨sweep.position, 0⟩ ::
            passesOver (sweep.position + 1) counts := by
  rw [passesWithin, ended, hEnd, hAdded]
  rcases Nat.lt_or_ge sweep.position plan.words.length with
    hPosition | hPosition
  · have hNext := step_onward hEnd hAdded hPosition
    rcases (hLater _ hNext).1
        (thorough_onward hSound hPosition) with
      ⟨counts, hLength, hLog⟩
    rw [hNext]
    refine ⟨counts, ?_, congrArg _ hLog⟩
    simp only at hLength
    omega
  · rw [step_of_end hEnd hAdded hPosition]
    refine ⟨[], ?_, rfl⟩
    rw [List.length_nil]
    omega

/- A pass that admits something is followed by an idle one. -/
theorem of_end
    (hLater : ∀ next, step plan sweep = .running next →
      Remaining plan steps next)
    (hEnd :
      sweep.chart.nthEndingAt sweep.position sweep.visited =
        none) :
    Remaining plan (steps + 1) sweep := by
  constructor
  · intro hThorough
    rcases Nat.eq_zero_or_pos sweep.added with
      hNone | hAdded
    · rcases onward hLater hThorough.sound
          hThorough.position_le hNone hEnd with
        ⟨counts, hLength, hLog⟩
      refine ⟨0 :: counts, ?_, hLog⟩
      rw [List.length_cons]
      omega
    · have hNext := step_again plan hEnd hAdded
      rcases (hLater _ hNext).2 (hThorough.idle hEnd) with
        ⟨counts, hLength, hLog⟩
      refine ⟨sweep.added :: counts, ?_, ?_⟩
      · rw [List.length_cons]
        simp only at hLength
        omega
      · rw [passesWithin, ended, hEnd, hNext, passesOver,
          passesAt, if_neg (Nat.ne_of_gt hAdded)]
        exact congrArg _ hLog
  · intro hIdle
    exact onward hLater hIdle.sound hIdle.position_le
      hIdle.added hEnd

end Remaining

/-
  A finished sweep has passed once or twice over each
  position that was left. The first pass over a position is
  thorough, so that a second one is idle.
-/
theorem remaining_of_finished
    (hRules : ∀ r : G.RuleId, (G.rule r).rhs ≠ [])
    (hSteps : Step.combine ∉ plan.steps)
    (hLimit : plan.limit = none)
    (steps : Nat)
    {last : Sweep G}
    (hRun :
      Progress.iterate (step plan) steps sweep =
        .finished last) :
    Remaining plan steps sweep := by
  induction steps generalizing sweep with
  | zero => cases hRun
  | succ steps ih =>
      have hLater :
          ∀ next, step plan sweep = .running next →
            Remaining plan steps next := by
        intro next hNext
        rw [Progress.iterate, hNext] at hRun
        exact ih hRun
      cases hNth :
          sweep.chart.nthEndingAt sweep.position
            sweep.visited with
      | some item =>
          exact .of_visit hRules hSteps hLimit hLater hNth
      | none => exact .of_end hLater hNth

end Sweep

------------------------------------------------------------
-- Parses
------------------------------------------------------------

namespace Grammar

variable {algorithm : Algorithm}

/-
  Without empty rules and without a limit, a sweep passes
  over each position in order, and once is enough: only if
  the first pass over a position admits items is there a
  second one, which admits none.
-/
theorem one_pass_suffices
    (hRules : ∀ r : G.RuleId, (G.rule r).rhs ≠ [])
    (hAlgorithm : algorithm ≠ .headCorner)
    (start : Symbol)
    (words : List Symbol) :
    let n := words.length
    let log :=
      Sweep.passLog G ⟨words, start, algorithm.steps, none⟩
    ∃ parse counts,
      (G.parse algorithm start none words).result =
          .ok parse ∧
        counts.length = n + 1 ∧
        log = Sweep.passesOver 0 counts ∧
        parse.passes = log.length ∧
        parse.passes = n + 1 + counts.countP (0 < ·) ∧
        parse.passes ≤ 2 * (n + 1) := by
  intro n log
  have hSteps := combine_not_mem_steps hAlgorithm
  rcases @Sweep.run_finishes G
      ⟨words, start, algorithm.steps, none⟩ hSteps rfl with
    ⟨last, hRun, _⟩
  have hFinishes :
      G.FinishesWith algorithm start words last.chart
        last.passes :=
    (finishesWith_sweep_iff hAlgorithm).mpr
      ⟨last, hRun, rfl, rfl⟩
  have hBegin := @Sweep.thorough_begin G
    ⟨words, start, algorithm.steps, none⟩
  have hCount :=
    Sweep.passes_of_finished _ hBegin.sound hRun
  rcases (Sweep.remaining_of_finished hRules hSteps rfl _
      hRun).1 hBegin with
    ⟨counts, hLength, hLog⟩
  have hPasses : last.passes = log.length := by
    change last.passes + 1 = 1 + log.length at hCount
    omega
  have hTotal :
      last.passes = n + 1 + counts.countP (0 < ·) := by
    rw [hPasses]
    change _ = n + 1 at hLength
    rw [← hLength]
    exact (congrArg List.length hLog).trans
      (Sweep.length_passesOver 0 counts)
  have hMost := @List.countP_le_length Nat (0 < ·) counts
  refine ⟨_, counts, hFinishes.result_eq, hLength, hLog,
    hPasses, hTotal, ?_⟩
  change counts.length = n + 1 at hLength
  simp only
  omega

/-
  With one word both positions are passed over twice, so
  that the bound is reached.
-/
theorem crossed_passes :
    (∀ r : crossed.RuleId, (crossed.rule r).rhs ≠ []) ∧
      (∃ parse counts,
        (crossed.parse .earley "B" none ["b"]).result =
            .ok parse ∧
          Sweep.passLog crossed
              ⟨["b"], "B", Algorithm.earley.steps, none⟩ =
            Sweep.passesOver 0 counts ∧
          counts.length = 2 ∧
          counts.countP (0 < ·) = 2 ∧
          parse.passes = 4) ∧
      ∃ parse,
        (crossed.parse .leftCorner "B" none ["b"]).result =
            .ok parse ∧
          parse.passes ≤ 4 := by
  have hRules :
      ∀ r : crossed.RuleId, (crossed.rule r).rhs ≠ [] := by
    decide
  refine ⟨hRules, ?_, ?_⟩
  · have hPasses :
        ((crossed.parse .earley "B" none ["b"]).result.map
          Parse.passes).toOption = some 4 := by
      decide +kernel
    rcases @one_pass_suffices crossed .earley hRules
        (by decide) "B" ["b"] with
      ⟨parse, counts, hParse, hLength, hLog, _, hTotal, _⟩
    rw [hParse] at hPasses
    have hFour : parse.passes = 4 := Option.some.inj hPasses
    refine ⟨parse, counts, hParse, hLog, hLength, ?_, hFour⟩
    rw [hFour] at hTotal
    simp only [List.length_singleton] at hTotal
    omega
  · rcases @one_pass_suffices crossed .leftCorner
        hRules (by decide) "B" ["b"] with
      ⟨parse, _, hParse, _, _, _, _, hBound⟩
    exact ⟨parse, hParse, hBound⟩

end Grammar

end Constituency
