import Constituency.Proofs.Inference.Early
import Constituency.Proofs.Inference.Safety
import Constituency.Proofs.Parse.Outcome

/-
  This file shows that the sweeping algorithms are online:
  further words do not change what is found up to the end of
  the first ones. The sweep over the longer input goes along
  with the sweep over the first words until that is
  finished; from then on it adds only items that end later.

  Key definitions include:
    * `Sweep.Plan.extend`
    * `Sweep.Agrees`
    * `Sweep.Tracks`

  Main declarations:
    * `Sweep.Agrees.apply`
    * `Sweep.applySteps_agrees`
    * `Sweep.tracks_step`
    * `Sweep.run_online`
    * `Grammar.sweep_online`
-/

namespace Constituency

variable {G : Grammar}

namespace Sweep

variable {plan : Plan}
variable {more : List Symbol}

------------------------------------------------------------
-- Two Sweeps Side by Side
------------------------------------------------------------

/- The same plan for an input that goes on. -/
def Plan.extend
    (plan : Plan)
    (more : List Symbol) : Plan :=
  { plan with words := plan.words ++ more }

theorem Plan.length_le_extend
    (plan : Plan)
    (more : List Symbol) :
    plan.words.length ≤ (plan.extend more).words.length := by
  unfold extend
  rw [List.length_append]
  exact Nat.le_add_right _ _

/-
  The longer sweep is at the same position and has the same
  items up to the end of the first words. It may have
  admitted more, but not before that end.
-/
structure Agrees
    (plan : Plan)
    (short long : Sweep G) : Prop where
  items :
    long.chart.endingBy plan.words.length =
      short.chart.items.toList
  position : long.position = short.position
  added_le : short.added ≤ long.added
  added_eq : short.position < plan.words.length →
    long.added = short.added

/-
  The longer sweep goes along with the shorter one, or that
  one is finished and its items are no longer added to.
-/
inductive Tracks
    (plan : Plan)
    (short long : Sweep G) : Prop where
  | together
      (hAgrees : Agrees plan short long)
      (hVisited : long.visited = short.visited)
  | behind
      (hItems :
        long.chart.endingBy plan.words.length =
          short.chart.items.toList)
      (hPosition : plan.words.length ≤ long.position)
      (hFinished : step plan short = .finished short)

------------------------------------------------------------
-- Applying Steps
------------------------------------------------------------

/- What one step of a visit does to a sweep. -/
structure Admits
    (before after : Sweep G)
    (new : List (Item G)) : Prop where
  items : after.chart.items.toList =
    before.chart.items.toList ++ new
  added : after.added = before.added + new.length
  position : after.position = before.position
  visited : after.visited = before.visited

/- Applying steps begins with admitting the first offers. -/
theorem applySteps_cons
    (plan : Plan)
    {item : Item G}
    {sweep : Sweep G}
    {first : Step}
    (steps : List Step)
    {chart : Chart G}
    {new : List (Item G)}
    (hEnter :
      sweep.chart.enterAll
          (first.offers sweep.chart plan.words item) =
        (chart, .ok new.length))
    (hItems : chart.items.toList =
      sweep.chart.items.toList ++ new) :
    ∃ middle,
      applySteps plan item sweep (first :: steps) =
          applySteps plan item middle steps ∧
        Admits sweep middle new := by
  cases new with
  | nil =>
      refine ⟨sweep, ?_, ?_⟩
      · simp only [applySteps, hEnter, List.length_nil]
      · constructor <;> simp
  | cons x new =>
      refine
        ⟨{ sweep with
            chart := chart
            added := sweep.added + (x :: new).length
            events :=
              sweep.events.push
                (.applied first item (x :: new).length) },
          ?_, ⟨hItems, rfl, rfl, rfl⟩⟩
      simp only [applySteps, hEnter, List.length_cons]

/- Both sweeps admit the same items up to the cut. -/
theorem Agrees.admit
    {short long shorter longer : Sweep G}
    {new : List (Item G)}
    (hAgrees : Agrees plan short long)
    (hShort :
      Admits short shorter
        (new.filter (Item.endsBy plan.words.length)))
    (hLong : Admits long longer new)
    (hEarly : short.position < plan.words.length →
      ∀ x ∈ new, x.stop ≤ plan.words.length) :
    Agrees plan shorter longer where
  items := by
    unfold Chart.endingBy
    rw [hLong.items, List.filter_append, hShort.items,
      ← hAgrees.items]
    rfl
  position := by
    rw [hLong.position, hShort.position, hAgrees.position]
  added_le := by
    have hLength := List.length_filter_le
      (Item.endsBy plan.words.length) new
    have hBefore := hAgrees.added_le
    rw [hLong.added, hShort.added]
    omega
  added_eq := by
    intro hPosition
    rw [hShort.position] at hPosition
    have hAll :
        new.filter (Item.endsBy plan.words.length) = new :=
      List.filter_eq_self.mpr (fun x hx =>
        decide_eq_true (hEarly hPosition x hx))
    rw [hLong.added, hShort.added, hAll,
      hAgrees.added_eq hPosition]

/-
  Sweeps that agree still do so when one step has been
  applied to the same item. What the step offers to the
  shorter one is what it offers to the longer one up to the
  cut.
-/
theorem Agrees.apply
    {first : Step}
    (hFirst : first ≠ .combine)
    {short long : Sweep G}
    (hAgrees : Agrees plan short long)
    (hChart : ∀ x ∈ long.chart.items.toList,
      x.key.WellFormed)
    {item : Item G}
    (hItem : item.key.WellFormed)
    (hStop : item.stop = short.position)
    (hPosition : short.position ≤ plan.words.length)
    (steps : List Step) :
    ∃ shorter longer new,
      applySteps plan item short (first :: steps) =
          applySteps plan item shorter steps ∧
        applySteps (plan.extend more) item long
            (first :: steps) =
          applySteps (plan.extend more) item longer steps ∧
        Agrees plan shorter longer ∧
        (∀ x ∈ longer.chart.items.toList,
          x.key.WellFormed) ∧
        Admits short shorter
          (new.filter (Item.endsBy plan.words.length)) ∧
        Admits long longer new := by
  have hSafe :=
    first.safe_offers hChart hItem (plan.words ++ more)
  rcases Chart.enterAll_endingBy hSafe.ok hAgrees.items with
    ⟨E, F, new, hLong, hF, hDelivery, hShort, hE⟩
  have hInfers :=
    first.infers_of_delivery hChart hItem hDelivery
  rw [Step.endingBy_offers hFirst hChart hAgrees.items hItem
    (by rwa [hStop])] at hShort
  rcases applySteps_cons plan steps hShort hE with
    ⟨shorter, hShorter, hShortAdmits⟩
  rcases applySteps_cons (plan.extend more) steps hLong hF
    with ⟨longer, hLonger, hLongAdmits⟩
  refine ⟨shorter, longer, new, hShorter, hLonger, ?_, ?_,
    hShortAdmits, hLongAdmits⟩
  · apply hAgrees.admit hShortAdmits hLongAdmits
    intro hBefore x hx
    have hNext := (hInfers x hx).stop_le_succ hFirst
    omega
  · rw [hLongAdmits.items]
    exact List.forall_mem_append.mpr
      ⟨hChart, hSafe.wellFormed_of_delivery hDelivery⟩

/- They still do so when all steps have been applied. -/
theorem applySteps_agrees
    {steps : List Step}
    (hSteps : Step.combine ∉ steps)
    {short long : Sweep G}
    (hAgrees : Agrees plan short long)
    (hChart : ∀ x ∈ long.chart.items.toList,
      x.key.WellFormed)
    {item : Item G}
    (hItem : item.key.WellFormed)
    (hStop : item.stop = short.position)
    (hPosition : short.position ≤ plan.words.length) :
    ∃ shorter longer,
      applySteps plan item short steps = .running shorter ∧
        applySteps (plan.extend more) item long steps =
          .running longer ∧
        Agrees plan shorter longer ∧
        shorter.visited = short.visited ∧
        longer.visited = long.visited := by
  induction steps generalizing short long with
  | nil => exact ⟨short, long, rfl, rfl, hAgrees, rfl, rfl⟩
  | cons first steps ih =>
      have hFirst : first ≠ .combine := by
        rintro rfl
        exact hSteps List.mem_cons_self
      have hRest : Step.combine ∉ steps :=
        fun hLater => hSteps (List.mem_cons_of_mem _ hLater)
      rcases @Agrees.apply G plan more first hFirst short long
          hAgrees hChart item hItem hStop hPosition steps with
        ⟨shortMiddle, longMiddle, new, hShortSteps,
          hLongSteps, hMiddle, hMiddleChart, hShortAdmits,
          hLongAdmits⟩
      rw [← hShortAdmits.position] at hStop hPosition
      rcases ih hRest hMiddle hMiddleChart hStop hPosition
        with ⟨shorter, longer, hShorter, hLonger, hAfter,
          hShortVisited, hLongVisited⟩
      exact ⟨shorter, longer, hShortSteps.trans hShorter,
        hLongSteps.trans hLonger, hAfter,
        hShortVisited.trans hShortAdmits.visited,
        hLongVisited.trans hLongAdmits.visited⟩

------------------------------------------------------------
-- Steps of One Sweep
------------------------------------------------------------

/- What is done after the steps of a visit: it is counted. -/
structure Counts
    (before after : Sweep G) : Prop where
  chart : after.chart = before.chart
  position : after.position = before.position
  added : after.added = before.added
  visited : after.visited = before.visited + 1

/- What is visited ends at the position. -/
theorem stop_of_nthEndingAt
    {C : Chart G}
    {position nth : Nat}
    {item : Item G}
    (hNth : C.nthEndingAt position nth = some item) :
    item.stop = position := by
  rw [Chart.nthEndingAt_eq] at hNth
  have hItem := List.mem_of_getElem? hNth
  exact (Item.mem_endingAt_iff.mp hItem).2

/- A visit applies all steps and is then counted. -/
theorem step_of_running
    (hLimit : plan.limit = none)
    {item : Item G}
    {sweep after : Sweep G}
    (hNth :
      sweep.chart.nthEndingAt sweep.position sweep.visited =
        some item)
    (hApply :
      applySteps plan item sweep plan.steps =
        .running after) :
    ∃ next, step plan sweep = .running next ∧
      Counts after next := by
  rcases report_eq plan item after with
    ⟨reported, events, hReport⟩
  refine
    ⟨{ after with
        visited := after.visited + 1
        reported := reported
        events := events }, ?_, ⟨rfl, rfl, rfl, rfl⟩⟩
  unfold step
  rw [hNth]
  simp only [visit, hApply, hLimit, Chart.limitError, hReport]

/- Nothing comes of an item that is closed already. -/
theorem applySteps_of_closed
    {steps : List Step}
    {sweep : Sweep G}
    (hChart : ∀ x ∈ sweep.chart.items.toList,
      x.key.WellFormed)
    {item : Item G}
    (hItem : item.key.WellFormed)
    (hClosed :
      IsClosed plan.words steps sweep.chart.items.toList
        item) :
    applySteps plan item sweep steps = .running sweep := by
  induction steps with
  | nil => rfl
  | cons first steps ih =>
      have hSafe := first.safe_offers hChart hItem plan.words
      rcases sweep.chart.enterAll_of_ok hSafe.ok with
        ⟨chart, new, hEnter, _, hDelivery⟩
      have hInfers :=
        first.infers_of_delivery hChart hItem hDelivery
      have hNone : new = [] := by
        apply List.eq_nil_iff_forall_not_mem.mpr
        intro x hx
        have hNodup := hDelivery.nodup sweep.chart.nodup_keys
        rw [List.map_append, List.nodup_append] at hNodup
        exact hNodup.2.2 _
          (hClosed first List.mem_cons_self x (hInfers x hx))
          _ (List.mem_map_of_mem hx) rfl
      rw [hNone] at hEnter
      simp only [applySteps, hEnter, List.length_nil]
      apply ih
      intro step hStep
      exact hClosed step (List.mem_cons_of_mem first hStep)

/- A finished sweep has come to the end of its words. -/
theorem of_step_finished
    (hSteps : Step.combine ∉ plan.steps)
    (hLimit : plan.limit = none)
    {sweep last : Sweep G}
    (hInvariant : Invariant plan sweep)
    (hFinished : step plan sweep = .finished last) :
    last = sweep ∧
      sweep.chart.nthEndingAt sweep.position sweep.visited =
        none ∧
      sweep.added = 0 ∧
      sweep.position = plan.words.length ∧
      ∀ item ∈ sweep.chart.items.toList,
        IsClosed plan.words plan.steps
          sweep.chart.items.toList item := by
  have hBound := hInvariant.position_le
  unfold step at hFinished
  split at hFinished
  · rename_i item hVisited
    rw [Chart.nthEndingAt_eq] at hVisited
    rcases hInvariant.visit hSteps hLimit hVisited with
      ⟨next, hNext, _⟩
    rw [hNext] at hFinished
    cases hFinished
  · rename_i hEnd
    split at hFinished
    · cases hFinished
    · rename_i hAdded
      split at hFinished
      · cases hFinished
      · rename_i hPosition
        cases hFinished
        refine ⟨rfl, hEnd, by omega, by omega, ?_⟩
        rw [Chart.nthEndingAt_eq] at hEnd
        exact
          (hInvariant.closure hEnd hAdded hPosition).closed

/- A pass that has admitted something is repeated. -/
theorem step_again
    (plan : Plan)
    {sweep : Sweep G}
    (hEnd :
      sweep.chart.nthEndingAt sweep.position sweep.visited =
        none)
    (hAdded : 0 < sweep.added) :
    step plan sweep =
      .running
        { sweep with
          visited := 0
          added := 0
          passes := sweep.passes + 1 } := by
  unfold step
  rw [hEnd]
  exact if_pos hAdded

/- Else the sweep goes on to the next position. -/
theorem step_onward
    {sweep : Sweep G}
    (hEnd :
      sweep.chart.nthEndingAt sweep.position sweep.visited =
        none)
    (hAdded : sweep.added = 0)
    (hPosition : sweep.position < plan.words.length) :
    step plan sweep =
      .running
        { sweep with
          position := sweep.position + 1
          visited := 0
          passes := sweep.passes + 1 } := by
  unfold step
  rw [hEnd]
  simp only [hAdded, Nat.lt_irrefl, if_false]
  exact if_pos hPosition

/- Nothing is left to be done at the end of the words. -/
theorem step_of_end
    {sweep : Sweep G}
    (hEnd :
      sweep.chart.nthEndingAt sweep.position sweep.visited =
        none)
    (hAdded : sweep.added = 0)
    (hPosition : plan.words.length ≤ sweep.position) :
    step plan sweep = .finished sweep := by
  unfold step
  rw [hEnd]
  simp only [hAdded, Nat.lt_irrefl, if_false]
  exact if_neg (Nat.not_lt_of_le hPosition)

/- One step keeps the invariant. -/
theorem invariant_step
    (hSteps : Step.combine ∉ plan.steps)
    (hLimit : plan.limit = none)
    {sweep : Sweep G}
    (hInvariant : Invariant plan sweep) :
    Invariant plan (step plan sweep).state := by
  rcases step_of_invariant hSteps hLimit sweep hInvariant with
    ⟨next, hNext, hKept, _⟩ | ⟨last, hLast, _⟩
  · rw [hNext]
    exact hKept
  · rcases of_step_finished hSteps hLimit hInvariant hLast
      with ⟨rfl, _⟩
    rw [hLast]
    exact hInvariant

------------------------------------------------------------
-- Steps of Both Sweeps
------------------------------------------------------------

theorem Agrees.count
    {short long shorter longer : Sweep G}
    (hAgrees : Agrees plan short long)
    (hShort : Counts short shorter)
    (hLong : Counts long longer) :
    Agrees plan shorter longer where
  items := by
    rw [hShort.chart, hLong.chart]
    exact hAgrees.items
  position := by
    rw [hShort.position, hLong.position]
    exact hAgrees.position
  added_le := by
    rw [hShort.added, hLong.added]
    exact hAgrees.added_le
  added_eq := by
    rw [hShort.position, hShort.added, hLong.added]
    exact hAgrees.added_eq

/- At an early position both sweeps visit the same item. -/
theorem Agrees.nthEndingAt_eq
    {short long : Sweep G}
    (hAgrees : Agrees plan short long)
    (hPosition : short.position ≤ plan.words.length)
    (nth : Nat) :
    long.chart.nthEndingAt long.position nth =
      short.chart.nthEndingAt short.position nth := by
  rw [Chart.nthEndingAt_eq, Chart.nthEndingAt_eq,
    hAgrees.position,
    Chart.endingAt_of_endingBy hAgrees.items hPosition]

/- Both sweeps visit an item together. -/
theorem Agrees.visit
    (hSteps : Step.combine ∉ plan.steps)
    (hLimit : plan.limit = none)
    {short long : Sweep G}
    (hInvariant : Invariant plan short)
    (hChart : ∀ x ∈ long.chart.items.toList,
      x.key.WellFormed)
    (hAgrees : Agrees plan short long)
    (hVisited : long.visited = short.visited)
    {item : Item G}
    (hNth :
      short.chart.nthEndingAt short.position short.visited =
        some item) :
    ∃ next, step plan short = .running next ∧
      Tracks plan next
        (step (plan.extend more) long).state := by
  have hPosition := hInvariant.position_le
  have hItem := hInvariant.sound.wellFormed wellFormed_seeds
    item (mem_of_nthEndingAt hNth)
  have hLongNth :
      long.chart.nthEndingAt long.position long.visited =
        some item := by
    rw [hAgrees.nthEndingAt_eq hPosition, hVisited, hNth]
  rcases @applySteps_agrees G plan more plan.steps hSteps
      short long hAgrees hChart item hItem
      (stop_of_nthEndingAt hNth) hPosition with
    ⟨shorter, longer, hShorter, hLonger, hAfter,
      hShortVisited, hLongVisited⟩
  rcases step_of_running hLimit hNth hShorter with
    ⟨next, hShortStep, hShortCounts⟩
  rcases @step_of_running G (plan.extend more) hLimit item
      long longer hLongNth hLonger with
    ⟨longNext, hLongStep, hLongCounts⟩
  refine ⟨next, hShortStep, ?_⟩
  rw [hLongStep]
  apply Tracks.together
    (hAfter.count hShortCounts hLongCounts)
  rw [hLongCounts.visited, hShortCounts.visited,
    hLongVisited, hShortVisited, hVisited]

/- At the end of a pass the chart stays as it is. -/
theorem keeps_of_turn
    (plan : Plan)
    {sweep : Sweep G}
    (hEnd :
      sweep.chart.nthEndingAt sweep.position sweep.visited =
        none) :
    (step plan sweep).state.chart = sweep.chart ∧
      sweep.position ≤ (step plan sweep).state.position := by
  unfold step
  rw [hEnd]
  split
  · rename_i hNone
    cases hNone
  · split
    · exact ⟨rfl, Nat.le_refl _⟩
    · split
      · exact ⟨rfl, Nat.le_succ _⟩
      · exact ⟨rfl, Nat.le_refl _⟩

/-
  Both sweeps come to the end of a pass together. If the
  shorter one is finished then, the longer one goes on.
-/
theorem Agrees.turn
    (more : List Symbol)
    {short long : Sweep G}
    (hPosition : short.position ≤ plan.words.length)
    (hAgrees : Agrees plan short long)
    (hVisited : long.visited = short.visited)
    (hEnd :
      short.chart.nthEndingAt short.position short.visited =
        none) :
    ∃ next, (next = short ∨ step plan short = .running next) ∧
      Tracks plan next
        (step (plan.extend more) long).state := by
  have hLongEnd :
      long.chart.nthEndingAt long.position long.visited =
        none := by
    rw [hAgrees.nthEndingAt_eq hPosition, hVisited, hEnd]
  have hPlace := hAgrees.position
  have hLength := plan.length_le_extend more
  rcases Nat.eq_zero_or_pos short.added with
    hNone | hAdded
  · rcases Nat.lt_or_ge short.position plan.words.length with
      hBefore | hBehind
    · -- Before the last position nothing ends later yet.
      have hSame := hAgrees.added_eq hBefore
      have hLongBefore :
          long.position < (plan.extend more).words.length := by
        omega
      refine
        ⟨_, Or.inr (step_onward hEnd hNone hBefore), ?_⟩
      rw [step_onward hLongEnd (hSame.trans hNone)
        hLongBefore]
      exact .together
        { items := hAgrees.items
          position := congrArg Nat.succ hPlace
          added_le := hAgrees.added_le
          added_eq := fun _ => hSame } rfl
    · rcases keeps_of_turn (plan.extend more) hLongEnd with
        ⟨hChart, hOnward⟩
      refine ⟨short, Or.inl rfl, .behind ?_ ?_ ?_⟩
      · rw [hChart]
        exact hAgrees.items
      · omega
      · exact step_of_end hEnd hNone hBehind
  · have hLongAdded : 0 < long.added :=
      Nat.lt_of_lt_of_le hAdded hAgrees.added_le
    refine ⟨_, Or.inr (step_again plan hEnd hAdded), ?_⟩
    rw [step_again (plan.extend more) hLongEnd hLongAdded]
    exact .together
      { items := hAgrees.items
        position := hPlace
        added_le := Nat.le_refl _
        added_eq := fun _ => rfl } rfl

/- Behind the first words nothing is found inside of them. -/
theorem Expansion.endingBy
    {item : Item G}
    {before after : Sweep G}
    {new : List (Item G)}
    (hExpansion :
      Expansion plan item plan.steps before after new)
    (hSteps : Step.combine ∉ plan.steps)
    {position : Nat}
    (hStop : position < item.stop) :
    after.chart.endingBy position =
      before.chart.endingBy position := by
  have hNone : new.filter (Item.endsBy position) = [] := by
    apply List.filter_eq_nil_iff.mpr
    intro x hx
    rcases hExpansion.source x hx with
      ⟨first, hFirst, known, hInfers⟩
    have hNext : item.stop ≤ x.stop := by
      apply hInfers.stop_le_stop
      rintro rfl
      exact hSteps hFirst
    simp only [Item.endsBy, decide_eq_true_eq]
    omega
  unfold Chart.endingBy
  rw [hExpansion.items, List.filter_append, hNone,
    List.append_nil]

/-
  At the end of the first words nothing is found inside of
  them that a finished sweep has not found.
-/
theorem Agrees.endingBy_of_closed
    (hSteps : Step.combine ∉ plan.steps)
    {short long : Sweep G}
    (hInvariant : Invariant plan short)
    (hClosed : ∀ item ∈ short.chart.items.toList,
      IsClosed plan.words plan.steps
        short.chart.items.toList item)
    (hChart : ∀ x ∈ long.chart.items.toList,
      x.key.WellFormed)
    (hAgrees : Agrees plan short long)
    {item : Item G}
    (hItem : item ∈ long.chart.items.toList)
    (hStop : item.stop = short.position)
    {after : Sweep G}
    (hApply :
      applySteps (plan.extend more) item long plan.steps =
        .running after) :
    after.chart.endingBy plan.words.length =
      short.chart.items.toList := by
  have hPosition := hInvariant.position_le
  have hEarly : item.stop ≤ plan.words.length := by
    rwa [hStop]
  have hMember : item ∈ short.chart.items.toList := by
    rw [← hAgrees.items]
    exact List.mem_filter.mpr
      ⟨hItem, decide_eq_true hEarly⟩
  have hShort := applySteps_of_closed
    (hInvariant.sound.wellFormed wellFormed_seeds)
    (hChart item hItem) (hClosed item hMember)
  rcases @applySteps_agrees G plan more plan.steps hSteps
      short long hAgrees hChart item (hChart item hItem) hStop
      hPosition with
    ⟨shorter, longer, hShorter, hLonger, hAfter, _⟩
  rw [hShort, Progress.running.injEq] at hShorter
  rw [hApply, Progress.running.injEq] at hLonger
  rw [hShorter, hLonger]
  exact hAfter.items

/-
  When the shorter sweep is finished, the longer one goes on
  alone and finds only what ends later.
-/
theorem Tracks.ahead
    (hSteps : Step.combine ∉ plan.steps)
    (hLimit : plan.limit = none)
    {short long : Sweep G}
    (hInvariant : Invariant plan short)
    (hSound : Sound (plan.extend more) long)
    (hItems :
      long.chart.endingBy plan.words.length =
        short.chart.items.toList)
    (hPosition : plan.words.length ≤ long.position)
    (hFinished : step plan short = .finished short) :
    Tracks plan short
      (step (plan.extend more) long).state := by
  cases hNth :
      long.chart.nthEndingAt long.position long.visited with
  | none =>
      rcases keeps_of_turn (plan.extend more) hNth with
        ⟨hChart, hOnward⟩
      refine .behind ?_ (Nat.le_trans hPosition hOnward)
        hFinished
      rw [hChart]
      exact hItems
  | some item =>
      have hMember := mem_of_nthEndingAt hNth
      have hStop := stop_of_nthEndingAt hNth
      rcases applySteps_of_sound (List.Subset.refl _) hSound
          hMember with
        ⟨after, new, hApply, hExpansion⟩
      rcases @step_of_running G (plan.extend more) hLimit item
          long after hNth hApply with
        ⟨next, hStep, hCounts⟩
      have hAfter :
          after.chart.endingBy plan.words.length =
            short.chart.items.toList := by
        rcases Nat.lt_or_eq_of_le hPosition with
          hLater | hHere
        · rw [hExpansion.endingBy hSteps (by omega), hItems]
        · rcases of_step_finished hSteps hLimit hInvariant
              hFinished with
            ⟨_, _, hAdded, hPlace, hClosed⟩
          have hAgrees : Agrees plan short long :=
            ⟨hItems, by omega, by omega, by omega⟩
          exact hAgrees.endingBy_of_closed hSteps hInvariant
            hClosed (hSound.wellFormed wellFormed_seeds)
            hMember (by omega) hApply
      rw [hStep]
      refine .behind ?_ ?_ hFinished
      · rw [Progress.state, hCounts.chart]
        exact hAfter
      · rw [Progress.state, hCounts.position,
          hExpansion.position]
        exact hPosition

/-
  Each step of the longer sweep is one of the shorter sweep,
  too, or leaves it where it is.
-/
theorem tracks_step
    (hSteps : Step.combine ∉ plan.steps)
    (hLimit : plan.limit = none)
    {short long : Sweep G}
    (hInvariant : Invariant plan short)
    (hSound : Sound (plan.extend more) long)
    (hTracks : Tracks plan short long) :
    ∃ next, (next = short ∨ step plan short = .running next) ∧
      Tracks plan next
        (step (plan.extend more) long).state := by
  cases hTracks with
  | together hAgrees hVisited =>
      cases hNth :
          short.chart.nthEndingAt short.position
            short.visited with
      | none =>
          exact hAgrees.turn more hInvariant.position_le
            hVisited hNth
      | some item =>
          have hChart := hSound.wellFormed wellFormed_seeds
          rcases @Agrees.visit G plan more hSteps hLimit short
              long hInvariant hChart hAgrees hVisited item
              hNth with
            ⟨next, hStep, hNext⟩
          exact ⟨next, Or.inr hStep, hNext⟩
  | behind hItems hPosition hFinished =>
      exact ⟨short, Or.inl rfl,
        Tracks.ahead hSteps hLimit hInvariant hSound hItems
          hPosition hFinished⟩

------------------------------------------------------------
-- Whole Sweeps
------------------------------------------------------------

/- Both sweeps begin with the same seeds. -/
theorem agrees_begin
    (plan : Plan)
    (more : List Symbol) :
    @Agrees G plan (begin G plan)
      (begin G (plan.extend more)) := by
  let offers : Offers G := (seeds G plan.start).map .ok
  have hOk : ∀ offer ∈ offers,
      ∃ x, offer = .ok x ∧ x.start ≤ x.stop := by
    intro offer hOffer
    rcases List.mem_map.mp hOffer with ⟨x, hx, rfl⟩
    exact ⟨x, rfl, (wellFormed_seeds x hx).start_le_stop⟩
  have hCut :
      offers.endingBy plan.words.length = offers := by
    apply Offers.endingBy_eq_self
    intro x hx
    rcases List.mem_map.mp hx with ⟨y, hy, hSame⟩
    cases hSame
    rw [stop_seeds x hy]
    exact Nat.zero_le _
  have hNone :
      (Chart.new G (plan.extend more).words.length).endingBy
          plan.words.length =
        (Chart.new G plan.words.length).items.toList :=
    rfl
  rcases Chart.enterAll_endingBy hOk hNone with
    ⟨E, F, new, hLong, hF, _, hShort, hE⟩
  rw [hCut] at hShort
  refine ⟨?_, rfl, Nat.le_refl _, fun _ => rfl⟩
  rw [chart_begin, chart_begin]
  change (Chart.enterAll _ offers).1.endingBy _ =
    (Chart.enterAll _ offers).1.items.toList
  rw [hLong, hShort]
  unfold Chart.endingBy
  rw [hE, hF]
  rfl

/-
  What is kept beside a longer sweep: a shorter one that it
  tracks and that comes to its own end.
-/
structure Accompanied
    (plan : Plan)
    (more : List Symbol)
    (last long : Sweep G) : Prop where
  invariant : Invariant (plan.extend more) long
  tracks : ∃ short budget,
    Invariant plan short ∧
      Progress.iterate (step plan) budget short =
        .finished last ∧
      Tracks plan short long

theorem Accompanied.step
    (hSteps : Step.combine ∉ plan.steps)
    (hLimit : plan.limit = none)
    {last long : Sweep G}
    (hLong : Accompanied plan more last long) :
    Accompanied plan more last
      (Sweep.step (plan.extend more) long).state where
  invariant :=
    @invariant_step G (plan.extend more) hSteps hLimit long
      hLong.invariant
  tracks := by
    rcases hLong.tracks with
      ⟨short, budget, hInvariant, hLast, hTracks⟩
    rcases tracks_step hSteps hLimit hInvariant
        hLong.invariant.sound hTracks with
      ⟨next, rfl | hNext, hTracksNext⟩
    · exact ⟨next, budget, hInvariant, hLast, hTracksNext⟩
    · have hKept := invariant_step hSteps hLimit hInvariant
      cases budget with
      | zero => cases hLast
      | succ budget =>
          rw [hNext] at hKept
          rw [Progress.iterate, hNext] at hLast
          exact ⟨next, budget, hKept, hLast, hTracksNext⟩

/-
  Without a limit both sweeps come to their end, and up to
  the end of the first words both have the same items.
-/
theorem run_online
    (hSteps : Step.combine ∉ plan.steps)
    (hLimit : plan.limit = none)
    (more : List Symbol) :
    ∃ last longer : Sweep G,
      run G plan = .finished last ∧
        run G (plan.extend more) = .finished longer ∧
        longer.chart.endingBy plan.words.length =
          last.chart.items.toList := by
  rcases @run_finishes G plan hSteps hLimit with
    ⟨last, hLast, _⟩
  rcases @run_finishes G (plan.extend more) hSteps hLimit with
    ⟨longer, hLonger, _⟩
  refine ⟨last, longer, hLast, hLonger, ?_⟩
  have hBegin :
      Accompanied plan more last
        (begin G (plan.extend more)) :=
    ⟨invariant_begin (plan.extend more), begin G plan, _,
      invariant_begin plan, hLast,
      .together (agrees_begin plan more) rfl⟩
  rcases @Progress.exists_of_iterate_finished (Sweep G)
      (step (plan.extend more)) (Accompanied plan more last)
      (fun _ hLong => hLong.step hSteps hLimit)
      _ _ longer hBegin hLonger with
    ⟨long, hLong, hEnd⟩
  rcases @of_step_finished G (plan.extend more) hSteps hLimit
      long longer hLong.invariant hEnd with
    ⟨rfl, hNone, hAdded, hPosition, _⟩
  rcases hLong.tracks with
    ⟨short, budget, hInvariant, hShortLast, hTracks⟩
  cases hTracks with
  | behind hItems _ hFinished =>
      rw [Progress.eq_of_iterate_finished hFinished
        hShortLast]
      exact hItems
  | together hAgrees hVisited =>
      have hPlace := hInvariant.position_le
      have hShortNone :
          short.chart.nthEndingAt short.position
              short.visited =
            none := by
        rw [← hVisited, ← hAgrees.nthEndingAt_eq hPlace]
        exact hNone
      have hShortAdded : short.added = 0 :=
        Nat.le_zero.mp (hAdded ▸ hAgrees.added_le)
      have hFinished : step plan short = .finished short := by
        apply step_of_end hShortNone hShortAdded
        rw [← hAgrees.position, hPosition]
        exact plan.length_le_extend more
      rw [Progress.eq_of_iterate_finished hFinished
        hShortLast]
      exact hAgrees.items

end Sweep

namespace Grammar

/-
  The sweeping algorithms are online: at each position up to
  the end of the first words, further words change neither
  the items that end there nor their order and children.
-/
theorem sweep_online
    {algorithm : Algorithm}
    (hAlgorithm : algorithm ≠ .headCorner)
    (start : Symbol)
    (words more : List Symbol) :
    ∃ parse longer,
      (G.parse algorithm start none words).result =
          .ok parse ∧
        (G.parse algorithm start none
            (words ++ more)).result =
          .ok longer ∧
        ∀ position ≤ words.length,
          longer.chart.endingAt position =
            parse.chart.endingAt position := by
  rcases @Sweep.run_online G
      ⟨words, start, algorithm.steps, none⟩
      (combine_not_mem_steps hAlgorithm) rfl more with
    ⟨last, longer, hLast, hLonger, hItems⟩
  rw [parse_eq_sweep hAlgorithm, parse_eq_sweep hAlgorithm,
    Outcome.result_ofProgress, Outcome.result_ofProgress]
  change Sweep.run G ⟨words ++ more, _, _, _⟩ = _ at hLonger
  rw [hLast, hLonger]
  exact ⟨_, _, rfl, rfl, fun _ hPosition =>
    Chart.endingAt_of_endingBy hItems hPosition⟩

/- A second word `b` leaves the items before it alone. -/
theorem repeated_online :
    Algorithm.leftCorner ≠ .headCorner ∧
      ∃ parse longer,
        (repeated.parse .leftCorner "S" none
            ["b"]).result = .ok parse ∧
          (repeated.parse .leftCorner "S" none
              ["b", "b"]).result = .ok longer ∧
            longer.chart.endingAt 1 =
              parse.chart.endingAt 1 := by
  have hAlgorithm : Algorithm.leftCorner ≠ .headCorner := by
    decide
  rcases @sweep_online repeated .leftCorner hAlgorithm "S"
      ["b"] ["b"] with
    ⟨parse, longer, hParse, hLonger, hSame⟩
  exact ⟨hAlgorithm, parse, longer, hParse, hLonger,
    hSame 1 (Nat.le_refl 1)⟩

end Grammar

end Constituency
