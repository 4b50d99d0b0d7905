import Constituency.Proofs.Chart.Delivery
import Constituency.Proofs.Inference.Combining
import Constituency.Proofs.Parse.Capacity
import Constituency.Proofs.Parse.Progress

/-
  This file shows what a sweep over an input comes to. At
  every point its chart is a deduction. Without a limit the
  sweep is finished within its budget, and then its chart is
  closed: passes over a position go on until one of them
  admits nothing, and later positions only add items that
  end later.

  Key definitions include:
    * `Sweep.Sound`
    * `Sweep.Expansion`
    * `Sweep.Invariant`
    * `Sweep.measure`

  Main declarations:
    * `Sweep.sound_iterate`
    * `Sweep.run_finishes`
-/

namespace Constituency

variable {G : Grammar}

namespace Sweep

variable {plan : Plan}

------------------------------------------------------------
-- Seeds
------------------------------------------------------------

/- The seeds are the rules for the start symbol. -/
theorem mem_seeds_iff
    {start : Symbol}
    {item : Item G} :
    item ∈ seeds G start ↔
      ∃ r, (G.rule r).lhs = start ∧
        item = ⟨.single r 0 ⟨0, 0⟩, []⟩ := by
  unfold seeds
  rw [List.mem_map]
  constructor
  · rintro ⟨r, hRule, rfl⟩
    exact ⟨r, G.mem_rulesWithLhs_iff.mp hRule, rfl⟩
  · rintro ⟨r, hRule, rfl⟩
    exact ⟨r, G.mem_rulesWithLhs_iff.mpr hRule, rfl⟩

theorem wellFormed_seeds
    {start : Symbol} :
    ∀ first ∈ seeds G start, first.key.WellFormed := by
  intro first hFirst
  rcases mem_seeds_iff.mp hFirst with ⟨r, _, rfl⟩
  simp

theorem stop_seeds
    {start : Symbol} :
    ∀ first ∈ seeds G start, first.stop = 0 := by
  intro first hFirst
  rcases mem_seeds_iff.mp hFirst with ⟨r, _, rfl⟩
  rfl

theorem isSingle_seeds
    {start : Symbol} :
    ∀ first ∈ seeds G start, first.key.IsSingle := by
  intro first hFirst
  rcases mem_seeds_iff.mp hFirst with ⟨r, _, rfl⟩
  exact ⟨r, 0, ⟨0, 0⟩, rfl⟩

/- The chart of a sweep is a deduction from the seeds. -/
def Sound
    (plan : Plan)
    (sweep : Sweep G) : Prop :=
  Deduction plan.words plan.steps (seeds G plan.start)
    sweep.chart.items.toList

/- No item of a sweep stops behind the last word. -/
theorem Sound.stop_le
    {sweep : Sweep G}
    (hSound : Sound plan sweep) :
    ∀ x ∈ sweep.chart.items.toList,
      x.stop ≤ plan.words.length := by
  have hDeduction : Deduction _ _ _ _ := hSound
  apply hDeduction.stop_le wellFormed_seeds
  intro first hFirst
  rw [stop_seeds first hFirst]
  exact Nat.zero_le _

/- A sweep begins with the chart of its seeds. -/
theorem chart_begin
    (plan : Plan) :
    (begin G plan).chart =
      Chart.ofItems plan.words.length
        (seeds G plan.start) := by
  have hDeliver :
      ∀ (items : List (Item G)) (C : Chart G) (count : Nat),
        items.foldl (fun C item => (C.enter item).1) C =
          (Offers.deliver Chart.enter C count
            (items.map .ok)).1 := by
    intro items
    induction items with
    | nil => exact fun _ _ => rfl
    | cons item items ih =>
        intro C count
        rw [List.foldl_cons, List.map_cons, Offers.deliver]
        split
        · rename_i next hEnter
          rw [hEnter]
          exact ih next (count + 1)
        · rename_i next hEnter
          rw [hEnter]
          exact ih next count
  exact hDeliver _ _ 0

/- A sweep begins with a deduction that has all seeds. -/
theorem begin_spec
    (plan : Plan) :
    Sound plan (begin G plan) ∧
      ∀ first ∈ seeds G plan.start,
        first.key ∈
          (begin G plan).chart.items.toList.map Item.key := by
  rcases Chart.ofItems_spec plan.words.length
      (fun x hx =>
        (wellFormed_seeds x hx).start_le_stop) with
    ⟨hItems, hKeys⟩
  rw [← chart_begin plan] at hItems hKeys
  have hSound : Sound plan (begin G plan) :=
    Deduction.nil.append_seeds (fun _ hx => hItems hx)
  exact ⟨hSound, hKeys⟩

------------------------------------------------------------
-- Visits
------------------------------------------------------------

/-
  What applying steps to an item does to a sweep: new items
  that follow from the item. If there are none, nothing new
  follows from it.
-/
structure Expansion
    (plan : Plan)
    (item : Item G)
    (steps : List Step)
    (before after : Sweep G)
    (new : List (Item G)) : Prop where
  items : after.chart.items.toList =
    before.chart.items.toList ++ new
  added : after.added = before.added + new.length
  position : after.position = before.position
  visited : after.visited = before.visited
  sound : Sound plan after
  source : ∀ x ∈ new, ∃ step ∈ steps, ∃ known,
    Infers plan.words known step item x
  closed : new = [] →
    IsClosed plan.words steps before.chart.items.toList item

namespace Expansion

variable {item : Item G}
variable {step : Step}
variable {steps : List Step}
variable {before middle after : Sweep G}
variable {new later : List (Item G)}

/- A first step that finds nothing new. -/
theorem cons_of_known
    (hRest : Expansion plan item steps before after later)
    (hKnown : ∀ x,
      Infers plan.words before.chart.items.toList step item
          x →
        x.key ∈ before.chart.items.toList.map Item.key) :
    Expansion plan item (step :: steps) before after
      later where
  items := hRest.items
  added := hRest.added
  position := hRest.position
  visited := hRest.visited
  sound := hRest.sound
  source := by
    intro x hx
    rcases hRest.source x hx with ⟨other, hOther, hInfers⟩
    exact ⟨other, List.mem_cons_of_mem step hOther, hInfers⟩
  closed := by
    intro hNone other hOther x hInfers
    rcases List.mem_cons.mp hOther with rfl | hLater
    · exact hKnown x hInfers
    · exact hRest.closed hNone other hLater x hInfers

/- A first step that finds something new. -/
theorem cons_of_new
    (hRest : Expansion plan item steps middle after later)
    (hNew : new ≠ [])
    (hItems : middle.chart.items.toList =
      before.chart.items.toList ++ new)
    (hAdded : middle.added = before.added + new.length)
    (hPosition : middle.position = before.position)
    (hVisited : middle.visited = before.visited)
    (hSource : ∀ x ∈ new,
      Infers plan.words before.chart.items.toList step item
        x) :
    Expansion plan item (step :: steps) before after
      (new ++ later) where
  items := by
    rw [hRest.items, hItems, List.append_assoc]
  added := by
    rw [hRest.added, hAdded, List.length_append,
      Nat.add_assoc]
  position := hRest.position.trans hPosition
  visited := hRest.visited.trans hVisited
  sound := hRest.sound
  source := by
    intro x hx
    rcases List.mem_append.mp hx with hFirst | hLater
    · exact ⟨step, List.mem_cons_self, _,
        hSource x hFirst⟩
    · rcases hRest.source x hLater with
        ⟨other, hOther, hInfers⟩
      exact
        ⟨other, List.mem_cons_of_mem step hOther, hInfers⟩
  closed := by
    intro hNone
    exact absurd (List.append_eq_nil_iff.mp hNone).1 hNew

end Expansion

/- Applying steps never meets an error. -/
theorem applySteps_of_sound
    {item : Item G}
    {steps : List Step}
    (hSteps : steps ⊆ plan.steps)
    {sweep : Sweep G}
    (hSound : Sound plan sweep)
    (hItem : item ∈ sweep.chart.items.toList) :
    ∃ after new,
      applySteps plan item sweep steps = .running after ∧
        Expansion plan item steps sweep after new := by
  induction steps generalizing sweep with
  | nil =>
      refine ⟨sweep, [], rfl, ?_⟩
      constructor <;> simp [hSound, IsClosed]
  | cons step steps ih =>
      have hStep : step ∈ plan.steps :=
        hSteps List.mem_cons_self
      have hLater : steps ⊆ plan.steps :=
        fun s hs => hSteps (List.mem_cons_of_mem step hs)
      have hChart := hSound.wellFormed wellFormed_seeds
      have hKey := hChart item hItem
      have hOk :
          ∀ offer ∈
              step.offers sweep.chart plan.words item,
            ∃ x, offer = .ok x ∧ x.start ≤ x.stop :=
        fun _ hOffer =>
          step.ok_of_mem_offers hChart hKey hOffer
      rcases sweep.chart.enterAll_of_ok hOk with
        ⟨chart, new, hEnter, hItems, hDelivery⟩
      have hInfers :=
        step.infers_of_delivery hChart hKey hDelivery
      cases new with
      | nil =>
          rcases ih hLater hSound hItem with
            ⟨after, later, hApply, hRest⟩
          refine ⟨after, later, ?_, ?_⟩
          · simp only [applySteps, hEnter]
            exact hApply
          · apply hRest.cons_of_known
            intro x hx
            have hFound := step.key_mem_of_delivery hChart
              hKey hDelivery hx
            rwa [List.append_nil] at hFound
      | cons x new =>
          let middle : Sweep G :=
            { sweep with
              chart := chart
              added := sweep.added + (x :: new).length
              events :=
                sweep.events.push
                  (.applied step item (x :: new).length) }
          have hMiddle : Sound plan middle := by
            unfold Sound
            rw [hItems]
            exact hSound.append hStep hItem hInfers
          have hMember : item ∈ middle.chart.items.toList := by
            rw [hItems]
            exact List.mem_append_left _ hItem
          rcases ih hLater hMiddle hMember with
            ⟨after, later, hApply, hRest⟩
          refine ⟨after, (x :: new) ++ later, ?_, ?_⟩
          · simp only [applySteps, hEnter]
            exact hApply
          · exact hRest.cons_of_new (List.cons_ne_nil x new)
              hItems rfl rfl rfl hInfers

/- Reporting leaves the chart and the counters alone. -/
theorem report_eq
    (plan : Plan)
    (item : Item G)
    (sweep : Sweep G) :
    ∃ reported events,
      report plan item sweep =
        { sweep with
          reported := reported
          events := events } := by
  unfold report
  split
  · exact ⟨sweep.reported, sweep.events, rfl⟩
  · split
    · exact ⟨sweep.reported, sweep.events, rfl⟩
    · exact ⟨_, _, rfl⟩

/-
  A visit expands the item and counts it, unless the chart
  has then grown past the limit.
-/
theorem visit_of_sound
    {item : Item G}
    {sweep : Sweep G}
    (hSound : Sound plan sweep)
    (hItem : item ∈ sweep.chart.items.toList) :
    ∃ after new,
      Expansion plan item plan.steps sweep after new ∧
        visit plan item sweep =
          match after.chart.limitError plan.limit with
          | some error => .failed error after
          | none =>
              .running
                { report plan item after with
                  visited := sweep.visited + 1 } := by
  rcases applySteps_of_sound (List.Subset.refl _) hSound
      hItem with
    ⟨after, new, hApply, hExpansion⟩
  refine ⟨after, new, hExpansion, ?_⟩
  rcases report_eq plan item after with
    ⟨reported, events, hReport⟩
  cases hLimit : after.chart.limitError plan.limit with
  | none =>
      simp [visit, hApply, hLimit, hReport,
        hExpansion.visited]
  | some error => simp [visit, hApply, hLimit]

------------------------------------------------------------
-- Every Point of a Sweep
------------------------------------------------------------

/- What is visited is in the chart. -/
theorem mem_of_nthEndingAt
    {C : Chart G}
    {position nth : Nat}
    {item : Item G}
    (hNth : C.nthEndingAt position nth = some item) :
    item ∈ C.items.toList := by
  rw [Chart.nthEndingAt_eq] at hNth
  have hItem := List.mem_of_getElem? hNth
  exact (Item.mem_endingAt_iff.mp hItem).1

/- One step keeps the chart a deduction. -/
theorem sound_step
    {sweep : Sweep G}
    (hSound : Sound plan sweep) :
    Sound plan (step plan sweep).state := by
  unfold step
  split
  · rename_i item hVisited
    have hItem := mem_of_nthEndingAt hVisited
    rcases visit_of_sound hSound hItem with
      ⟨after, new, hExpansion, hVisit⟩
    rcases report_eq plan item after with
      ⟨reported, events, hReport⟩
    rw [hVisit, hReport]
    split
    · exact hExpansion.sound
    · exact hExpansion.sound
  · split
    · exact hSound
    · split
      · exact hSound
      · exact hSound

/- The chart is a deduction at every point of a sweep. -/
theorem sound_iterate
    (plan : Plan)
    (budget : Nat) :
    Sound plan
      (Progress.iterate (step plan) budget
        (begin G plan)).state :=
  Progress.iterate_keeps (fun _ hSound => sound_step hSound)
    budget (begin_spec plan).1

------------------------------------------------------------
-- Closed Positions
------------------------------------------------------------

/-
  What stays true while a sweep is going on. Everything that
  ends before the current position is closed; so is, as long
  as the pass admits nothing, everything visited in it.
-/
structure Invariant
    (plan : Plan)
    (sweep : Sweep G) : Prop where
  sound : Sound plan sweep
  seeded : ∀ first ∈ seeds G plan.start,
    first.key ∈ sweep.chart.items.toList.map Item.key
  position_le : sweep.position ≤ plan.words.length
  settled : ∀ item ∈ sweep.chart.items.toList,
    item.stop < sweep.position →
      IsClosed plan.words plan.steps
        sweep.chart.items.toList item
  visited : sweep.added = 0 →
    ∀ item ∈ (sweep.chart.endingAt sweep.position).take
        sweep.visited,
      IsClosed plan.words plan.steps
        sweep.chart.items.toList item
  added_le : sweep.added ≤ sweep.chart.items.toList.length

/-
  An item stays closed while items are added at which it does
  not look: it is incomplete, or they end elsewhere than
  where it starts.
-/
theorem isClosed_append
    {words : List Symbol}
    {steps : List Step}
    (hSteps : Step.combine ∉ steps)
    {known new : List (Item G)}
    {item : Item G}
    (hNew : item.key.isComplete = true →
      ∀ x ∈ new, x.stop ≠ item.start)
    (hClosed : IsClosed words steps known item) :
    IsClosed words steps (known ++ new) item := by
  intro step hStep x hInfers
  have hSweeps : step ≠ .combine := by
    rintro rfl
    exact hSteps hStep
  have hBefore : Infers words known step item x := by
    apply hInfers.of_endingAt hSweeps
    intro hComplete partner hPartner hStop
    rcases List.mem_append.mp hPartner with hOld | hLater
    · exact hOld
    · exact absurd hStop (hNew hComplete partner hLater)
  have hKey := hClosed step hStep x hBefore
  rw [List.map_append]
  exact List.mem_append_left _ hKey

/-
  How much can still be done: positions to come and items to
  be admitted, each of which can cost a whole pass, and what
  is left of the current pass.
-/
def measure
    (plan : Plan)
    (sweep : Sweep G) : Nat :=
  let n := plan.words.length
  let size := sweep.chart.items.toList.length
  ((n - sweep.position) +
      (capacity G n - (size - sweep.added))) *
      (capacity G n + 1) +
    (capacity G n - sweep.visited)

/- Passes weigh more than what is left of one pass. -/
theorem pass_lt
    {passes later K rest : Nat}
    (hPasses : later < passes)
    (hRest : rest ≤ K) :
    later * (K + 1) + rest < passes * (K + 1) := by
  have hSucc : (later + 1) * (K + 1) ≤ passes * (K + 1) :=
    Nat.mul_le_mul_right _ hPasses
  rw [Nat.succ_mul] at hSucc
  omega

namespace Invariant

variable {sweep : Sweep G}

/- The chart of a sweep has no more items than it can have. -/
theorem length_le
    (hInvariant : Invariant plan sweep)
    (hSteps : Step.combine ∉ plan.steps) :
    sweep.chart.items.toList.length ≤
      capacity G plan.words.length := by
  have hSound : Deduction _ _ _ _ := hInvariant.sound
  apply length_le_capacity sweep.chart.nodup_keys
  · exact hInvariant.sound.stop_le
  · exact hSound.wellFormed wellFormed_seeds
  · exact hSound.isSingle hSteps isSingle_seeds

/- There are no more items at a position than in the chart. -/
theorem length_endingAt_le
    (C : Chart G)
    (position : Nat) :
    (C.endingAt position).length ≤
      C.items.toList.length := by
  rw [C.endingAt_eq]
  exact List.length_filter_le _ _

/-
  A visit keeps the invariant. Its new items end at the
  current position or later, so they close nothing up again
  that ends before it.
-/
theorem of_visit
    (hInvariant : Invariant plan sweep)
    (hSteps : Step.combine ∉ plan.steps)
    {item : Item G}
    (hVisited :
      (sweep.chart.endingAt sweep.position)[sweep.visited]? =
        some item)
    {next : Sweep G}
    {new : List (Item G)}
    (hSound : Sound plan next)
    (hItems : next.chart.items.toList =
      sweep.chart.items.toList ++ new)
    (hAdded : next.added = sweep.added + new.length)
    (hPosition : next.position = sweep.position)
    (hCount : next.visited = sweep.visited + 1)
    (hNew : ∀ x ∈ new, sweep.position ≤ x.stop)
    (hClosed : new = [] →
      IsClosed plan.words plan.steps
        sweep.chart.items.toList item) :
    Invariant plan next where
  sound := hSound
  seeded := by
    intro first hFirst
    rw [hItems, List.map_append]
    exact List.mem_append_left _
      (hInvariant.seeded first hFirst)
  position_le := by
    rw [hPosition]
    exact hInvariant.position_le
  settled := by
    intro x hx hBefore
    rw [hPosition] at hBefore
    rw [hItems] at hx ⊢
    rcases List.mem_append.mp hx with hOld | hLater
    · have hKey := hInvariant.sound.wellFormed
        wellFormed_seeds x hOld
      have hSpan : x.start ≤ x.stop := hKey.start_le_stop
      apply isClosed_append hSteps
      · intro _ y hy
        have hEnds := hNew y hy
        omega
      · exact hInvariant.settled x hOld hBefore
    · have hEnds := hNew x hLater
      omega
  visited := by
    intro hNone x hx
    have hNil : new = [] := by
      apply List.length_eq_zero_iff.mp
      omega
    subst hNil
    rw [List.append_nil] at hItems
    rw [hCount, hPosition, Chart.endingAt_eq, hItems,
      ← Chart.endingAt_eq, List.take_add_one, hVisited,
      Option.toList_some, List.mem_append,
      List.mem_singleton] at hx
    rw [hItems]
    rcases hx with hBefore | rfl
    · apply hInvariant.visited _ x hBefore
      simpa using hAdded.symm.trans hNone
    · exact hClosed rfl
  added_le := by
    have hBound := hInvariant.added_le
    rw [hAdded, hItems, List.length_append]
    omega

/- A visit keeps the invariant and shortens the pass. -/
theorem visit
    (hInvariant : Invariant plan sweep)
    (hSteps : Step.combine ∉ plan.steps)
    (hLimit : plan.limit = none)
    {item : Item G}
    (hVisited :
      (sweep.chart.endingAt sweep.position)[sweep.visited]? =
        some item) :
    ∃ next, Sweep.visit plan item sweep = .running next ∧
      Invariant plan next ∧
        measure plan next < measure plan sweep := by
  have hEnding := List.mem_of_getElem? hVisited
  have hBound := (List.getElem?_eq_some_iff.mp hVisited).1
  rw [Item.mem_endingAt_iff] at hEnding
  rcases hEnding with ⟨hItem, hStop⟩
  rcases visit_of_sound hInvariant.sound hItem with
    ⟨after, new, hExpansion, hVisit⟩
  rcases report_eq plan item after with
    ⟨reported, events, hReport⟩
  rw [hLimit, hReport] at hVisit
  have hNew : ∀ x ∈ new, sweep.position ≤ x.stop := by
    intro x hx
    rcases hExpansion.source x hx with
      ⟨step, hStep, known, hInfers⟩
    rw [← hStop]
    apply hInfers.stop_le_stop
    rintro rfl
    exact hSteps hStep
  refine ⟨_, hVisit, ?_, ?_⟩
  · exact hInvariant.of_visit hSteps hVisited
      hExpansion.sound hExpansion.items hExpansion.added
      hExpansion.position rfl hNew hExpansion.closed
  · have hCapacity := hInvariant.length_le hSteps
    have hRow := length_endingAt_le sweep.chart sweep.position
    have hAdmitted :
        after.chart.items.toList.length - after.added =
          sweep.chart.items.toList.length - sweep.added := by
      rw [hExpansion.items, hExpansion.added,
        List.length_append]
      omega
    simp only [measure, hExpansion.position, hAdmitted]
    omega

/- A pass that admitted something is followed by another. -/
theorem again
    (hInvariant : Invariant plan sweep)
    (hSteps : Step.combine ∉ plan.steps)
    (hAdded : 0 < sweep.added)
    {next : Sweep G}
    (hNext :
      next =
        { sweep with
          visited := 0
          added := 0
          passes := sweep.passes + 1 }) :
    Invariant plan next ∧
      measure plan next < measure plan sweep := by
  subst hNext
  constructor
  · exact
      { sound := hInvariant.sound
        seeded := hInvariant.seeded
        position_le := hInvariant.position_le
        settled := hInvariant.settled
        visited := by
          intro _ item hItem
          rw [List.take_zero] at hItem
          cases hItem
        added_le := Nat.zero_le _ }
  · have hCapacity := hInvariant.length_le hSteps
    have hBound := hInvariant.added_le
    unfold measure
    apply Nat.lt_add_right
    apply pass_lt
    · simp only
      omega
    · exact Nat.sub_le _ _

/- After a pass that admits nothing its position is closed. -/
theorem settled_succ
    (hInvariant : Invariant plan sweep)
    (hEnd :
      (sweep.chart.endingAt sweep.position)[sweep.visited]? =
        none)
    (hAdded : ¬ 0 < sweep.added) :
    ∀ item ∈ sweep.chart.items.toList,
      item.stop < sweep.position + 1 →
        IsClosed plan.words plan.steps
          sweep.chart.items.toList item := by
  intro item hItem hStop
  rcases Nat.lt_or_ge item.stop sweep.position with
    hBefore | hHere
  · exact hInvariant.settled item hItem hBefore
  · apply hInvariant.visited (by omega)
    rw [List.take_of_length_le
      (List.getElem?_eq_none_iff.mp hEnd)]
    exact Item.mem_endingAt_iff.mpr ⟨hItem, by omega⟩

/- Then the sweep goes on to the next position. -/
theorem onward
    (hInvariant : Invariant plan sweep)
    (hEnd :
      (sweep.chart.endingAt sweep.position)[sweep.visited]? =
        none)
    (hAdded : ¬ 0 < sweep.added)
    (hPosition : sweep.position < plan.words.length)
    {next : Sweep G}
    (hNext :
      next =
        { sweep with
          position := sweep.position + 1
          visited := 0
          passes := sweep.passes + 1 }) :
    Invariant plan next ∧
      measure plan next < measure plan sweep := by
  have hSettled := hInvariant.settled_succ hEnd hAdded
  subst hNext
  constructor
  · exact
      { sound := hInvariant.sound
        seeded := hInvariant.seeded
        position_le := hPosition
        settled := hSettled
        visited := by
          intro _ item hItem
          rw [List.take_zero] at hItem
          cases hItem
        added_le := hInvariant.added_le }
  · unfold measure
    apply Nat.lt_add_right
    apply pass_lt
    · simp only
      omega
    · exact Nat.sub_le _ _

/- After the last position the whole chart is closed. -/
theorem closure
    (hInvariant : Invariant plan sweep)
    (hEnd :
      (sweep.chart.endingAt sweep.position)[sweep.visited]? =
        none)
    (hAdded : ¬ 0 < sweep.added)
    (hPosition : ¬ sweep.position < plan.words.length) :
    Closure plan.words plan.steps (seeds G plan.start)
      sweep.chart.items.toList where
  deduction := hInvariant.sound
  seeded := hInvariant.seeded
  closed := by
    intro item hItem
    apply hInvariant.settled_succ hEnd hAdded item hItem
    have hStop := hInvariant.sound.stop_le item hItem
    omega

end Invariant

------------------------------------------------------------
-- Whole Sweeps
------------------------------------------------------------

/- One step goes on or ends with a closed chart. -/
theorem step_of_invariant
    (hSteps : Step.combine ∉ plan.steps)
    (hLimit : plan.limit = none)
    (sweep : Sweep G)
    (hInvariant : Invariant plan sweep) :
    (∃ next, step plan sweep = .running next ∧
      Invariant plan next ∧
        measure plan next < measure plan sweep) ∨
    ∃ last, step plan sweep = .finished last ∧
      Closure plan.words plan.steps (seeds G plan.start)
        last.chart.items.toList := by
  unfold step
  rw [Chart.nthEndingAt_eq]
  split
  · rename_i item hVisited
    left
    exact hInvariant.visit hSteps hLimit hVisited
  · rename_i hEnd
    split
    · rename_i hAdded
      left
      exact ⟨_, rfl, hInvariant.again hSteps hAdded rfl⟩
    · rename_i hAdded
      split
      · rename_i hPosition
        left
        exact ⟨_, rfl,
          hInvariant.onward hEnd hAdded hPosition rfl⟩
      · rename_i hPosition
        right
        exact ⟨sweep, rfl,
          hInvariant.closure hEnd hAdded hPosition⟩

theorem invariant_begin
    (plan : Plan) :
    Invariant plan (begin G plan) where
  sound := (begin_spec plan).1
  seeded := (begin_spec plan).2
  position_le := Nat.zero_le _
  settled := by
    intro item _ hStop
    exact absurd hStop (Nat.not_lt_zero _)
  visited := by
    intro _ item hItem
    change item ∈ List.take 0 _ at hItem
    rw [List.take_zero] at hItem
    cases hItem
  added_le := Nat.zero_le _

/-
  Without a limit a sweep is finished within its budget, and
  its chart is the closure of the seeds.
-/
theorem run_finishes
    (hSteps : Step.combine ∉ plan.steps)
    (hLimit : plan.limit = none) :
    ∃ last, run G plan = .finished last ∧
      Closure plan.words plan.steps (seeds G plan.start)
        last.chart.items.toList := by
  apply Progress.iterate_finishes
    (step_of_invariant hSteps hLimit) _
    (invariant_begin plan)
  unfold measure budget
  apply Nat.lt_of_lt_of_le
  · apply pass_lt
    · exact Nat.lt_succ_self _
    · exact Nat.sub_le _ _
  · apply Nat.mul_le_mul_right
    change plan.words.length - 0 + _ + 1 ≤ _
    omega

end Sweep

end Constituency
