import Constituency.Proofs.Chart.Delivery
import Constituency.Proofs.Inference.Combining
import Constituency.Proofs.Parse.Capacity
import Constituency.Proofs.Parse.Progress

/-
  This file shows what saturating a chart comes to. At every
  point the chart and the agenda behind it are a deduction.
  Without a limit the work is finished within its budget,
  and then the chart is closed: a replay that queues nothing
  has combined every item with the whole chart.

  Key definitions include:
    * `Saturation.view`
    * `Saturation.Sound`
    * `Saturation.Expansion`
    * `Saturation.Invariant`
    * `Saturation.measure`

  Main declarations:
    * `Saturation.sound_iterate`
    * `Saturation.run_finishes`
-/

namespace Constituency

variable {G : Grammar}

namespace Saturation

variable {plan : Plan}

------------------------------------------------------------
-- The Seed
------------------------------------------------------------

theorem wellFormed_seed
    (plan : Plan) :
    ∀ first ∈ [seed G plan], first.key.WellFormed := by
  intro first hFirst
  rw [List.mem_singleton] at hFirst
  subst hFirst
  exact ItemKey.wellFormed_goal_iff.mpr (Nat.zero_le _)

theorem stop_seed
    (plan : Plan) :
    ∀ first ∈ [seed G plan],
      first.stop ≤ plan.words.length := by
  intro first hFirst
  rw [List.mem_singleton] at hFirst
  subst hFirst
  exact Nat.le_refl _

theorem not_isSingle_seed
    (plan : Plan) :
    ∀ first ∈ [seed G plan], ¬ first.key.IsSingle := by
  intro first hFirst
  rw [List.mem_singleton] at hFirst
  subst hFirst
  simp [seed, ItemKey.IsSingle]

/- Goals ask for symbols of the grammar. -/
theorem knownSymbol_of_deduction
    (hStart : G.isNonterminal plan.start = true)
    {items : List (Item G)}
    (hItems :
      Deduction plan.words [.combine] [seed G plan] items) :
    ∀ x ∈ items, KnownSymbol x.key := by
  have hSymbols :
      ∀ {symbol : Symbol},
        symbol ∈ G.symbols ↔
          ∃ rule ∈ G.rules.toList,
            symbol = rule.lhs ∨ symbol ∈ rule.rhs := by
    intro symbol
    unfold Grammar.symbols
    rw [Text.mem_sortDistinct_iff, List.mem_flatMap]
    simp only [List.mem_cons]
  have hRule : ∀ r : G.RuleId, G.rule r ∈ G.rules.toList :=
    fun r => Array.mem_toList_iff.mpr (Array.getElem_mem r.2)
  have hDaughter :
      ∀ (r : G.RuleId) {dot : Nat} {symbol : Symbol},
        (G.rule r).rhs[dot]? = some symbol →
          symbol ∈ G.symbols :=
    fun r _ _ hNext => hSymbols.mpr
      ⟨G.rule r, hRule r,
        Or.inr (List.mem_of_getElem? hNext)⟩
  refine @Deduction.forall_mem G _ _ _ _
    (fun x => KnownSymbol x.key) ?_ ?_ hItems
  · intro first hFirst symbol span hKey
    rw [List.mem_singleton] at hFirst
    subst hFirst
    cases hKey
    rcases G.isNonterminal_iff.mp hStart with ⟨r, hLhs⟩
    exact hSymbols.mpr ⟨G.rule r, hRule r, Or.inl hLhs.symm⟩
  · intro known step item new hKnown _ hItem hInfers symbol
      span hKey
    cases hInfers with
    | predictLeft _ hSister =>
        cases hKey
        exact hDaughter _ hSister
    | predictRight _ hSister =>
        cases hKey
        exact hDaughter _ hSister
    | narrowFirst =>
        cases hKey
        exact hKnown _ hItem _ _ rfl
    | narrowLast =>
        cases hKey
        exact hKnown _ hItem _ _ rfl
    | _ => cases hKey

------------------------------------------------------------
-- Combining
------------------------------------------------------------

/- The items of the chart, then those that wait. -/
def view
    (state : Saturation G) : List (Item G) :=
  state.chart.items.toList ++ state.agenda.queue

/-
  Chart and agenda together are a deduction from the seed
  without repetitions, and what is replayed is in the chart.
-/
structure Sound
    (plan : Plan)
    (state : Saturation G) : Prop where
  deduction :
    Deduction plan.words [.combine] [seed G plan] state.view
  nodup : (state.view.map Item.key).Nodup
  replayed : ∀ items, state.replay = some items →
    items ⊆ state.chart.items.toList

/-
  What combining an item does: new items that follow from it
  are queued, so that what follows from it is known.
-/
structure Expansion
    (plan : Plan)
    (item : Item G)
    (before after : Saturation G)
    (new : List (Item G)) : Prop where
  chart : after.chart = before.chart
  queue : after.agenda.queue = before.agenda.queue ++ new
  replay : after.replay = before.replay
  added : after.added = before.added + new.length
  infers : ∀ x ∈ new,
    Infers plan.words before.chart.items.toList .combine item
      x
  known : ∀ x,
    Infers plan.words before.chart.items.toList .combine item
        x →
      x.key ∈ (before.view ++ new).map Item.key
  nodup : (before.view.map Item.key).Nodup →
    ((before.view ++ new).map Item.key).Nodup

theorem Expansion.view
    {item : Item G}
    {before after : Saturation G}
    {new : List (Item G)}
    (hExpansion : Expansion plan item before after new) :
    after.view = before.view ++ new := by
  unfold Saturation.view
  rw [hExpansion.chart, hExpansion.queue, List.append_assoc]

/- Combining never meets an error. -/
theorem combine_of_wellFormed
    (plan : Plan)
    {state : Saturation G}
    (hChart :
      ∀ x ∈ state.chart.items.toList, x.key.WellFormed)
    {item : Item G}
    (hItem : item.key.WellFormed) :
    ∃ after new,
      combine plan item state = .running after ∧
        Expansion plan item state after new := by
  have hOk :
      ∀ offer ∈
          Step.combine.offers state.chart plan.words item,
        ∃ x, offer = .ok x :=
    fun _ hOffer =>
      (Step.combine.ok_of_mem_offers hChart hItem
        hOffer).imp (fun _ hBoth => hBoth.1)
  rcases state.agenda.addAll_of_ok state.chart hOk with
    ⟨agenda, new, hAdd, hQueue, hDelivery⟩
  have hInfers :=
    Step.combine.infers_of_delivery hChart hItem hDelivery
  have hKnown :
      ∀ x, Infers plan.words state.chart.items.toList
          .combine item x →
        x.key ∈ (state.view ++ new).map Item.key :=
    fun _ hx => Step.combine.key_mem_of_delivery hChart hItem
      hDelivery hx
  cases new with
  | nil =>
      refine ⟨state, [], ?_, ?_⟩
      · simp only [combine, hAdd]
        rfl
      · exact
          { chart := rfl
            queue := (List.append_nil _).symm
            replay := rfl
            added := rfl
            infers := hInfers
            known := hKnown
            nodup := hDelivery.nodup }
  | cons x new =>
      let after : Saturation G :=
        { state with
          agenda := agenda
          added := state.added + (x :: new).length
          events :=
            state.events.push
              (.applied .combine item (x :: new).length) }
      refine ⟨after, x :: new, ?_, ?_⟩
      · simp only [combine, hAdd]
        rfl
      · exact
          { chart := rfl
            queue := hQueue
            replay := rfl
            added := rfl
            infers := hInfers
            known := hKnown
            nodup := hDelivery.nodup }

namespace Sound

variable {state : Saturation G}

/- The items of the chart are well-formed. -/
theorem wellFormed
    (hSound : Sound plan state) :
    ∀ x ∈ state.chart.items.toList, x.key.WellFormed := by
  intro x hx
  exact hSound.deduction.wellFormed (wellFormed_seed plan) x
    (List.mem_append_left _ hx)

/- Combining an item of the chart keeps chart and agenda. -/
theorem of_expansion
    {item : Item G}
    {after : Saturation G}
    {new : List (Item G)}
    (hSound : Sound plan state)
    (hItem : item ∈ state.chart.items.toList)
    (hExpansion : Expansion plan item state after new) :
    Sound plan after where
  deduction := by
    have hChart :
        state.chart.items.toList ⊆ state.view :=
      List.subset_append_left _ _
    rw [hExpansion.view]
    apply hSound.deduction.append List.mem_cons_self
      (hChart hItem)
    intro x hx
    exact (hExpansion.infers x hx).mono hChart
  nodup := by
    rw [hExpansion.view]
    exact hExpansion.nodup hSound.nodup
  replayed := by
    rw [hExpansion.chart, hExpansion.replay]
    exact hSound.replayed

/-
  An item that has waited goes to the chart, which only moves
  the border between chart and agenda.
-/
theorem enter
    (hSound : Sound plan state)
    {item : Item G}
    {agenda : Agenda G}
    (hReplay : state.replay = none)
    (hPop : state.agenda.pop? = some (item, agenda)) :
    ∃ chart, state.chart.enter item = (chart, true) ∧
      chart.items.toList =
        state.chart.items.toList ++ [item] ∧
      Sound plan
        { state with chart := chart, agenda := agenda } := by
  have hQueue := state.agenda.pop?_eq_some hPop
  have hView :
      state.view =
        (state.chart.items.toList ++ [item]) ++
          agenda.queue := by
    unfold view
    rw [hQueue, List.append_assoc, List.singleton_append]
  have hItem : item ∈ state.view := by
    rw [hView]
    simp
  have hSpan : item.start ≤ item.stop :=
    (hSound.deduction.wellFormed (wellFormed_seed plan) item
      hItem).start_le_stop
  have hNew :
      item.key ∉ state.chart.items.toList.map Item.key := by
    have hNodup := hSound.nodup
    rw [hView, List.map_append] at hNodup
    have hFirst := (List.nodup_append.mp hNodup).1
    rw [List.map_append, List.nodup_append] at hFirst
    intro hKey
    exact hFirst.2.2 _ hKey _ (by simp) rfl
  rcases state.chart.enter_of_not_mem hSpan hNew with
    ⟨chart, hEnter, hItems⟩
  refine ⟨chart, hEnter, hItems, ?_⟩
  have hSame :
      view { state with chart := chart, agenda := agenda } =
        state.view := by
    rw [hView, ← hItems]
    rfl
  exact
    { deduction := hSame ▸ hSound.deduction
      nodup := hSame ▸ hSound.nodup
      replayed := by
        intro items hItems
        rw [hReplay] at hItems
        cases hItems }

end Sound

------------------------------------------------------------
-- Every Point of the Work
------------------------------------------------------------

/- At first only the seed waits. -/
theorem queue_begin
    (plan : Plan) :
    (begin G plan).agenda.queue = [seed G plan] := by
  have hNew :
      (seed G plan).key ∉
        ((Chart.new G plan.words.length).items.toList ++
          (Agenda.empty G).queue).map Item.key := by
    simp [Chart.new]
  rcases (Agenda.empty G).add_of_not_mem
      (Chart.new G plan.words.length) hNew with
    ⟨later, hAdd, hQueue⟩
  simp only [begin, hAdd, hQueue]
  rfl

theorem view_begin
    (plan : Plan) :
    (begin G plan).view = [seed G plan] := by
  unfold view
  rw [queue_begin]
  rfl

theorem sound_begin
    (plan : Plan) :
    Sound plan (begin G plan) where
  deduction := by
    rw [view_begin]
    exact Deduction.nil.append_seeds (fun _ hx => hx)
  nodup := by
    rw [view_begin]
    exact List.nodup_singleton _
  replayed := by
    intro items hItems
    cases hItems

/- Moving an item to the chart and combining it. -/
theorem settle_of_sound
    {state : Saturation G}
    (hSound : Sound plan state)
    {item : Item G}
    {agenda : Agenda G}
    (hReplay : state.replay = none)
    (hPop : state.agenda.pop? = some (item, agenda)) :
    ∃ chart after new,
      chart.items.toList =
          state.chart.items.toList ++ [item] ∧
        Sound plan
          { state with chart := chart, agenda := agenda } ∧
        Expansion plan item
          { state with chart := chart, agenda := agenda }
          after new ∧
        settle plan item { state with agenda := agenda } =
          match chart.limitError plan.limit with
          | some error =>
              .failed error
                { state with
                  chart := chart
                  agenda := agenda }
          | none => .running after := by
  rcases hSound.enter hReplay hPop with
    ⟨chart, hEnter, hItems, hMiddle⟩
  have hItem : item ∈ chart.items.toList := by
    rw [hItems]
    simp
  rcases combine_of_wellFormed plan hMiddle.wellFormed
      (hMiddle.wellFormed item hItem) with
    ⟨after, new, hCombine, hExpansion⟩
  refine
    ⟨chart, after, new, hItems, hMiddle, hExpansion, ?_⟩
  unfold settle
  simp only [hEnter]
  cases chart.limitError plan.limit with
  | none => exact hCombine
  | some error => rfl

/- One step keeps chart and agenda a deduction. -/
theorem sound_step
    {state : Saturation G}
    (hSound : Sound plan state) :
    Sound plan (step plan state).state := by
  unfold step
  split
  · rename_i hReplay
    split
    · rename_i item agenda hPop
      rcases settle_of_sound hSound hReplay hPop with
        ⟨chart, after, new, hItems, hMiddle, hExpansion,
          hSettle⟩
      have hItem : item ∈ chart.items.toList := by
        rw [hItems]
        simp
      rw [hSettle]
      split
      · exact hMiddle
      · exact hMiddle.of_expansion hItem hExpansion
    · exact
        { deduction := hSound.deduction
          nodup := hSound.nodup
          replayed := by
            intro items hItems
            cases hItems
            exact List.Subset.refl _ }
  · rename_i item items hReplay
    have hThere := hSound.replayed _ hReplay
    have hItem := hThere List.mem_cons_self
    have hNext :
        Sound plan { state with replay := some items } :=
      { deduction := hSound.deduction
        nodup := hSound.nodup
        replayed := by
          intro rest hRest
          cases hRest
          exact fun x hx =>
            hThere (List.mem_cons_of_mem item hx) }
    rcases combine_of_wellFormed plan hNext.wellFormed
        (hNext.wellFormed item hItem) with
      ⟨after, new, hCombine, hExpansion⟩
    rw [hCombine]
    exact hNext.of_expansion hItem hExpansion
  · split
    · exact
        { deduction := hSound.deduction
          nodup := hSound.nodup
          replayed := by
            intro items hItems
            cases hItems }
    · exact hSound

/- Chart and agenda are a deduction at every point. -/
theorem sound_iterate
    (plan : Plan)
    (budget : Nat) :
    Sound plan
      (Progress.iterate (step plan) budget
        (begin G plan)).state :=
  Progress.iterate_keeps (fun _ hSound => sound_step hSound)
    budget (sound_begin plan)

------------------------------------------------------------
-- Closed Charts
------------------------------------------------------------

/-
  What stays true while a chart is saturated. During a
  replay the chart stays as it is; as long as the replay has
  queued nothing, the items behind it are closed.
-/
structure Invariant
    (plan : Plan)
    (state : Saturation G) : Prop where
  sound : Sound plan state
  seeded : (seed G plan).key ∈ state.view.map Item.key
  replayed : ∀ rest, state.replay = some rest →
    ∃ done, state.chart.items.toList = done ++ rest ∧
      state.agenda.queue.length = state.added ∧
        (state.added = 0 → ∀ x ∈ done,
          IsClosed plan.words [.combine]
            state.chart.items.toList x)

/-
  How much can still be done: items to come, each of which
  can cost a pass over the whole chart, items to be moved to
  the chart, and what is left of the current turn.
-/
def measure
    (plan : Plan)
    (state : Saturation G) : Nat :=
  let K := capacity G plan.words.length
  let size := state.chart.items.toList.length
  match state.replay with
  | none =>
      (K - (size + state.agenda.queue.length)) * (K + 2) +
        ((K - size) + (K + 2))
  | some rest =>
      (K - size) * (K + 2) +
        ((K - size) + (rest.length + 1))

namespace Invariant

variable {state : Saturation G}

/- Chart and agenda have no more items than they can have. -/
theorem length_le
    (hInvariant : Invariant plan state)
    (hStart : G.isNonterminal plan.start = true) :
    state.chart.items.toList.length +
        state.agenda.queue.length ≤
      capacity G plan.words.length := by
  have hDeduction := hInvariant.sound.deduction
  rw [← List.length_append]
  apply length_le_capacity hInvariant.sound.nodup
  · exact hDeduction.stop_le (wellFormed_seed plan)
      (stop_seed plan)
  · exact hDeduction.wellFormed (wellFormed_seed plan)
  · exact hDeduction.not_isSingle (not_isSingle_seed plan)
  · exact knownSymbol_of_deduction hStart hDeduction

/- A turn of the agenda moves one item to the chart. -/
theorem settle
    (hInvariant : Invariant plan state)
    (hStart : G.isNonterminal plan.start = true)
    (hLimit : plan.limit = none)
    {item : Item G}
    {agenda : Agenda G}
    (hReplay : state.replay = none)
    (hPop : state.agenda.pop? = some (item, agenda)) :
    ∃ next,
      Saturation.settle plan item
          { state with agenda := agenda } = .running next ∧
        Invariant plan next ∧
          measure plan next < measure plan state := by
  rcases settle_of_sound hInvariant.sound hReplay hPop with
    ⟨chart, next, new, hItems, hMiddle, hExpansion,
      hSettle⟩
  rw [hLimit] at hSettle
  have hItem : item ∈ chart.items.toList := by
    rw [hItems]
    simp
  have hQueue := state.agenda.pop?_eq_some hPop
  have hView : next.view = state.view ++ new := by
    rw [hExpansion.view]
    unfold view
    simp only [hItems, hQueue, List.append_assoc,
      List.singleton_append]
  have hNone : next.replay = none :=
    hExpansion.replay.trans hReplay
  refine ⟨next, hSettle, ?_, ?_⟩
  · exact
      { sound := hMiddle.of_expansion hItem hExpansion
        seeded := by
          rw [hView, List.map_append]
          exact List.mem_append_left _ hInvariant.seeded
        replayed := by
          intro rest hRest
          rw [hNone] at hRest
          cases hRest }
  · have hCapacity := hInvariant.length_le hStart
    have hChart :
        next.chart.items.toList.length =
          state.chart.items.toList.length + 1 := by
      rw [hExpansion.chart, hItems, List.length_append,
        List.length_singleton]
    have hNext :
        next.agenda.queue.length + 1 =
          state.agenda.queue.length + new.length := by
      have hLater : next.agenda.queue = agenda.queue ++ new :=
        hExpansion.queue
      rw [hLater, hQueue, List.length_append,
        List.length_cons]
      omega
    have hWaiting : 0 < state.agenda.queue.length := by
      rw [hQueue, List.length_cons]
      exact Nat.succ_pos _
    unfold measure
    rw [hReplay, hNone]
    apply Nat.add_lt_add_of_le_of_lt
    · apply Nat.mul_le_mul_right
      omega
    · omega

/- When the agenda is empty, a replay begins. -/
theorem turn
    (hInvariant : Invariant plan state)
    (hStart : G.isNonterminal plan.start = true)
    (hReplay : state.replay = none)
    (hPop : state.agenda.pop? = none)
    {next : Saturation G}
    (hNext :
      next =
        { state with
          replay := some state.chart.items.toList
          added := 0 }) :
    Invariant plan next ∧
      measure plan next < measure plan state := by
  have hQueue := state.agenda.pop?_eq_none_iff.mp hPop
  have hCapacity := hInvariant.length_le hStart
  subst hNext
  constructor
  · exact
      { sound :=
          { deduction := hInvariant.sound.deduction
            nodup := hInvariant.sound.nodup
            replayed := by
              intro rest hRest
              cases hRest
              exact List.Subset.refl _ }
        seeded := hInvariant.seeded
        replayed := by
          intro rest hRest
          cases hRest
          refine ⟨[], rfl, ?_, ?_⟩
          · rw [hQueue]
            rfl
          · intro _ x hx
            cases hx }
  · unfold measure
    rw [hReplay]
    simp only [hQueue, List.length_nil, Nat.add_zero]
    omega

/- Replaying an item of the chart shortens the replay. -/
theorem replay
    (hInvariant : Invariant plan state)
    {item : Item G}
    {rest : List (Item G)}
    (hReplay : state.replay = some (item :: rest)) :
    ∃ next,
      combine plan item
          { state with replay := some rest } =
            .running next ∧
        Invariant plan next ∧
          measure plan next < measure plan state := by
  rcases hInvariant.replayed _ hReplay with
    ⟨done, hItems, hAdded, hClosed⟩
  have hItem : item ∈ state.chart.items.toList := by
    rw [hItems]
    simp
  have hMiddle :
      Sound plan { state with replay := some rest } :=
    { deduction := hInvariant.sound.deduction
      nodup := hInvariant.sound.nodup
      replayed := by
        intro items hRest
        cases hRest
        intro x hx
        rw [hItems]
        exact List.mem_append_right _
          (List.mem_cons_of_mem item hx) }
  rcases combine_of_wellFormed plan hMiddle.wellFormed
      (hMiddle.wellFormed item hItem) with
    ⟨next, new, hCombine, hExpansion⟩
  have hChart : next.chart = state.chart := hExpansion.chart
  have hLater : next.replay = some rest := hExpansion.replay
  refine ⟨next, hCombine, ?_, ?_⟩
  · exact
      { sound := hMiddle.of_expansion hItem hExpansion
        seeded := by
          rw [hExpansion.view, List.map_append]
          exact List.mem_append_left _ hInvariant.seeded
        replayed := by
          intro items hRest
          rw [hLater] at hRest
          cases hRest
          refine ⟨done ++ [item], ?_, ?_, ?_⟩
          · rw [hChart, hItems, List.append_assoc,
              List.singleton_append]
          · rw [hExpansion.queue, hExpansion.added,
              List.length_append]
            exact congrArg (· + new.length) hAdded
          · intro hNone x hx
            rw [hExpansion.added] at hNone
            have hBefore : state.added = 0 :=
              Nat.eq_zero_of_add_eq_zero_right hNone
            have hNew : new = [] :=
              List.length_eq_zero_iff.mp
                (Nat.eq_zero_of_add_eq_zero_left hNone)
            rw [hChart]
            rcases List.mem_append.mp hx with hOld | hLast
            · exact hClosed hBefore x hOld
            · rw [List.mem_singleton] at hLast
              subst hLast
              intro step hStep y hInfers
              rw [List.mem_singleton] at hStep
              subst hStep
              have hKnown := hExpansion.known y hInfers
              have hQueue : state.agenda.queue = [] :=
                List.length_eq_zero_iff.mp
                  (hAdded.trans hBefore)
              simpa [view, hQueue, hNew] using hKnown }
  · unfold measure
    rw [hReplay, hLater, hChart]
    simp only [List.length_cons]
    omega

/- A replay that queued something is followed by another. -/
theorem again
    (hInvariant : Invariant plan state)
    (hStart : G.isNonterminal plan.start = true)
    (hReplay : state.replay = some [])
    (hAdded : 0 < state.added)
    {next : Saturation G}
    (hNext :
      next =
        { state with
          replay := none
          passes := state.passes + 1 }) :
    Invariant plan next ∧
      measure plan next < measure plan state := by
  rcases hInvariant.replayed _ hReplay with
    ⟨_, _, hQueue, _⟩
  have hCapacity := hInvariant.length_le hStart
  subst hNext
  constructor
  · exact
      { sound :=
          { deduction := hInvariant.sound.deduction
            nodup := hInvariant.sound.nodup
            replayed := by
              intro rest hRest
              cases hRest }
        seeded := hInvariant.seeded
        replayed := by
          intro rest hRest
          cases hRest }
  · have hFewer :
        capacity G plan.words.length -
              (state.chart.items.toList.length +
                state.agenda.queue.length) + 1 ≤
          capacity G plan.words.length -
            state.chart.items.toList.length := by
      omega
    have hTurns := Nat.mul_le_mul_right
      (capacity G plan.words.length + 2) hFewer
    rw [Nat.succ_mul] at hTurns
    unfold measure
    rw [hReplay]
    simp only [List.length_nil]
    omega

/- A replay that queued nothing leaves a closed chart. -/
theorem closure
    (hInvariant : Invariant plan state)
    (hReplay : state.replay = some [])
    (hAdded : ¬ 0 < state.added) :
    Closure plan.words [.combine] [seed G plan]
      state.chart.items.toList := by
  rcases hInvariant.replayed _ hReplay with
    ⟨done, hItems, hQueue, hClosed⟩
  have hNone : state.added = 0 := by omega
  have hView : state.view = state.chart.items.toList := by
    unfold view
    rw [List.length_eq_zero_iff.mp (hQueue.trans hNone),
      List.append_nil]
  have hSeeded := hInvariant.seeded
  have hDeduction := hInvariant.sound.deduction
  rw [hView] at hSeeded hDeduction
  rw [List.append_nil] at hItems
  exact
    { deduction := hDeduction
      seeded := by
        intro first hFirst
        rw [List.mem_singleton] at hFirst
        rw [hFirst]
        exact hSeeded
      closed := by
        intro x hx
        apply hClosed hNone
        rwa [← hItems] }

end Invariant

------------------------------------------------------------
-- Whole Runs
------------------------------------------------------------

/- One step goes on or ends with a closed chart. -/
theorem step_of_invariant
    (hStart : G.isNonterminal plan.start = true)
    (hLimit : plan.limit = none)
    (state : Saturation G)
    (hInvariant : Invariant plan state) :
    (∃ next, step plan state = .running next ∧
      Invariant plan next ∧
        measure plan next < measure plan state) ∨
    ∃ last, step plan state = .finished last ∧
      Closure plan.words [.combine] [seed G plan]
        last.chart.items.toList := by
  unfold step
  split
  · rename_i hReplay
    left
    split
    · rename_i item agenda hPop
      exact hInvariant.settle hStart hLimit hReplay hPop
    · rename_i hPop
      exact ⟨_, rfl,
        hInvariant.turn hStart hReplay hPop rfl⟩
  · rename_i item rest hReplay
    left
    exact hInvariant.replay hReplay
  · rename_i hReplay
    split
    · rename_i hAdded
      left
      exact ⟨_, rfl,
        hInvariant.again hStart hReplay hAdded rfl⟩
    · rename_i hAdded
      right
      exact ⟨state, rfl,
        hInvariant.closure hReplay hAdded⟩

theorem invariant_begin
    (plan : Plan) :
    Invariant plan (begin G plan) where
  sound := sound_begin plan
  seeded := by
    rw [view_begin]
    simp
  replayed := by
    intro rest hRest
    cases hRest

/-
  Without a limit a chart is saturated within the budget,
  and is then the closure of the seed.
-/
theorem run_finishes
    (hStart : G.isNonterminal plan.start = true)
    (hLimit : plan.limit = none) :
    ∃ last, run G plan = .finished last ∧
      Closure plan.words [.combine] [seed G plan]
        last.chart.items.toList := by
  apply Progress.iterate_finishes
    (step_of_invariant hStart hLimit) _
    (invariant_begin plan)
  have hSize :
      (begin G plan).chart.items.toList.length = 0 := rfl
  have hQueue :
      (begin G plan).agenda.queue.length = 1 := by
    rw [queue_begin]
    rfl
  have hCapacity :=
    (@invariant_begin G plan).length_le hStart
  have hReplay : (begin G plan).replay = none := rfl
  have hFewer :
      capacity G plan.words.length - (0 + 1) + 1 ≤
        capacity G plan.words.length := by
    omega
  have hTurns := Nat.mul_le_mul_right
    (capacity G plan.words.length + 2) hFewer
  rw [Nat.succ_mul] at hTurns
  unfold measure budget
  rw [hReplay]
  simp only [hSize, hQueue, Nat.add_mul, Nat.one_mul]
  omega

end Saturation

end Constituency
