import Constituency.Proofs.Chart.Waiting
import Constituency.Proofs.Parse.Extent
import Constituency.Proofs.Parse.Limit
import Constituency.Proofs.Parse.Moments

/-
  This file follows the agenda while a chart is saturated.
  No key is queued twice, every item that is popped is new
  to the chart, and the chart that comes out holds the
  queued items in the order in which they were queued.

  Key definitions include:
    * `Saturation.calls`
    * `Saturation.callsWithin`
    * `Saturation.history`
    * `Saturation.Follows`
    * `Saturation.Counted`

  Main declarations:
    * `Saturation.follows_history`
    * `Saturation.Moment.nodup`
    * `Saturation.queue_of_finished`
    * `Grammar.agenda_loses_nothing`
    * `Grammar.repeated_agenda`
-/

namespace Constituency

variable {G : Grammar}

namespace Saturation

variable {plan : Plan}
variable {state : Saturation G}

------------------------------------------------------------
-- Uses of the Agenda
------------------------------------------------------------

/- How the agenda is used when an item is combined. -/
def combineCalls
    (plan : Plan)
    (C : Chart G)
    (item : Item G) : List (Agenda.Call G) :=
  (Step.combine.offers C plan.words item).accepted.map
    (.add C)

/- How the agenda is used in a step. -/
def calls
    (plan : Plan)
    (state : Saturation G) : List (Agenda.Call G) :=
  match state.replay with
  | none =>
      match state.agenda.pop? with
      | none => [.pop]
      | some (item, _) =>
          let C := (state.chart.enter item).1
          match C.limitError plan.limit with
          | some _ => [.pop]
          | none => .pop :: combineCalls plan C item
  | some (item :: _) => combineCalls plan state.chart item
  | some [] => []

/- How it is used in a number of steps. -/
def callsWithin
    (plan : Plan) :
    Nat → Saturation G → List (Agenda.Call G)
  | 0, _ => []
  | steps + 1, state =>
      calls plan state ++
        match step plan state with
        | .running next => callsWithin plan steps next
        | _ => []

/- What becomes of the agenda up to a number of steps. -/
def history
    (G : Grammar)
    (plan : Plan)
    (steps : Nat) : Agenda.History G :=
  (Agenda.History.empty G).performAll
    (.add (Chart.new G plan.words.length) (seed G plan) ::
      callsWithin plan steps (begin G plan))

/-
  The history has come to the agenda of the state, and what
  was popped has gone to the chart.
-/
structure Follows
    (H : Agenda.History G)
    (state : Saturation G) : Prop where
  agenda : H.agenda = state.agenda
  popped : H.popped = state.chart.items.toList

/- The first use of the agenda queues the seed. -/
theorem follows_begin
    (plan : Plan) :
    Follows
      ((Agenda.History.empty G).performAll
        [.add (Chart.new G plan.words.length) (seed G plan)])
      (begin G plan) := by
  have hAdds := (Agenda.History.empty G).performAll_adds
    (Chart.new G plan.words.length) [.ok (seed G plan)]
  refine ⟨hAdds.1.trans ?_, hAdds.2⟩
  unfold Agenda.addAll Offers.deliver begin
  split
  · rename_i hAdd
    exact congrArg Prod.fst hAdd.symm
  · rename_i hAdd
    exact congrArg Prod.fst hAdd.symm

/- Combining an item uses the agenda as it is told. -/
theorem follows_combine
    {H : Agenda.History G}
    (hChart :
      ∀ x ∈ state.chart.items.toList, x.key.WellFormed)
    {item : Item G}
    (hItem : item.key.WellFormed)
    (hFollows : Follows H state) :
    Follows
      (H.performAll (combineCalls plan state.chart item))
      (combine plan item state).state := by
  have hOk :
      ∀ offer ∈
          Step.combine.offers state.chart plan.words item,
        ∃ x, offer = .ok x :=
    fun _ hOffer =>
      (Step.combine.ok_of_mem_offers hChart hItem
        hOffer).imp (fun _ hBoth => hBoth.1)
  rcases state.agenda.addAll_of_ok state.chart hOk with
    ⟨agenda, new, hAdd, _⟩
  rcases H.performAll_adds state.chart
      (Step.combine.offers state.chart plan.words item) with
    ⟨hAgenda, hPopped⟩
  rw [hFollows.agenda, hAdd] at hAgenda
  rw [hFollows.popped] at hPopped
  cases new with
  | nil =>
      have hState :
          (combine plan item state).state = state := by
        simp only [combine, hAdd]
        rfl
      rw [hState]
      exact ⟨hAgenda.trans (Agenda.eq_of_addAll_zero hAdd),
        hPopped⟩
  | cons x new =>
      simp only [combine, hAdd]
      exact ⟨hAgenda, hPopped⟩

/-
  What is popped goes to the chart before the agenda is used
  again.
-/
theorem follows_popped
    {H : Agenda.History G}
    (hSound : Sound plan state)
    (hFollows : Follows H state)
    {item : Item G}
    {agenda : Agenda G}
    (hReplay : state.replay = none)
    (hPop : state.agenda.pop? = some (item, agenda)) :
    Follows (H.performAll (calls plan state))
      (step plan state).state := by
  rcases hSound.enter hReplay hPop with
    ⟨chart, hEnter, hItems, hMiddle⟩
  have hItem : item ∈ chart.items.toList := by
    rw [hItems]
    simp
  have hSome : H.agenda.pop? = some (item, agenda) := by
    rw [hFollows.agenda, hPop]
  have hSettled :
      Follows (H.perform .pop)
        { state with
          chart := chart
          agenda := agenda
          replay := none } := by
    rw [Agenda.History.perform_pop hSome]
    refine ⟨rfl, ?_⟩
    rw [hItems, ← hFollows.popped]
  have hCombined :=
    @follows_combine G plan
      { state with
        chart := chart
        agenda := agenda
        replay := none } _ hMiddle.wellFormed _
      (hMiddle.wellFormed item hItem) hSettled
  cases hLimit : chart.limitError plan.limit with
  | some error =>
      simp only [calls, step, settle, hReplay, hPop,
        hEnter, hLimit]
      exact hSettled
  | none =>
      simp only [calls, step, settle, hReplay, hPop,
        hEnter, hLimit]
      exact hCombined

/- So does every step. -/
theorem follows_step
    {H : Agenda.History G}
    (hSound : Sound plan state)
    (hFollows : Follows H state) :
    Follows (H.performAll (calls plan state))
      (step plan state).state := by
  cases hReplay : state.replay with
  | none =>
      cases hPop : state.agenda.pop? with
      | none =>
          have hNone : H.agenda.pop? = none := by
            rw [hFollows.agenda, hPop]
          simp only [calls, step, hReplay, hPop]
          change Follows (H.perform .pop) _
          rw [Agenda.History.perform_pop_none hNone]
          exact ⟨hFollows.agenda, hFollows.popped⟩
      | some popped =>
          exact follows_popped hSound hFollows hReplay hPop
  | some rest =>
      cases rest with
      | nil =>
          simp only [calls, step, hReplay]
          split
          · exact ⟨hFollows.agenda, hFollows.popped⟩
          · exact hFollows
      | cons item items =>
          have hItem := hSound.wellFormed item
            (hSound.replayed _ hReplay List.mem_cons_self)
          simp only [calls, step, hReplay]
          exact @follows_combine G plan
            { state with replay := some items } _
            hSound.wellFormed _ hItem
            ⟨hFollows.agenda, hFollows.popped⟩

/- And so does any number of steps. -/
theorem follows_callsWithin
    (steps : Nat)
    {H : Agenda.History G}
    (hSound : Sound plan state)
    (hFollows : Follows H state) :
    Follows (H.performAll (callsWithin plan steps state))
      (Progress.iterate (step plan) steps state).state := by
  induction steps generalizing H state with
  | zero => exact hFollows
  | succ steps ih =>
      have hNext := follows_step hSound hFollows
      have hKept := sound_step hSound
      unfold callsWithin Progress.iterate
      rw [Agenda.History.performAll_append]
      cases hStep : step plan state with
      | running next =>
          rw [hStep] at hNext hKept
          exact ih hKept hNext
      | finished last =>
          rw [hStep] at hNext
          exact hNext
      | failed error last =>
          rw [hStep] at hNext
          exact hNext

/- The history tells where agenda and chart have come to. -/
theorem follows_history
    (plan : Plan)
    (steps : Nat) :
    Follows (history G plan steps)
      (Progress.iterate (step plan) steps
        (begin G plan)).state :=
  follows_callsWithin steps (sound_begin plan)
    (follows_begin plan)

/- What has been queued is what is known. -/
theorem queued_history
    (plan : Plan)
    (steps : Nat) :
    (history G plan steps).queued =
      (Progress.iterate (step plan) steps
        (begin G plan)).state.view := by
  have hFollows := @follows_history G plan steps
  have hOrder :
      (history G plan steps).queued =
        (history G plan steps).popped ++
          (history G plan steps).agenda.queue :=
    Agenda.History.queued_eq _
  rw [hOrder, hFollows.agenda, hFollows.popped]
  rfl

------------------------------------------------------------
-- Every Moment
------------------------------------------------------------

/- Queueing offers repeats no key. -/
theorem nodup_addAll
    {C : Chart G}
    {A : Agenda G}
    (hNodup :
      ((C.items.toList ++ A.queue).map Item.key).Nodup)
    {offers : Offers G}
    (hOffers : ∀ offer ∈ offers, ∃ x, offer = .ok x) :
    ((C.items.toList ++ (A.addAll C offers).1.queue).map
      Item.key).Nodup := by
  rcases A.addAll_of_ok C hOffers with
    ⟨later, new, hAdd, hQueue, hDelivery⟩
  have hAll := hDelivery.nodup hNodup
  rw [hAdd, hQueue, ← List.append_assoc]
  exact hAll

/-
  At every moment the chart and the agenda share no key, and
  neither has one twice. An item on its way from one to the
  other is missing in both, but its key is not queued again
  before it has arrived.
-/
theorem Moment.nodup
    {C : Chart G}
    {A : Agenda G}
    (hSound : Sound plan state)
    (hMoment : Moment plan state C A) :
    ((C.items.toList ++ A.queue).map Item.key).Nodup := by
  have hOk :
      ∀ {C : Chart G} {item : Item G} (count : Nat),
        (∀ x ∈ C.items.toList, x.key.WellFormed) →
          item.key.WellFormed →
            ∀ offer ∈
                (Step.combine.offers C plan.words item).take
                  count,
              ∃ x, offer = .ok x :=
    fun _ hChart hItem _ hOffer =>
      (Step.combine.ok_of_mem_offers hChart hItem
        (List.mem_of_mem_take hOffer)).imp
          (fun _ hBoth => hBoth.1)
  cases hMoment with
  | still => exact hSound.nodup
  | @popped item agenda hReplay hPop =>
      have hView := hSound.nodup
      unfold view at hView
      rw [state.agenda.pop?_eq_some hPop] at hView
      exact hView.sublist
        (((List.sublist_cons_self item _).append_left _).map
          Item.key)
  | @settled item agenda chart hReplay hPop hEnter count =>
      rcases hSound.enter hReplay hPop with
        ⟨entered, hEntered, hItems, hMiddle⟩
      rw [hEntered] at hEnter
      subst hEnter
      have hItem : item ∈ C.items.toList := by
        rw [hItems]
        simp
      exact nodup_addAll hMiddle.nodup
        (hOk count hMiddle.wellFormed
          (hMiddle.wellFormed item hItem))
  | @replayed item items hReplay count =>
      have hItem := hSound.wellFormed item
        (hSound.replayed _ hReplay List.mem_cons_self)
      exact nodup_addAll hSound.nodup
        (hOk count hSound.wellFormed hItem)

------------------------------------------------------------
-- The End
------------------------------------------------------------

/- A replay counts what it has queued. -/
structure Counted
    (plan : Plan)
    (state : Saturation G) : Prop where
  sound : Sound plan state
  queue : ∀ rest, state.replay = some rest →
    state.agenda.queue.length = state.added

/- It is counted in every step. -/
theorem counted_step
    (hCounted : Counted plan state) :
    Counted plan (step plan state).state where
  sound := sound_step hCounted.sound
  queue := by
    have hSound := hCounted.sound
    cases hReplay : state.replay with
    | none =>
        cases hPop : state.agenda.pop? with
        | none =>
            have hQueue :=
              state.agenda.pop?_eq_none_iff.mp hPop
            simp only [step, hReplay, hPop]
            intro _ _
            exact congrArg List.length hQueue
        | some popped =>
            rcases popped with ⟨item, agenda⟩
            rcases settle_of_sound hSound hReplay hPop with
              ⟨chart, after, new, _, _, hExpansion, hSettle⟩
            rw [hReplay] at hSettle
            simp only [step, hReplay, hPop, hSettle]
            intro rest hRest
            cases hLimit : chart.limitError plan.limit with
            | some error =>
                rw [hLimit] at hRest
                cases hRest
            | none =>
                rw [hLimit] at hRest
                have hNone := hExpansion.replay.trans hReplay
                cases hNone.symm.trans hRest
    | some rest =>
        cases rest with
        | nil =>
            have hQueue := hCounted.queue _ hReplay
            simp only [step, hReplay]
            split
            · intro _ hRest
              cases hRest
            · intro _ _
              exact hQueue
        | cons item items =>
            have hQueue := hCounted.queue _ hReplay
            have hItem := hSound.wellFormed item
              (hSound.replayed _ hReplay List.mem_cons_self)
            rcases @combine_of_wellFormed G plan
                { state with replay := some items }
                hSound.wellFormed _ hItem with
              ⟨after, new, hCombine, hExpansion⟩
            simp only [step, hReplay, hCombine]
            intro _ _
            change after.agenda.queue.length = after.added
            rw [hExpansion.queue, hExpansion.added,
              List.length_append]
            exact congrArg (· + new.length) hQueue

/- When saturation is finished, nothing waits any more. -/
theorem queue_of_finished
    {last : Saturation G}
    (hRun : run G plan = .finished last) :
    last.agenda.queue = [] := by
  have hBegin : Counted plan (begin G plan) :=
    ⟨sound_begin plan, fun _ hRest => (nomatch hRest)⟩
  rcases Progress.exists_of_iterate_finished
      (fun _ hState => counted_step hState) hBegin hRun with
    ⟨before, hBefore, hStep⟩
  have hLast := (counted_step hBefore).queue
  rw [hStep] at hLast
  rcases replay_of_step_finished hStep with
    ⟨hReplay, hAdded⟩
  exact List.length_eq_zero_iff.mp
    ((hLast _ hReplay).trans hAdded)

end Saturation

namespace Grammar

variable {start : Symbol}
variable {words : List Symbol}
variable {limit : Option Nat}

/- A parse shows the chart of finished saturation. -/
theorem exists_finished_of_parse
    (hStart : G.isNonterminal start = true)
    {parse : Parse G}
    (hParse :
      (G.parse .headCorner start limit words).result =
        .ok parse) :
    ∃ last,
      Saturation.run G ⟨words, start, limit⟩ =
          .finished last ∧
        parse.chart = last.chart := by
  rcases exists_of_result_ofProgress hParse with
    ⟨_, _, _, hChart⟩
  rcases @Saturation.run_finishes G ⟨words, start, none⟩
      hStart rfl with
    ⟨last, hFree, _⟩
  cases limit with
  | none =>
      rw [hFree] at hChart
      exact ⟨last, hFree, hChart⟩
  | some most =>
      have hGuards := @Saturation.run_guards G
        ⟨words, start, none⟩ rfl most
      cases hGuards with
      | within _ hSame =>
          have hRun := hSame.trans hFree
          rw [hRun] at hChart
          exact ⟨last, hRun, hChart⟩
      | beyond _ hCut =>
          have hResult := hParse
          simp only [Grammar.parse] at hResult
          rw [hCut] at hResult
          cases hResult

/-
  An agenda tells exactly what waits, takes an item exactly
  when neither store has its key, and gives items back in
  the order in which it took them. While a chart is filled
  from heads it takes no key twice, no moment finds a key in
  both stores, and every item that it gives back is new to
  the chart. So the chart of a parse holds the items in the
  order in which they were queued.
-/
theorem agenda_loses_nothing
    (hStart : G.isNonterminal start = true)
    (words : List Symbol)
    (limit : Option Nat) :
    let plan : Saturation.Plan := ⟨words, start, limit⟩
    (∀ calls : List (Agenda.Call G),
      let H := (Agenda.History.empty G).performAll calls
      (∀ key, key ∈ H.agenda.pending ↔
          key ∈ H.agenda.queue.map Item.key) ∧
        (H.agenda.queue.map Item.key).Nodup ∧
        (∀ (C : Chart G) (item : Item G),
          (H.agenda.add C item).2 = true ↔
            item.key ∉ C.items.toList.map Item.key ∧
              item.key ∉ H.agenda.queue.map Item.key) ∧
        H.queued = H.popped ++ H.agenda.queue) ∧
    (∀ steps,
      let state :=
        (Progress.iterate (Saturation.step plan) steps
          (Saturation.begin G plan)).state
      let H := Saturation.history G plan steps
      H.agenda = state.agenda ∧
        H.popped = state.chart.items.toList ∧
        (H.queued.map Item.key).Nodup ∧
        (∀ C A, Saturation.Moment plan state C A →
          ∀ x ∈ C.items.toList, ∀ y ∈ A.queue,
            x.key ≠ y.key) ∧
        ∀ item agenda, state.replay = none →
          state.agenda.pop? = some (item, agenda) →
            ∃ C, state.chart.insert? item =
              some (C, true)) ∧
    (∀ parse,
      (G.parse .headCorner start limit words).result =
          .ok parse →
        parse.chart.items.toList =
          (Saturation.history G plan
            (Saturation.budget G words.length)).queued) ∧
    ∃ parse,
      (G.parse .headCorner start none words).result =
        .ok parse := by
  intro plan
  refine ⟨?_, ?_, ?_, ?_⟩
  · intro calls H
    refine ⟨H.agenda.mem_pending_iff, H.agenda.nodup_keys, ?_,
      Agenda.History.queued_eq calls⟩
    intro C item
    rw [H.agenda.add_snd, ← C.contains_iff,
      ← H.agenda.contains_iff]
    simp
  · intro steps state H
    have hSound : Saturation.Sound plan state :=
      Saturation.sound_iterate plan steps
    have hFollows := @Saturation.follows_history G plan steps
    refine ⟨hFollows.agenda, hFollows.popped, ?_, ?_, ?_⟩
    · have hQueued := @Saturation.queued_history G plan steps
      have hNodup := hSound.nodup
      rwa [← hQueued] at hNodup
    · intro C A hMoment x hx y hy
      have hNodup := hMoment.nodup hSound
      rw [List.map_append, List.nodup_append] at hNodup
      exact hNodup.2.2 _ (List.mem_map_of_mem hx) _
        (List.mem_map_of_mem hy)
    · intro item agenda hReplay hPop
      rcases hSound.enter hReplay hPop with
        ⟨chart, hEnter, _⟩
      exact ⟨chart, state.chart.insert?_of_enter hEnter⟩
  · intro parse hParse
    rcases exists_finished_of_parse hStart hParse with
      ⟨last, hRun, hChart⟩
    have hQueue := Saturation.queue_of_finished hRun
    have hQueued := @Saturation.queued_history G plan
      (Saturation.budget G words.length)
    unfold Saturation.run at hRun
    rw [hRun] at hQueued
    rw [hQueued, hChart]
    unfold Saturation.view
    rw [Progress.state, hQueue, List.append_nil]
  · rcases G.parse_closure .headCorner hStart words with
      ⟨parse, hParse, _⟩
    exact ⟨parse, hParse⟩

/-
  For the word `b` ten items are queued and come to the
  chart in this order, the seed first.
-/
theorem repeated_agenda :
    let plan : Saturation.Plan := ⟨["b"], "S", none⟩
    let H := Saturation.history repeated plan
      (Saturation.budget repeated 1)
    repeated.isNonterminal "S" = true ∧
      (∃ parse,
        (repeated.parse .headCorner "S" none ["b"]).result =
            .ok parse ∧
          parse.chart.items.toList = H.queued ∧
          parse.chart.items.toList.length = 10) ∧
      (H.queued.map Item.key).Nodup ∧
        ∃ agenda C,
          (Saturation.begin repeated plan).agenda.pop? =
              some (Saturation.seed repeated plan, agenda) ∧
            (Saturation.begin repeated plan).chart.insert?
                (Saturation.seed repeated plan) =
              some (C, true) := by
  intro plan H
  have hStart : repeated.isNonterminal "S" = true := by
    decide
  have hLength : H.queued.length = 10 := by
    decide +kernel
  rcases agenda_loses_nothing hStart ["b"] none with
    ⟨_, hSteps, hParses, parse, hParse⟩
  have hItems := hParses parse hParse
  rcases hSteps 0 with ⟨_, _, _, _, hPopped⟩
  refine ⟨hStart, ⟨parse, hParse, hItems, ?_⟩,
    (hSteps _).2.2.1, ?_⟩
  · rw [hItems]
    exact hLength
  · have hQueue := @Saturation.queue_begin repeated plan
    cases hPop :
        (Saturation.begin repeated plan).agenda.pop? with
    | none =>
        rw [Agenda.pop?_eq_none_iff, hQueue] at hPop
        cases hPop
    | some popped =>
        rcases popped with ⟨item, agenda⟩
        have hFirst := Agenda.pop?_eq_some _ hPop
        rw [hQueue] at hFirst
        obtain ⟨rfl, _⟩ := List.cons.inj hFirst
        rcases hPopped _ agenda rfl hPop with ⟨C, hInsert⟩
        exact ⟨agenda, C, rfl, hInsert⟩

end Grammar

end Constituency
