import Constituency.Proofs.Parse.Queueing
import Mathlib.Algebra.GroupWithZero.Nat

/-
  This file shows that the events of a parse account for its
  chart. Every step of the work tells of as many new items
  as its stores grow by: a sweep when it admits them to the
  chart, saturation when it queues them. What waits in the
  queue comes to the chart in the end.

  Key definitions include:
    * `Event.added`
    * `Event.isSeeded`
    * `Event.IsWork`
    * `Accounts`

  Main declarations:
    * `Offers.size_of_deliver`
    * `Sweep.accounts_step`
    * `Sweep.accounts_run`
    * `Saturation.accounts_step`
    * `Saturation.accounts_run`
    * `Grammar.trace_accounts`
    * `Grammar.repeated_trace`
-/

namespace Constituency

variable {G : Grammar}

------------------------------------------------------------
-- Counting What Is Delivered
------------------------------------------------------------

/-
  If a store grows by one with each item that it takes, then
  it grows by as many as are counted.
-/
theorem Offers.size_of_deliver
    {σ : Type}
    {put : σ → Item G → σ × Bool}
    {size : σ → Nat}
    (hPut : ∀ store item,
      size (put store item).1 =
        size store + (put store item).2.toNat)
    {offers : Offers G}
    {store later : σ}
    {count total : Nat}
    (hDeliver :
      offers.deliver put store count = (later, .ok total)) :
    size later + count = size store + total := by
  induction offers generalizing store count with
  | nil =>
      cases hDeliver
      rfl
  | cons offer offers ih =>
      cases offer with
      | error cause => cases hDeliver
      | ok item =>
          have hOne := hPut store item
          unfold deliver at hDeliver
          split at hDeliver
          · rename_i next hNext
            have hRest := ih hDeliver
            rw [hNext] at hOne
            simp only [Bool.toNat_true] at hOne
            omega
          · rename_i next hNext
            have hRest := ih hDeliver
            rw [hNext] at hOne
            simp only [Bool.toNat_false] at hOne
            omega

/- A chart grows with each item that is new to it. -/
theorem Chart.size_enter
    (C : Chart G)
    (item : Item G) :
    (C.enter item).1.size =
      C.size + (C.enter item).2.toNat := by
  unfold enter
  cases hInsert : C.insert? item with
  | none => rfl
  | some inserted =>
      rcases inserted with ⟨later, isNew⟩
      have hItems :=
        congrArg List.length (C.toList_of_insert? hInsert)
      cases isNew with
      | true => simpa [size] using hItems
      | false => simpa [size] using hItems

theorem Chart.size_of_enterAll
    {C D : Chart G}
    {offers : Offers G}
    {count : Nat}
    (hEnter : C.enterAll offers = (D, .ok count)) :
    D.size = C.size + count :=
  Offers.size_of_deliver size_enter hEnter

/- An agenda grows with each item that it takes. -/
theorem Agenda.length_of_addAll
    {A B : Agenda G}
    {C : Chart G}
    {offers : Offers G}
    {count : Nat}
    (hAdd : A.addAll C offers = (B, .ok count)) :
    B.queue.length = A.queue.length + count := by
  refine @Offers.size_of_deliver G (Agenda G)
    (fun A item => A.add C item)
    (fun A => A.queue.length) ?_ offers A B 0 count hAdd
  intro A item
  rw [A.queue_add C item]
  cases hAdded : (A.add C item).2 with
  | true => simp
  | false => simp

/- Different items all come into a chart of items. -/
theorem Chart.size_ofItems
    (n : Nat)
    {items : List (Item G)}
    (hSpans : ∀ x ∈ items, x.start ≤ x.stop)
    (hNodup : (items.map Item.key).Nodup) :
    (Chart.ofItems n items).size = items.length := by
  rcases ofItems_spec n hSpans with ⟨hItems, hKeys⟩
  have hPerm :
      ((ofItems n items).items.toList.map Item.key).Perm
        (items.map Item.key) := by
    rw [List.perm_ext_iff_of_nodup
      (ofItems n items).nodup_keys hNodup]
    intro key
    constructor
    · intro hKey
      exact List.map_subset Item.key hItems hKey
    · intro hKey
      rcases List.mem_map.mp hKey with ⟨x, hx, rfl⟩
      exact hKeys x hx
  simpa [size] using hPerm.length_eq

------------------------------------------------------------
-- Events That Account for Growth
------------------------------------------------------------

namespace Event

/- The number of items that a step is said to have found. -/
def added : Event G → Nat
  | applied _ _ count => count
  | _ => 0

/- The event tells of an item that is there from the start. -/
def isSeeded : Event G → Bool
  | seeded _ => true
  | _ => false

/-
  The event tells of work that is going on: a step has found
  something, or an item waits in vain.
-/
def IsWork : Event G → Prop
  | applied _ _ count => 0 < count
  | unmatched _ _ _ => True
  | _ => False

end Event

/-
  Events of work are told behind the others while a number
  grows, and they tell of all that it grows by.
-/
def Accounts
    (before after : Nat)
    (events told : Array (Event G)) : Prop :=
  ∃ more, told.toList = events.toList ++ more ∧
    (∀ event ∈ more, event.IsWork) ∧
      after = before + (more.map Event.added).sum

namespace Accounts

variable {first second third : Nat}
variable {events told all : Array (Event G)}

/- Nothing is told, and nothing grows. -/
theorem refl :
    Accounts first first events events :=
  ⟨[], (List.append_nil _).symm, by simp, rfl⟩

theorem trans
    (hFirst : Accounts first second events told)
    (hSecond : Accounts second third told all) :
    Accounts first third events all := by
  rcases hFirst with ⟨early, hTold, hBefore, rfl⟩
  rcases hSecond with ⟨late, hAll, hAfter, rfl⟩
  refine ⟨early ++ late, ?_, ?_, ?_⟩
  · rw [hAll, hTold, List.append_assoc]
  · exact List.forall_mem_append.mpr ⟨hBefore, hAfter⟩
  · rw [List.map_append, List.sum_append, Nat.add_assoc]

/- One event is told of what grows. -/
theorem tell
    {event : Event G}
    (hEvent : event.IsWork) :
    Accounts first (first + event.added) events
      (events.push event) :=
  ⟨[event], Array.toList_push, by simpa using hEvent,
    by simp⟩

end Accounts

------------------------------------------------------------
-- Sweeps
------------------------------------------------------------

namespace Sweep

/- What is written to events accounts for the chart. -/
theorem Writes.accounts
    {C D : Chart G}
    {events told : Array (Event G)}
    (hWrites : Writes C events D told) :
    Accounts C.size D.size events told := by
  induction hWrites with
  | refl => exact .refl
  | grow _ hEnter hCount step item ih =>
      rw [Chart.size_of_enterAll hEnter]
      exact ih.trans (.tell (Nat.pos_of_ne_zero hCount))
  | report _ item wanted position ih =>
      exact ih.trans (.tell trivial)

/- The work after the seeds accounts for all other items. -/
theorem accounts_run
    (plan : Plan) :
    Accounts (begin G plan).chart.size
      (run G plan).state.chart.size (begin G plan).events
      (run G plan).state.events := by
  have hWrites :
      Writes (begin G plan).chart (begin G plan).events
        (run G plan).state.chart (run G plan).state.events :=
    Progress.iterate_keeps
      (P := fun sweep : Sweep G =>
        Writes (begin G plan).chart (begin G plan).events
          sweep.chart sweep.events)
      (fun _ hSweep => writes_step plan hSweep) _ .refl
  exact hWrites.accounts

/- All seeds are different. -/
theorem nodup_keys_seeds
    (start : Symbol) :
    ((seeds G start).map Item.key).Nodup := by
  unfold seeds
  rw [List.map_map]
  apply List.Nodup.map
  · intro r s hSame
    cases hSame
    rfl
  · rw [G.rulesWithLhs_eq]
    exact (List.nodup_finRange _).filter _

/- So there is an item for each seed at first. -/
theorem size_begin
    (plan : Plan) :
    (begin G plan).chart.size =
      (seeds G plan.start).length := by
  rw [chart_begin]
  exact Chart.size_ofItems _
    (fun x hx => (wellFormed_seeds x hx).start_le_stop)
    (nodup_keys_seeds plan.start)

end Sweep

------------------------------------------------------------
-- Saturation
------------------------------------------------------------

namespace Saturation

variable {plan : Plan}
variable {state : Saturation G}

/- Combining tells of every item that it queues. -/
theorem accounts_combine
    (plan : Plan)
    (item : Item G)
    (state : Saturation G) :
    Accounts state.view.length
      (combine plan item state).state.view.length
      state.events
      (combine plan item state).state.events := by
  simp only [combine]
  split
  · exact .refl
  · exact .refl
  · rename_i agenda count hCount hAdd
    have hQueue := Agenda.length_of_addAll hAdd
    simp only [Progress.state, view, List.length_append,
      hQueue, ← Nat.add_assoc]
    exact .tell (Nat.pos_of_ne_zero hCount)

/- Moving an item to the chart makes nothing more or less. -/
theorem accounts_settle
    (hSound : Sound plan state)
    {item : Item G}
    {agenda : Agenda G}
    (hReplay : state.replay = none)
    (hPop : state.agenda.pop? = some (item, agenda)) :
    Accounts state.view.length
      (settle plan item
        { state with agenda := agenda }).state.view.length
      state.events
      (settle plan item
        { state with agenda := agenda }).state.events := by
  rcases hSound.enter hReplay hPop with
    ⟨chart, hEnter, hItems, _⟩
  let middle : Saturation G :=
    { state with chart := chart, agenda := agenda }
  have hView : middle.view.length = state.view.length := by
    unfold view
    rw [state.agenda.pop?_eq_some hPop, hItems]
    simp [middle]
  unfold settle
  simp only [hEnter]
  split
  · rw [← hView]
    exact .refl
  · rw [← hView]
    exact accounts_combine plan item middle

/- A step tells of every item that it queues. -/
theorem accounts_step
    (hSound : Sound plan state) :
    Accounts state.view.length
      (step plan state).state.view.length state.events
      (step plan state).state.events := by
  unfold step
  split
  · rename_i hReplay
    split
    · rename_i item agenda hPop
      exact accounts_settle hSound hReplay hPop
    · exact .refl
  · rename_i item items _
    exact accounts_combine plan item
      { state with replay := some items }
  · split
    · exact .refl
    · exact .refl

/- The work after the seed accounts for all other items. -/
theorem accounts_run
    (plan : Plan) :
    Accounts 1 (run G plan).state.view.length
      #[Event.seeded (seed G plan)]
      (run G plan).state.events := by
  have hBoth :
      Sound plan (run G plan).state ∧
        Accounts 1 (run G plan).state.view.length
          #[Event.seeded (seed G plan)]
          (run G plan).state.events := by
    apply Progress.iterate_keeps
      (P := fun state : Saturation G =>
        Sound plan state ∧
          Accounts 1 state.view.length
            #[Event.seeded (seed G plan)] state.events)
    · intro state hState
      exact ⟨sound_step hState.1,
        hState.2.trans (accounts_step hState.1)⟩
    · refine ⟨sound_begin plan, ?_⟩
      rw [view_begin]
      exact .refl
  exact hBoth.2

end Saturation

------------------------------------------------------------
-- Parses
------------------------------------------------------------

/-
  Events that begin with the seeds and account for the rest
  of a chart make up, with the one that ends the parse, the
  events of the parse.
-/
theorem Outcome.accounts
    {σ : Type}
    {algorithm : Algorithm}
    {start : Symbol}
    {words : List Symbol}
    {read : σ → Chart G × Nat × Array (Event G)}
    {progress : Progress σ}
    {parse : Parse G}
    (hResult :
      (ofProgress algorithm start words read
          progress).result = .ok parse)
    {seeds : List (Item G)}
    {size : Nat}
    (hAccounts :
      Accounts seeds.length size
        (seeds.map Event.seeded).toArray
        (read progress.state).2.2) :
    let events :=
      (ofProgress algorithm start words read progress).events
    ∃ work,
      events =
          seeds.map Event.seeded ++ work ++
            [parse.finish] ∧
        (∀ event ∈ work, event.IsWork) ∧
        events.countP Event.isSeeded +
          (events.map Event.added).sum = size := by
  intro events
  rcases hAccounts with ⟨work, hTold, hWork, rfl⟩
  rw [List.toList_toArray] at hTold
  have hEvents :
      events =
        seeds.map Event.seeded ++ work ++
          [parse.finish] := by
    rw [← hTold]
    cases progress with
    | running state =>
        cases hResult
        rfl
    | finished state =>
        cases hResult
        rfl
    | failed error state => cases hResult
  have hSeeded : work.countP Event.isSeeded = 0 := by
    rw [List.countP_eq_zero]
    intro event hEvent
    have hOne := hWork event hEvent
    cases event <;> simp_all [Event.IsWork, Event.isSeeded]
  refine ⟨work, hEvents, hWork, ?_⟩
  rw [hEvents]
  simp [hSeeded, List.countP_map, Function.comp_def,
    Event.isSeeded, Event.added, Parse.finish]

namespace Grammar

/-
  The events of a parse account for its chart. First come
  the seeds, then events of work, of which every step that
  is told of has found something, and last the one that ends
  the parse and shows what it is. The seeds and all that the
  steps have found are as many as the items of the chart.
-/
theorem trace_accounts
    {start : Symbol}
    (hStart : G.isNonterminal start = true)
    {algorithm : Algorithm}
    {limit : Option Nat}
    {words : List Symbol}
    {parse : Parse G}
    (hParse :
      (G.parse algorithm start limit words).result =
        .ok parse) :
    let events := (G.parse algorithm start limit words).events
    ∃ work,
      events =
          (algorithm.seeds G start words).map Event.seeded ++
            work ++
            [.finished parse.chart.size parse.passes
              parse.isRecognised] ∧
        (∀ event ∈ work, event.IsWork) ∧
        events.countP Event.isSeeded +
            (events.map Event.added).sum =
          parse.chart.size := by
  by_cases hAlgorithm : algorithm = .headCorner
  · subst hAlgorithm
    rcases exists_finished_of_parse hStart hParse with
      ⟨last, hRun, hChart⟩
    have hAccounts := @Saturation.accounts_run G
      ⟨words, start, limit⟩
    have hSize :
        (Saturation.run G ⟨words, start,
          limit⟩).state.view.length = parse.chart.size := by
      rw [hRun, hChart]
      simp [Progress.state, Saturation.view,
        Saturation.queue_of_finished hRun, Chart.size]
    rw [hSize] at hAccounts
    exact Outcome.accounts hParse hAccounts
  · rw [parse_eq_sweep hAlgorithm] at hParse ⊢
    rcases exists_of_result_ofProgress hParse with
      ⟨_, _, _, hChart⟩
    have hAccounts := @Sweep.accounts_run G
      ⟨words, start, algorithm.steps, limit⟩
    rw [Sweep.size_begin,
      ← congrArg Chart.size hChart] at hAccounts
    rw [seeds_eq_sweep hAlgorithm]
    exact Outcome.accounts hParse hAccounts

/-
  For the word `b` ten items are accounted for from a goal,
  and five from left to right, which the limit just allows.
-/
theorem repeated_trace :
    repeated.isNonterminal "S" = true ∧
      (∃ outcome parse work,
        outcome =
            repeated.parse .headCorner "S" none ["b"] ∧
          outcome.result = .ok parse ∧
          outcome.events =
            [.seeded ⟨.goal "S" ⟨0, 1⟩, []⟩] ++ work ++
              [.finished 10 parse.passes true] ∧
            outcome.events.countP Event.isSeeded +
              (outcome.events.map Event.added).sum = 10) ∧
      ∃ outcome parse work,
        outcome =
            repeated.parse .earley "S" (some 5) ["b"] ∧
          outcome.result = .ok parse ∧
          outcome.events =
            (Sweep.seeds repeated "S").map Event.seeded ++
              work ++ [.finished 5 parse.passes true] ∧
            outcome.events.countP Event.isSeeded +
              (outcome.events.map Event.added).sum = 5 := by
  have hStart : repeated.isNonterminal "S" = true := by
    decide
  have hShown :
      ∀ {outcome : Outcome repeated} {size recognised},
        (outcome.result.map (fun parse =>
          (parse.chart.size, parse.isRecognised))).toOption =
            some (size, recognised) →
          ∃ parse, outcome.result = .ok parse ∧
            parse.chart.size = size ∧
              parse.isRecognised = recognised := by
    rintro ⟨events, cause | parse⟩ size recognised hShown
    · cases hShown
    · cases hShown
      exact ⟨parse, rfl, rfl, rfl⟩
  refine ⟨hStart, ?_, ?_⟩
  · rcases @hShown
        (repeated.parse .headCorner "S" none ["b"]) 10 true
        (by decide +kernel) with
      ⟨parse, hParse, hSize, hRecognised⟩
    rcases trace_accounts hStart hParse with
      ⟨work, hEvents, _, hSum⟩
    rw [hSize, hRecognised] at hEvents
    rw [hSize] at hSum
    exact ⟨_, parse, work, rfl, hParse, hEvents, hSum⟩
  · rcases @hShown
        (repeated.parse .earley "S" (some 5) ["b"]) 5 true
        (by decide +kernel) with
      ⟨parse, hParse, hSize, hRecognised⟩
    rcases trace_accounts hStart hParse with
      ⟨work, hEvents, _, hSum⟩
    rw [hSize, hRecognised] at hEvents
    rw [hSize] at hSum
    exact ⟨_, parse, work, rfl, hParse, hEvents, hSum⟩

end Grammar

end Constituency
