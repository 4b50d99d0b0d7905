import Constituency.Chart.Agenda

/-
  This file says what the operations on charts and agendas
  do to their views: the list of a chart's items, and the
  queue of an agenda.

  Main declarations:
    * `Chart.endingAt_eq`
    * `Chart.endingAt_append`
    * `Chart.startingAt_eq`
    * `Chart.spanning_eq`
    * `Chart.get?_eq`
    * `Chart.insert?_of_contains`
    * `Chart.insert?_eq_none_iff`
    * `Chart.toList_of_insert?`
    * `Chart.positions_of_insert?`
    * `Chart.insert?_cases`
    * `Agenda.contains_iff`
    * `Agenda.queue_add`
-/

namespace Constituency

------------------------------------------------------------
-- Looking Into a Chart
------------------------------------------------------------

namespace Chart

variable {G : Grammar}

/- At the places of items are these items. -/
theorem collect_placesOf
    (C : Chart G)
    (test : Item G → Bool) :
    C.collect (placesOf C.items test) =
      C.items.toList.filter test := by
  have hMap := congrArg (List.filterMap id)
    (map_placesOf C.items test)
  rw [List.filterMap_map, List.filterMap_map,
    Function.id_comp, Function.id_comp,
    List.filterMap_some] at hMap
  exact hMap

/- The items ending at a position, in admission order. -/
theorem endingAt_eq
    (C : Chart G)
    (position : Nat) :
    C.endingAt position =
      C.items.toList.filter
        (fun item => item.stop = position) := by
  unfold endingAt
  rw [C.files_ends, collect_placesOf]

/- Where items come behind others, rows grow at their ends. -/
theorem endingAt_append
    {C D : Chart G}
    {new : List (Item G)}
    (hItems : D.items.toList = C.items.toList ++ new)
    (position : Nat) :
    D.endingAt position =
      C.endingAt position ++
        new.filter (fun x => x.stop = position) := by
  rw [D.endingAt_eq, C.endingAt_eq, hItems,
    List.filter_append]

/- The items starting at a position, in admission order. -/
theorem startingAt_eq
    (C : Chart G)
    (position : Nat) :
    C.startingAt position =
      C.items.toList.filter
        (fun item => item.start = position) := by
  unfold startingAt
  rw [C.files_starts, collect_placesOf]

/- The items over a span, in admission order. -/
theorem spanning_eq
    (C : Chart G)
    (span : Span) :
    C.spanning span =
      C.items.toList.filter
        (fun item => item.key.span = span) := by
  have hTest :
      (fun item : Item G =>
          decide (item.stop = span.stop ∧
            item.start = span.start)) =
        (fun item => decide (item.key.span = span)) := by
    funext item
    apply decide_eq_decide.mpr
    obtain ⟨start, stop⟩ := span
    cases hSpan : item.key.span with
    | mk itemStart itemStop =>
        simp [Item.start, Item.stop, hSpan, and_comm]
  unfold spanning
  rw [C.files_cells, collect_placesOf, hTest]

/- One item of a position is found by its place. -/
theorem nthEndingAt_eq
    (C : Chart G)
    (position n : Nat) :
    C.nthEndingAt position n =
      (C.endingAt position)[n]? := by
  have hMap := map_placesOf C.items
    (fun item => item.stop = position)
  have hNth := congrArg (fun list => list[n]?.bind id) hMap
  simp only [List.getElem?_map, Option.bind_map,
    Function.id_comp, Option.bind_fun_some] at hNth
  unfold nthEndingAt
  rw [← Array.getElem?_toList, C.files_ends, endingAt_eq]
  exact hNth

/- The item with a key is the one found among the items. -/
theorem get?_eq
    (C : Chart G)
    (key : ItemKey G) :
    C.get? key =
      C.items.toList.find? (fun item => item.key = key) := by
  have hFound := congrArg (fun found => found.bind id)
    (C.map_placeOf? key)
  simp only [Option.bind_map, Function.id_comp,
    Option.bind_fun_some] at hFound
  exact hFound

/- A new chart knows the positions around its words. -/
@[simp] theorem positions_new
    (n : Nat) :
    (Chart.new G n).positions = n + 1 := by
  simp [Chart.new, positions]

------------------------------------------------------------
-- Inserting Into a Chart
------------------------------------------------------------

/- An item whose key is known changes nothing. -/
theorem insert?_of_contains
    (C : Chart G)
    {item : Item G}
    (hKnown : C.contains item.key = true) :
    C.insert? item = some (C, false) := by
  unfold insert?
  split
  · rfl
  · rename_i hNew
    rw [hKnown] at hNew
    cases hNew

/- An item whose key is new is added at the end. -/
theorem insert?_of_new
    (C : Chart G)
    {item : Item G}
    (hNew : C.contains item.key = false)
    (hStart : item.start < max C.positions (item.stop + 1)) :
    C.insert? item = some (C.push item hNew hStart, true) := by
  unfold insert?
  split
  · rename_i hKnown
    rw [hNew] at hKnown
    cases hKnown
  · rw [dif_pos hStart]

/-
  There is no chart exactly when a new item starts beyond
  every position.
-/
theorem insert?_eq_none_iff
    (C : Chart G)
    (item : Item G) :
    C.insert? item = none ↔
      C.contains item.key = false ∧
        max C.positions (item.stop + 1) ≤ item.start := by
  cases hContains : C.contains item.key with
  | true => simp [C.insert?_of_contains hContains]
  | false =>
      by_cases hStart :
          item.start < max C.positions (item.stop + 1)
      · rw [C.insert?_of_new hContains hStart]
        simp only [reduceCtorEq, true_and, false_iff]
        omega
      · unfold insert?
        split
        · rename_i hKnown
          rw [hContains] at hKnown
          cases hKnown
        · rw [dif_neg hStart]
          simp only [true_and, true_iff]
          omega

/- Asking for the key first makes no difference. -/
theorem add?_eq
    (C : Chart G)
    (item : Item G) :
    C.add? item = C.insert? item := by
  unfold add?
  split
  · rename_i hKnown
    rw [C.insert?_of_contains hKnown]
  · rfl

/- Inserting adds the item at the end or changes nothing. -/
theorem toList_of_insert?
    (C : Chart G)
    {item : Item G}
    {C' : Chart G}
    {isNew : Bool}
    (hInsert : C.insert? item = some (C', isNew)) :
    C'.items.toList =
      if isNew then
        C.items.toList ++ [item]
      else
        C.items.toList := by
  unfold insert? at hInsert
  split at hInsert
  · simp only [Option.some.injEq, Prod.mk.injEq] at hInsert
    obtain ⟨rfl, rfl⟩ := hInsert
    rfl
  · split at hInsert
    · simp only [Option.some.injEq, Prod.mk.injEq] at hInsert
      obtain ⟨rfl, rfl⟩ := hInsert
      simp [push]
    · cases hInsert

/- A new item makes the positions up to its stop known. -/
theorem positions_of_insert?
    (C : Chart G)
    {item : Item G}
    {C' : Chart G}
    {isNew : Bool}
    (hInsert : C.insert? item = some (C', isNew)) :
    C'.positions =
      if isNew then
        max C.positions (item.stop + 1)
      else
        C.positions := by
  unfold insert? at hInsert
  split at hInsert
  · simp only [Option.some.injEq, Prod.mk.injEq] at hInsert
    obtain ⟨rfl, rfl⟩ := hInsert
    rfl
  · split at hInsert
    · simp only [Option.some.injEq, Prod.mk.injEq] at hInsert
      obtain ⟨rfl, rfl⟩ := hInsert
      simp [push, positions]
    · cases hInsert

/-
  All that inserting can do: nothing when the key is known,
  and else to add the item and the positions up to its stop.
-/
theorem insert?_cases
    (C : Chart G)
    {item : Item G}
    {C' : Chart G}
    {isNew : Bool}
    (hInsert : C.insert? item = some (C', isNew)) :
    (C.contains item.key = true ∧ isNew = false ∧ C' = C) ∨
      (C.contains item.key = false ∧ isNew = true ∧
        C'.items.toList = C.items.toList ++ [item] ∧
        C'.positions = max C.positions (item.stop + 1)) := by
  cases hContains : C.contains item.key with
  | true =>
      rw [C.insert?_of_contains hContains] at hInsert
      cases hInsert
      exact Or.inl ⟨rfl, rfl, rfl⟩
  | false =>
      have hItems := C.toList_of_insert? hInsert
      have hPositions := C.positions_of_insert? hInsert
      have hStart :
          item.start < max C.positions (item.stop + 1) := by
        have hSome : C.insert? item ≠ none := by
          rw [hInsert]
          simp
        rw [Ne, C.insert?_eq_none_iff, not_and] at hSome
        exact Nat.lt_of_not_le (hSome hContains)
      rw [C.insert?_of_new hContains hStart] at hInsert
      cases hInsert
      exact Or.inr ⟨rfl, rfl, hItems, hPositions⟩

/- An item that was entered as new was inserted as new. -/
theorem insert?_of_enter
    (C : Chart G)
    {item : Item G}
    {C' : Chart G}
    (hEnter : C.enter item = (C', true)) :
    C.insert? item = some (C', true) := by
  unfold enter at hEnter
  cases hInsert : C.insert? item with
  | none =>
      rw [hInsert] at hEnter
      cases hEnter
  | some inserted =>
      rw [hInsert, Option.getD_some] at hEnter
      rw [hEnter]

/- The chart knows the positions where its items stop. -/
theorem stop_lt_positions
    (C : Chart G)
    {item : Item G}
    (hItem : item ∈ C.items.toList) :
    item.stop < C.positions := by
  apply Nat.lt_of_not_le
  intro hBeyond
  have hEnding : item ∈ C.endingAt item.stop := by
    rw [C.endingAt_eq]
    exact List.mem_filter.mpr ⟨hItem, decide_eq_true rfl⟩
  unfold endingAt at hEnding
  rw [C.ends.row_of_size_le hBeyond] at hEnding
  cases hEnding

end Chart

------------------------------------------------------------
-- Agendas
------------------------------------------------------------

namespace Agenda

variable {G : Grammar}

/- An agenda contains the keys of its queue. -/
theorem contains_iff
    (A : Agenda G)
    (key : ItemKey G) :
    A.contains key = true ↔
      key ∈ A.queue.map Item.key := by
  unfold contains queue
  rw [List.contains_iff_mem]
  exact A.mem_pending_iff key

/- Nothing is queued in the empty agenda. -/
@[simp] theorem queue_empty :
    (Agenda.empty G).queue = [] :=
  rfl

/- Pushing adds the item at the end of the queue. -/
theorem queue_push
    (A : Agenda G)
    (item : Item G)
    (hNew : A.contains item.key = false) :
    (A.push item hNew).queue = A.queue ++ [item] := by
  simp [push, queue]

/-
  Adding an item puts it at the end of the queue exactly
  when neither store has its key.
-/
theorem queue_add
    (A : Agenda G)
    (C : Chart G)
    (item : Item G) :
    (A.add C item).1.queue =
      if (A.add C item).2 then
        A.queue ++ [item]
      else
        A.queue := by
  unfold add
  split
  · rfl
  · split
    · rfl
    · rename_i hNew
      exact A.queue_push item hNew

/- An item is queued when neither store has its key. -/
theorem add_snd
    (A : Agenda G)
    (C : Chart G)
    (item : Item G) :
    (A.add C item).2 =
      (!C.contains item.key && !A.contains item.key) := by
  unfold add
  split
  · rename_i hChart
    simp [hChart]
  · rename_i hChart
    split
    · rename_i hAgenda
      simp [hAgenda]
    · rename_i hAgenda
      simp [hChart, hAgenda]

end Agenda

end Constituency
