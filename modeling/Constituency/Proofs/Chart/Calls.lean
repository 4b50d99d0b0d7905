import Constituency.Chart.Lemmas
import Constituency.Proofs.Derivation.Yield
import Mathlib.Order.Bounds.Basic

/-
  This file says what a chart comes to by any calls that put
  items into it, be they well-formed or not. The chart keeps
  the first item of each key, its tables agree with the
  items that it keeps, and there is one way to go wrong: an
  item with a new key that starts too late.

  Key definitions include:
    * `Chart.KnowsUpTo`
    * `Chart.Call`
    * `Chart.Call.perform?`
    * `Chart.performAll?`
    * `Chart.Admits`

  Main declarations:
    * `Chart.Admits.perform?`
    * `Chart.Admits.performAll?`
    * `Grammar.chart_files_calls`
    * `Grammar.repeated_calls`
-/

namespace Constituency

variable {G : Grammar}

namespace Chart

------------------------------------------------------------
-- Positions
------------------------------------------------------------

/-
  The chart knows the positions around `n` words, and beyond
  them none but those up to the stop of an item.
-/
structure KnowsUpTo
    (n : Nat)
    (C : Chart G) : Prop where
  le_positions : n + 1 ≤ C.positions
  reached : C.positions = n + 1 ∨
    ∃ x ∈ C.items.toList, C.positions = x.stop + 1

namespace KnowsUpTo

variable {n : Nat}
variable {C : Chart G}

theorem new :
    KnowsUpTo n (Chart.new G n) where
  le_positions := by simp
  reached := by simp

/- A new item brings the positions up to its stop. -/
theorem insert?
    (hC : KnowsUpTo n C)
    {item : Item G}
    {later : Chart G}
    {isNew : Bool}
    (hInsert : C.insert? item = some (later, isNew)) :
    KnowsUpTo n later := by
  rcases C.insert?_cases hInsert with
    ⟨_, _, rfl⟩ | ⟨_, _, hItems, hPositions⟩
  · exact hC
  · refine ⟨?_, ?_⟩
    · rw [hPositions]
      exact Nat.le_trans hC.le_positions
        (Nat.le_max_left _ _)
    · rw [hPositions, hItems]
      rcases Nat.le_total (item.stop + 1) C.positions
        with hBefore | hBeyond
      · rw [Nat.max_eq_left hBefore]
        rcases hC.reached with hNone | hSome
        · exact Or.inl hNone
        · rcases hSome with ⟨x, hx, hStop⟩
          exact Or.inr
            ⟨x, List.mem_append_left _ hx, hStop⟩
      · rw [Nat.max_eq_right hBeyond]
        exact Or.inr ⟨item, by simp, rfl⟩

theorem enter
    (hC : KnowsUpTo n C)
    (item : Item G) :
    KnowsUpTo n (C.enter item).1 := by
  unfold Chart.enter
  cases hInsert : C.insert? item with
  | none => exact hC
  | some inserted => exact hC.insert? hInsert

/- Items inside the words bring no positions. -/
theorem positions_eq
    (hC : KnowsUpTo n C)
    (hStops : ∀ x ∈ C.items.toList, x.stop ≤ n) :
    C.positions = n + 1 := by
  have hBound := hC.le_positions
  rcases hC.reached with hNone | hSome
  · exact hNone
  · rcases hSome with ⟨x, hx, hStop⟩
    have hInside := hStops x hx
    omega

/-
  The number of positions is the greatest one that the words
  or the items need.
-/
theorem isGreatest
    (hC : KnowsUpTo n C) :
    IsGreatest
      {count | count = n + 1 ∨
        ∃ x ∈ C.items.toList, count = x.stop + 1}
      C.positions := by
  refine ⟨hC.reached, ?_⟩
  rintro count (rfl | ⟨x, hx, rfl⟩)
  · exact hC.le_positions
  · exact C.stop_lt_positions hx

end KnowsUpTo

------------------------------------------------------------
-- Calls
------------------------------------------------------------

/- The two ways of putting an item into a chart. -/
inductive Call (G : Grammar) where
  | add (item : Item G)
  | insert (item : Item G)

namespace Call

/- The item that is offered. -/
def item : Call G → Item G
  | add item => item
  | insert item => item

/- The chart after the call, and the answer to it. -/
def perform?
    (C : Chart G) : Call G → Option (Chart G × Bool)
  | add item => C.add? item
  | insert item => C.insert? item

/- Both ways come to the same. -/
theorem perform?_eq
    (C : Chart G)
    (call : Call G) :
    call.perform? C = C.insert? call.item := by
  cases call with
  | add item => exact C.add?_eq item
  | insert item => rfl

end Call

/-
  The chart after some calls, and the answers to them. There
  is none if one of the calls goes wrong.
-/
def performAll?
    (C : Chart G) :
    List (Call G) → Option (Chart G × List Bool)
  | [] => some (C, [])
  | call :: calls =>
      match call.perform? C with
      | none => none
      | some (next, isNew) =>
          (next.performAll? calls).map
            (fun result => (result.1, isNew :: result.2))

------------------------------------------------------------
-- What Is Admitted
------------------------------------------------------------

/-
  The chart was made for `n` words and keeps of the offered
  items those that were answered by `true`: the first ones
  of each key.
-/
structure Admits
    (n : Nat)
    (offered : List (Item G))
    (answers : List Bool)
    (C : Chart G) : Prop where
  length : answers.length = offered.length
  admitted_iff : ∀ k item, offered[k]? = some item →
    (answers[k]? = some true ↔
      ∀ earlier ∈ offered.take k, earlier.key ≠ item.key)
  items : C.items.toList =
    ((offered.zip answers).filter Prod.snd).map Prod.fst
  first : ∀ key,
    C.items.toList.find? (fun item => item.key = key) =
      offered.find? (fun item => item.key = key)
  positions : KnowsUpTo n C

namespace Admits

variable {n : Nat}
variable {offered : List (Item G)}
variable {answers : List Bool}
variable {C : Chart G}

theorem new :
    Admits n [] [] (Chart.new G n) where
  length := rfl
  admitted_iff := by simp
  items := rfl
  first := fun _ => rfl
  positions := .new

/- A key is known when an item with it was offered. -/
theorem contains_iff
    (hC : Admits n offered answers C)
    (key : ItemKey G) :
    C.contains key = true ↔ ∃ x ∈ offered, x.key = key := by
  have hSome :
      (C.items.toList.find?
          (fun item => item.key = key)).isSome = true ↔
        (offered.find?
          (fun item => item.key = key)).isSome = true := by
    rw [hC.first]
  rw [List.find?_isSome, List.find?_isSome] at hSome
  simp only [decide_eq_true_eq] at hSome
  rw [C.contains_iff, List.mem_map, hSome]

section Call

variable {call : Call G}
variable {next : Chart G}
variable {isNew : Bool}

/- An item is admitted when its key was not offered before. -/
theorem answer_iff
    (hC : Admits n offered answers C)
    (hCall : call.perform? C = some (next, isNew)) :
    isNew = true ↔
      ∀ earlier ∈ offered, earlier.key ≠ call.item.key := by
  rw [call.perform?_eq] at hCall
  have hKnown := hC.contains_iff call.item.key
  rcases C.insert?_cases hCall with
    ⟨hContains, rfl, _⟩ | ⟨hContains, rfl, _⟩
  · rcases hKnown.mp hContains with ⟨x, hx, hKey⟩
    constructor
    · intro hFalse
      cases hFalse
    · intro hNone
      exact absurd hKey (hNone x hx)
  · constructor
    · intro _ x hx hKey
      rw [hKnown.mpr ⟨x, hx, hKey⟩] at hContains
      cases hContains
    · exact fun _ => rfl

/- Of each key the chart still keeps the first item. -/
theorem first_perform?
    (hC : Admits n offered answers C)
    (hCall : call.perform? C = some (next, isNew))
    (key : ItemKey G) :
    next.items.toList.find? (fun item => item.key = key) =
      (offered ++ [call.item]).find?
        (fun item => item.key = key) := by
  rw [call.perform?_eq] at hCall
  rcases C.insert?_cases hCall with
    ⟨hContains, _, rfl⟩ | ⟨_, _, hItems, _⟩
  · rw [hC.first, List.find?_append]
    rcases (hC.contains_iff call.item.key).mp hContains with
      ⟨x, hx, hKey⟩
    by_cases hSame : call.item.key = key
    · subst hSame
      have hSome :
          (offered.find? (fun item =>
            item.key = call.item.key)).isSome :=
        List.find?_isSome.mpr ⟨x, hx, decide_eq_true hKey⟩
      rw [Option.or_of_isSome hSome]
    · simp [hSame]
  · rw [hItems, List.find?_append, List.find?_append,
      hC.first]

/- Its items are those that were answered by `true`. -/
theorem items_perform?
    (hC : Admits n offered answers C)
    (hCall : call.perform? C = some (next, isNew)) :
    next.items.toList =
      (((offered ++ [call.item]).zip
        (answers ++ [isNew])).filter Prod.snd).map
          Prod.fst := by
  rw [call.perform?_eq] at hCall
  have hZip :
      (offered ++ [call.item]).zip (answers ++ [isNew]) =
        offered.zip answers ++ [(call.item, isNew)] := by
    rw [List.zip_append hC.length.symm]
    rfl
  rw [hZip, List.filter_append, List.map_append, ← hC.items]
  rcases C.insert?_cases hCall with
    ⟨_, rfl, rfl⟩ | ⟨_, rfl, hItems, _⟩
  · simp
  · simpa using hItems

/- A call admits its item or changes nothing. -/
theorem perform?
    (hC : Admits n offered answers C)
    (hCall : call.perform? C = some (next, isNew)) :
    Admits n (offered ++ [call.item]) (answers ++ [isNew])
      next where
  length := by simp [hC.length]
  admitted_iff := by
    intro k item hItem
    rcases Nat.lt_trichotomy k offered.length with
      hBefore | hLast | hBeyond
    · rw [List.getElem?_append_left hBefore] at hItem
      rw [List.getElem?_append_left (hC.length ▸ hBefore),
        List.take_append_of_le_length (Nat.le_of_lt hBefore)]
      exact hC.admitted_iff k item hItem
    · subst hLast
      rw [List.getElem?_append_right (Nat.le_refl _),
        Nat.sub_self] at hItem
      cases hItem
      rw [List.getElem?_append_right
          (Nat.le_of_eq hC.length), hC.length, Nat.sub_self,
        List.take_left]
      simpa using hC.answer_iff hCall
    · rw [List.getElem?_eq_none (by simp; omega)] at hItem
      cases hItem
  items := hC.items_perform? hCall
  first := hC.first_perform? hCall
  positions :=
    hC.positions.insert? (call.perform?_eq C ▸ hCall)

end Call

/- Calls admit the items that are offered, one by one. -/
theorem performAll?
    (hC : Admits n offered answers C)
    {calls : List (Call G)}
    {last : Chart G}
    {more : List Bool}
    (hCalls : C.performAll? calls = some (last, more)) :
    Admits n (offered ++ calls.map Call.item)
      (answers ++ more) last := by
  induction calls generalizing offered answers C more with
  | nil =>
      cases hCalls
      simpa using hC
  | cons call calls ih =>
      unfold Chart.performAll? at hCalls
      cases hCall : call.perform? C with
      | none =>
          rw [hCall] at hCalls
          cases hCalls
      | some result =>
          rcases result with ⟨next, isNew⟩
          rw [hCall] at hCalls
          rcases Option.map_eq_some_iff.mp hCalls with
            ⟨⟨final, rest⟩, hRest, hSame⟩
          cases hSame
          have hAll := ih (hC.perform? hCall) hRest
          rwa [List.append_assoc, List.append_assoc] at hAll

end Admits

end Chart

namespace Grammar

/-
  Whatever is put into a chart, and however, the chart keeps
  the first item of each key in the order of the calls. All
  ways of looking items up agree with what it keeps, and the
  positions are those of the words and of the stops. A
  further call goes wrong exactly when its key is new and
  its item starts beyond every position; else it adds its
  item or, when its key is known, changes nothing.
-/
theorem chart_files_calls
    {n : Nat}
    {calls : List (Chart.Call G)}
    {C : Chart G}
    {answers : List Bool}
    (hCalls :
      (Chart.new G n).performAll? calls =
        some (C, answers)) :
    let offered := calls.map Chart.Call.item
    C.Admits n offered answers ∧
      (C.items.toList.map Item.key).Nodup ∧
      (∀ key,
        C.get? key =
            offered.find? (fun item => item.key = key) ∧
          (C.contains key = true ↔
            ∃ item ∈ offered, item.key = key)) ∧
      (∀ p,
        C.endingAt p = C.items.toList.filter
            (fun item => item.stop = p) ∧
          C.startingAt p = C.items.toList.filter
            (fun item => item.start = p) ∧
          ∀ k, C.nthEndingAt p k = (C.endingAt p)[k]?) ∧
      (∀ span,
        C.spanning span = C.items.toList.filter
          (fun item => item.key.span = span)) ∧
      IsGreatest
        {count | count = n + 1 ∨
          ∃ item ∈ C.items.toList, count = item.stop + 1}
        C.positions ∧
      ∀ call : Chart.Call G,
        (call.perform? C = none ↔
          C.contains call.item.key = false ∧
            max C.positions (call.item.stop + 1) ≤
              call.item.start) ∧
        ∀ next isNew,
          call.perform? C = some (next, isNew) →
            (C.contains call.item.key = true ∧
                isNew = false ∧ next = C) ∨
              (C.contains call.item.key = false ∧
                isNew = true ∧ next.items.toList =
                  C.items.toList ++ [call.item]) := by
  intro offered
  have hC : C.Admits n offered answers := by
    have hAll := Chart.Admits.new.performAll? hCalls
    rwa [List.nil_append, List.nil_append] at hAll
  refine ⟨hC, C.nodup_keys, ?_, ?_, C.spanning_eq,
    hC.positions.isGreatest, ?_⟩
  · intro key
    exact ⟨(C.get?_eq key).trans (hC.first key),
      hC.contains_iff key⟩
  · intro p
    exact ⟨C.endingAt_eq p, C.startingAt_eq p,
      C.nthEndingAt_eq p⟩
  · intro call
    rw [call.perform?_eq]
    refine ⟨C.insert?_eq_none_iff call.item, ?_⟩
    intro next isNew hCall
    rcases C.insert?_cases hCall with
      hOld | ⟨hContains, hAnswer, hItems, _⟩
    · exact Or.inl hOld
    · exact Or.inr ⟨hContains, hAnswer, hItems⟩

/-
  An item over `[1,0)` can be filed among two positions and
  is found again. The goal makes four positions known; an
  item that starts at the fifth one cannot be filed.
-/
theorem repeated_calls :
    let reversed : Item repeated :=
      ⟨.double ⟨0, by decide⟩ 0 2 ⟨1, 0⟩, []⟩
    let goal : Item repeated := ⟨.goal "S" ⟨0, 3⟩, []⟩
    let late : Item repeated :=
      ⟨.double ⟨0, by decide⟩ 0 2 ⟨4, 0⟩, []⟩
    ∃ C,
      (Chart.new repeated 1).performAll?
          [.insert reversed, .add goal,
            .add ⟨reversed.key, [goal]⟩] =
        some (C, [true, true, false]) ∧
      C.get? reversed.key = some reversed ∧
        C.endingAt 0 = C.items.toList.filter
          (fun item => item.stop = 0) ∧
        (Chart.Call.insert late).perform? C = none := by
  intro reversed goal late
  let calls : List (Chart.Call repeated) :=
    [.insert reversed, .add goal,
      .add ⟨reversed.key, [goal]⟩]
  have hRun :
      ((Chart.new repeated 1).performAll? calls).map
          (fun result =>
            (result.1.positions, result.2)) =
        some (4, [true, true, false]) := by
    decide +kernel
  rcases Option.map_eq_some_iff.mp hRun with
    ⟨⟨C, answers⟩, hCalls, hResult⟩
  obtain ⟨hPositions, rfl⟩ := Prod.mk.inj hResult
  rcases chart_files_calls hCalls with
    ⟨_, _, hKeys, hEnds, _, _, hFurther⟩
  refine ⟨C, hCalls, (hKeys reversed.key).1, (hEnds 0).1, ?_⟩
  apply (hFurther (.insert late)).1.mpr
  constructor
  · cases hLate : C.contains late.key with
    | false => exact hLate
    | true =>
        have hOffered := (hKeys late.key).2.mp hLate
        exact absurd hOffered (by decide)
  · have hKnown : C.positions = 4 := hPositions
    rw [hKnown]
    decide

end Grammar

end Constituency
