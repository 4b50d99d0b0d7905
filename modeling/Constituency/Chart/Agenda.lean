import Constituency.Chart.Basic

/-
  This file defines agendas: items waiting to be combined
  with a chart, first in, first out. An item is queued only
  if neither the chart nor the queue has its key.

  Key definitions include:
    * `Agenda`
    * `Agenda.queue`
    * `Agenda.empty`
    * `Agenda.add`
    * `Agenda.pop?`
-/

namespace Constituency

/-
  A queue in two halves, the back one reversed, and the set
  of the keys that are queued.
-/
structure Agenda (G : Grammar) where
  front : List (Item G)
  back : List (Item G)
  pending : List (ItemKey G)
  mem_pending_iff : ∀ key,
    key ∈ pending ↔
      key ∈ (front ++ back.reverse).map Item.key
  nodup_pending : pending.Nodup
  nodup_keys :
    ((front ++ back.reverse).map Item.key).Nodup

namespace Agenda

variable {G : Grammar}

/- The waiting items in the order in which they will leave. -/
def queue
    (A : Agenda G) : List (Item G) :=
  A.front ++ A.back.reverse

/- How many items are waiting. -/
def size
    (A : Agenda G) : Nat :=
  A.front.length + A.back.length

/- Nothing is waiting. -/
def empty
    (G : Grammar) : Agenda G where
  front := []
  back := []
  pending := []
  mem_pending_iff := by simp
  nodup_pending := by simp
  nodup_keys := by simp

/- An item with the key is waiting. -/
def contains
    (A : Agenda G)
    (key : ItemKey G) : Bool :=
  A.pending.contains key

/- Put an item whose key is not waiting at the end. -/
def push
    (A : Agenda G)
    (item : Item G)
    (hNew : A.contains item.key = false) : Agenda G where
  front := A.front
  back := item :: A.back
  pending := item.key :: A.pending
  mem_pending_iff := by
    intro key
    have hMember := A.mem_pending_iff key
    simp only [List.mem_cons, hMember, List.map_append,
      List.mem_append, List.reverse_cons, List.map_cons,
      List.map_nil, List.not_mem_nil, or_false]
    exact ⟨fun h => h.elim
        (fun h => Or.inr (Or.inr h))
        (fun h => h.elim Or.inl (fun h => Or.inr (Or.inl h))),
      fun h => h.elim (fun h => Or.inr (Or.inl h))
        (fun h => h.elim (fun h => Or.inr (Or.inr h))
          Or.inl)⟩
  nodup_pending := by
    refine List.nodup_cons.mpr ⟨?_, A.nodup_pending⟩
    simpa [contains] using hNew
  nodup_keys := by
    have hAbsent :
        item.key ∉
          (A.front ++ A.back.reverse).map Item.key := by
      rw [← A.mem_pending_iff]
      simpa [contains] using hNew
    rw [List.reverse_cons, ← List.append_assoc,
      List.map_append]
    rw [List.nodup_append]
    refine ⟨A.nodup_keys, by simp, ?_⟩
    rintro key hKey _ hLast rfl
    simp only [List.map_cons, List.map_nil,
      List.mem_singleton] at hLast
    exact hAbsent (hLast ▸ hKey)

/-
  Queue an item unless the chart or the queue knows its key,
  and say whether it was queued.
-/
def add
    (A : Agenda G)
    (C : Chart G)
    (item : Item G) : Agenda G × Bool :=
  if C.contains item.key then
    (A, false)
  else
    match hNew : A.contains item.key with
    | true => (A, false)
    | false => (A.push item hNew, true)

/- Take the first item of a queue that begins with it. -/
def popFrom
    (A : Agenda G)
    (item : Item G)
    (front back : List (Item G))
    (hQueue : A.queue = item :: (front ++ back.reverse)) :
    Agenda G where
  front := front
  back := back
  pending := A.pending.erase item.key
  mem_pending_iff := by
    intro key
    have hNodup := A.nodup_keys
    have hMember := A.mem_pending_iff key
    change (A.queue.map Item.key).Nodup at hNodup
    change key ∈ A.pending ↔
      key ∈ A.queue.map Item.key at hMember
    rw [hQueue, List.map_cons, List.nodup_cons] at hNodup
    rw [hQueue, List.map_cons, List.mem_cons] at hMember
    rw [A.nodup_pending.mem_erase_iff, hMember]
    constructor
    · rintro ⟨hOther, hSame | hRest⟩
      · exact absurd hSame hOther
      · exact hRest
    · intro hRest
      refine ⟨?_, Or.inr hRest⟩
      rintro rfl
      exact hNodup.1 hRest
  nodup_pending := A.nodup_pending.erase item.key
  nodup_keys := by
    have hNodup := A.nodup_keys
    change (A.queue.map Item.key).Nodup at hNodup
    rw [hQueue, List.map_cons, List.nodup_cons] at hNodup
    exact hNodup.2

/- Take the item that has waited longest. -/
def pop?
    (A : Agenda G) : Option (Item G × Agenda G) :=
  match hFront : A.front with
  | item :: front =>
      some (item, A.popFrom item front A.back
        (by simp [queue, hFront]))
  | [] =>
      match hBack : A.back.reverse with
      | item :: front =>
          some (item, A.popFrom item front []
            (by simp [queue, hFront, hBack]))
      | [] => none

/- Popping splits the queue at its first item. -/
theorem pop?_eq_some
    (A : Agenda G)
    {item : Item G}
    {A' : Agenda G}
    (hPop : A.pop? = some (item, A')) :
    A.queue = item :: A'.queue := by
  unfold pop? at hPop
  split at hPop
  · rename_i hFront
    simp only [Option.some.injEq, Prod.mk.injEq] at hPop
    obtain ⟨rfl, rfl⟩ := hPop
    simp [queue, hFront, popFrom]
  · rename_i hFront
    split at hPop
    · rename_i hBack
      simp only [Option.some.injEq, Prod.mk.injEq] at hPop
      obtain ⟨rfl, rfl⟩ := hPop
      simp [queue, hFront, hBack, popFrom]
    · simp at hPop

/- Nothing is popped exactly when nothing is waiting. -/
theorem pop?_eq_none_iff
    (A : Agenda G) :
    A.pop? = none ↔ A.queue = [] := by
  unfold pop? queue
  split
  · rename_i hFront
    simp [hFront]
  · rename_i hFront
    split
    · rename_i hBack
      simp [hBack]
    · rename_i hBack
      simp [hFront, hBack]

end Agenda

end Constituency
