import Constituency.Chart.Lemmas
import Constituency.Inference.Offer
import Mathlib.Data.List.Nodup

/-
  This file says what delivering offers does to a store: new
  items come behind the old ones, and afterwards the key of
  every offered item is known.

  Key definitions include:
    * `Delivery`
    * `Chart.ofItems`

  Main declarations:
    * `Delivery.nodup`
    * `Offers.deliver_of_ok`
    * `Offers.deliver_of_known`
    * `Chart.enterAll_of_ok`
    * `Chart.ofItems_spec`
    * `Agenda.addAll_of_ok`
    * `Chart.get?_eq_some_iff`
-/

namespace Constituency

variable {G : Grammar}

------------------------------------------------------------
-- Delivering Offers
------------------------------------------------------------

/-
  What offers turn into when they are delivered to old
  items: new items with new keys, so that no offered key is
  missing.
-/
structure Delivery
    (offers : Offers G)
    (old new : List (Item G)) : Prop where
  offered : ∀ x ∈ new, .ok x ∈ offers
  known : ∀ x, .ok x ∈ offers →
    x.key ∈ (old ++ new).map Item.key
  fresh : ∀ x ∈ new, x.key ∉ old.map Item.key
  distinct : (new.map Item.key).Nodup

namespace Delivery

variable {offers : Offers G}
variable {old new : List (Item G)}
variable {item : Item G}

theorem nil :
    Delivery ([] : Offers G) old [] where
  offered := by simp
  known := by simp
  fresh := by simp
  distinct := by simp

/- An offer with a known key brings nothing new. -/
theorem cons_of_mem
    (hKey : item.key ∈ old.map Item.key)
    (hRest : Delivery offers old new) :
    Delivery (.ok item :: offers) old new where
  offered := by
    intro x hx
    exact List.mem_cons_of_mem _ (hRest.offered x hx)
  known := by
    intro x hx
    rcases List.mem_cons.mp hx with hFirst | hLater
    · cases hFirst
      rw [List.map_append]
      exact List.mem_append_left _ hKey
    · exact hRest.known x hLater
  fresh := hRest.fresh
  distinct := hRest.distinct

/- An offer with a new key comes behind the old items. -/
theorem cons_of_not_mem
    (hKey : item.key ∉ old.map Item.key)
    (hRest : Delivery offers (old ++ [item]) new) :
    Delivery (.ok item :: offers) old (item :: new) where
  offered := by
    intro x hx
    rcases List.mem_cons.mp hx with rfl | hLater
    · exact List.mem_cons_self
    · exact List.mem_cons_of_mem _ (hRest.offered x hLater)
  known := by
    intro x hx
    rcases List.mem_cons.mp hx with hFirst | hLater
    · cases hFirst
      simp
    · have hKnown := hRest.known x hLater
      rwa [List.append_assoc, List.singleton_append]
        at hKnown
  fresh := by
    intro x hx hOld
    rcases List.mem_cons.mp hx with rfl | hLater
    · exact hKey hOld
    · apply hRest.fresh x hLater
      rw [List.map_append]
      exact List.mem_append_left _ hOld
  distinct := by
    rw [List.map_cons, List.nodup_cons]
    refine ⟨?_, hRest.distinct⟩
    intro hAgain
    rcases List.mem_map.mp hAgain with ⟨x, hx, hSame⟩
    apply hRest.fresh x hx
    simp [hSame]

/- A delivery repeats no key unless the old items did. -/
theorem nodup
    (hDelivery : Delivery offers old new)
    (hOld : (old.map Item.key).Nodup) :
    ((old ++ new).map Item.key).Nodup := by
  rw [List.map_append, List.nodup_append]
  refine ⟨hOld, hDelivery.distinct, ?_⟩
  rintro key hKey _ hNew rfl
  rcases List.mem_map.mp hNew with ⟨x, hx, rfl⟩
  exact hDelivery.fresh x hx hKey

end Delivery

namespace Offers

variable {σ : Type}
variable {put : σ → Item G → σ × Bool}
variable {view : σ → List (Item G)}
variable (hKnown : ∀ store item,
  item.key ∈ (view store).map Item.key →
    put store item = (store, false))

/- Delivery does not go through when an offer is an error. -/
theorem exists_ok_of_deliver
    {offers : Offers G}
    {store later : σ}
    {count total : Nat}
    (hDeliver :
      offers.deliver put store count = (later, .ok total)) :
    ∀ offer ∈ offers, ∃ item, offer = .ok item := by
  induction offers generalizing store count with
  | nil => exact List.forall_mem_nil _
  | cons offer offers ih =>
      cases offer with
      | error cause => cases hDeliver
      | ok item =>
          rw [List.forall_mem_cons]
          refine ⟨⟨item, rfl⟩, ?_⟩
          unfold deliver at hDeliver
          split at hDeliver
          · exact ih hDeliver
          · exact ih hDeliver

include hKnown

/-
  Delivery goes through when no offer is an error and each
  fits the store. The store is seen through the row of its
  items; it leaves known keys alone and puts new items
  behind the others.
-/
theorem deliver_of_ok
    {fits : Item G → Prop}
    (hNew : ∀ store item, fits item →
      item.key ∉ (view store).map Item.key →
        ∃ later, put store item = (later, true) ∧
          view later = view store ++ [item])
    (offers : Offers G)
    (hOffers : ∀ offer ∈ offers,
      ∃ item, offer = .ok item ∧ fits item)
    (store : σ)
    (count : Nat) :
    ∃ later new,
      offers.deliver put store count =
          (later, .ok (count + new.length)) ∧
        view later = view store ++ new ∧
          Delivery offers (view store) new := by
  induction offers generalizing store count with
  | nil =>
      exact ⟨store, [], rfl, (List.append_nil _).symm,
        Delivery.nil⟩
  | cons offer offers ih =>
      have hRest : ∀ offer ∈ offers,
          ∃ item, offer = .ok item ∧ fits item :=
        fun offer hOffer =>
          hOffers offer (List.mem_cons_of_mem _ hOffer)
      rcases hOffers offer List.mem_cons_self with
        ⟨item, rfl, hFits⟩
      by_cases hKey : item.key ∈ (view store).map Item.key
      · rcases ih hRest store count with
          ⟨later, new, hDeliver, hView, hDelivery⟩
        refine ⟨later, new, ?_, hView,
          hDelivery.cons_of_mem hKey⟩
        simp only [deliver, hKnown store item hKey]
        exact hDeliver
      · rcases hNew store item hFits hKey with
          ⟨next, hPut, hNext⟩
        rcases ih hRest next (count + 1) with
          ⟨later, new, hDeliver, hView, hDelivery⟩
        rw [hNext] at hView hDelivery
        refine ⟨later, item :: new, ?_, ?_,
          hDelivery.cons_of_not_mem hKey⟩
        · simp only [deliver, hPut]
          rw [hDeliver, List.length_cons]
          congr 2
          omega
        · rw [hView, List.append_assoc,
            List.singleton_append]

/- Offers whose keys are all known leave the store alone. -/
theorem deliver_of_known
    {offers : Offers G}
    {store : σ}
    (hOffers : ∀ offer ∈ offers, ∃ item,
      offer = .ok item ∧
        item.key ∈ (view store).map Item.key)
    (count : Nat) :
    offers.deliver put store count = (store, .ok count) := by
  induction offers with
  | nil => rfl
  | cons offer offers ih =>
      rcases hOffers offer List.mem_cons_self with
        ⟨item, rfl, hKey⟩
      simp only [deliver, hKnown store item hKey]
      exact ih (fun other hOther =>
        hOffers other (List.mem_cons_of_mem _ hOther))

end Offers

------------------------------------------------------------
-- Charts
------------------------------------------------------------

namespace Chart

theorem nodup_items
    (C : Chart G) :
    C.items.toList.Nodup :=
  .of_map Item.key C.nodup_keys

/- The items of a chart are told by their keys. -/
theorem eq_of_key_eq
    (C : Chart G)
    {x y : Item G}
    (hx : x ∈ C.items.toList)
    (hy : y ∈ C.items.toList)
    (hKey : x.key = y.key) :
    x = y :=
  List.inj_on_of_nodup_map C.nodup_keys hx hy hKey

/- A chart leaves items with known keys out. -/
theorem enter_of_mem
    (C : Chart G)
    {item : Item G}
    (hKey : item.key ∈ C.items.toList.map Item.key) :
    C.enter item = (C, false) := by
  rw [← C.contains_iff] at hKey
  unfold enter
  rw [C.insert?_of_contains hKey]
  rfl

/- A chart takes an item with a new key. -/
theorem enter_of_not_mem
    (C : Chart G)
    {item : Item G}
    (hSpan : item.start ≤ item.stop)
    (hKey : item.key ∉ C.items.toList.map Item.key) :
    ∃ later, C.enter item = (later, true) ∧
      later.items.toList = C.items.toList ++ [item] := by
  rw [← C.contains_iff, Bool.not_eq_true] at hKey
  have hStart :
      item.start < max C.positions (item.stop + 1) := by
    omega
  have hInsert := C.insert?_of_new hKey hStart
  refine ⟨C.push item hKey hStart, ?_, ?_⟩
  · unfold enter
    rw [hInsert]
    rfl
  · exact C.toList_of_insert? hInsert

/- All offers can be entered when none is an error. -/
theorem enterAll_of_ok
    (C : Chart G)
    {offers : Offers G}
    (hOffers : ∀ offer ∈ offers,
      ∃ item, offer = .ok item ∧ item.start ≤ item.stop) :
    ∃ later new,
      C.enterAll offers = (later, .ok new.length) ∧
        later.items.toList = C.items.toList ++ new ∧
          Delivery offers C.items.toList new := by
  rcases @Offers.deliver_of_ok G (Chart G) Chart.enter
      (fun C => C.items.toList)
      (fun C _ hKey => C.enter_of_mem hKey)
      (fun item => item.start ≤ item.stop)
      (fun C _ hSpan hKey => C.enter_of_not_mem hSpan hKey)
      offers hOffers C 0 with
    ⟨later, new, hDeliver, hView, hDelivery⟩
  rw [Nat.zero_add] at hDeliver
  exact ⟨later, new, hDeliver, hView, hDelivery⟩

/- A chart of items for `n` words, the first of each key. -/
def ofItems
    (n : Nat)
    (items : List (Item G)) : Chart G :=
  ((Chart.new G n).enterAll (items.map .ok)).1

/- Such a chart has no other items, and all their keys. -/
theorem ofItems_spec
    (n : Nat)
    {items : List (Item G)}
    (hSpans : ∀ x ∈ items, x.start ≤ x.stop) :
    (ofItems n items).items.toList ⊆ items ∧
      ∀ x ∈ items,
        x.key ∈ (ofItems n items).items.toList.map
          Item.key := by
  have hOk :
      ∀ offer ∈ (items.map .ok : Offers G),
        ∃ x, offer = .ok x ∧ x.start ≤ x.stop := by
    intro offer hOffer
    rcases List.mem_map.mp hOffer with ⟨x, hx, hSame⟩
    exact ⟨x, hSame.symm, hSpans x hx⟩
  rcases (Chart.new G n).enterAll_of_ok hOk with
    ⟨C, new, hEnter, hItems, hDelivery⟩
  have hNone : (Chart.new G n).items.toList = [] := rfl
  rw [hNone] at hItems hDelivery
  rw [List.nil_append] at hItems
  rw [ofItems, hEnter, hItems]
  constructor
  · intro x hx
    simpa using hDelivery.offered x hx
  · intro x hx
    exact hDelivery.known x (List.mem_map_of_mem hx)

/- A chart finds exactly its items under their keys. -/
theorem get?_eq_some_iff
    (C : Chart G)
    {key : ItemKey G}
    {item : Item G} :
    C.get? key = some item ↔
      item ∈ C.items.toList ∧ item.key = key := by
  rw [C.get?_eq]
  constructor
  · intro hFind
    have hKey := List.find?_some hFind
    exact ⟨List.mem_of_find?_eq_some hFind,
      of_decide_eq_true hKey⟩
  · rintro ⟨hItem, rfl⟩
    cases hFind : C.items.toList.find?
        (fun other => other.key = item.key) with
    | none =>
        exact absurd (decide_eq_true rfl)
          (List.find?_eq_none.mp hFind item hItem)
    | some other =>
        have hKey := List.find?_some hFind
        rw [C.eq_of_key_eq
          (List.mem_of_find?_eq_some hFind) hItem
          (of_decide_eq_true hKey)]

end Chart

------------------------------------------------------------
-- Agendas
------------------------------------------------------------

namespace Agenda

/- An agenda leaves items with known keys out. -/
theorem add_of_mem
    (A : Agenda G)
    (C : Chart G)
    {item : Item G}
    (hKey :
      item.key ∈ (C.items.toList ++ A.queue).map Item.key) :
    A.add C item = (A, false) := by
  rw [List.map_append, List.mem_append, ← C.contains_iff,
    ← A.contains_iff] at hKey
  unfold add
  split
  · rfl
  · rename_i hChart
    split
    · rfl
    · rename_i hNew
      rcases hKey with hKey | hKey
      · exact absurd hKey hChart
      · rw [hNew] at hKey
        cases hKey

/- An agenda takes an item with a new key. -/
theorem add_of_not_mem
    (A : Agenda G)
    (C : Chart G)
    {item : Item G}
    (hKey :
      item.key ∉ (C.items.toList ++ A.queue).map Item.key) :
    ∃ later, A.add C item = (later, true) ∧
      later.queue = A.queue ++ [item] := by
  rw [List.map_append, List.mem_append, ← C.contains_iff,
    ← A.contains_iff, not_or, Bool.not_eq_true,
    Bool.not_eq_true] at hKey
  have hAdded : (A.add C item).2 = true := by
    rw [A.add_snd, hKey.1, hKey.2]
    rfl
  have hQueue := A.queue_add C item
  rw [hAdded, if_pos rfl] at hQueue
  exact ⟨(A.add C item).1, Prod.ext rfl hAdded, hQueue⟩

/- All offers can be queued when none is an error. -/
theorem addAll_of_ok
    (A : Agenda G)
    (C : Chart G)
    {offers : Offers G}
    (hOffers : ∀ offer ∈ offers,
      ∃ item, offer = .ok item) :
    ∃ later new,
      A.addAll C offers = (later, .ok new.length) ∧
        later.queue = A.queue ++ new ∧
          Delivery offers (C.items.toList ++ A.queue)
            new := by
  have hNew :
      ∀ (A : Agenda G) (item : Item G), True →
        item.key ∉
            (C.items.toList ++ A.queue).map Item.key →
          ∃ later, A.add C item = (later, true) ∧
            C.items.toList ++ later.queue =
              (C.items.toList ++ A.queue) ++ [item] := by
    intro A item _ hKey
    rcases A.add_of_not_mem C hKey with
      ⟨later, hAdd, hQueue⟩
    exact ⟨later, hAdd, by rw [hQueue, List.append_assoc]⟩
  rcases @Offers.deliver_of_ok G (Agenda G)
      (fun A item => A.add C item)
      (fun A => C.items.toList ++ A.queue)
      (fun A _ hKey => A.add_of_mem C hKey)
      (fun _ => True) hNew offers
      (by simpa using hOffers) A 0 with
    ⟨later, new, hDeliver, hView, hDelivery⟩
  rw [Nat.zero_add] at hDeliver
  rw [List.append_assoc, List.append_cancel_left_eq] at hView
  exact ⟨later, new, hDeliver, hView, hDelivery⟩

end Agenda

end Constituency
