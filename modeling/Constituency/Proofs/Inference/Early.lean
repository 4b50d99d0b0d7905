import Constituency.Proofs.Chart.Delivery
import Constituency.Proofs.Inference.Combining

/-
  This file compares what the sweeping steps find with and
  without further words. A chart is cut off at a position by
  leaving out the items that end later. As far as the cut
  the steps find the same items in the same order.

  Key definitions include:
    * `Item.endsBy`
    * `Chart.endingBy`
    * `Offers.endingBy`

  Main declarations:
    * `Chart.enterAll_endingBy`
    * `Step.endingBy_offers`
-/

namespace Constituency

variable {G : Grammar}

------------------------------------------------------------
-- Cutting Off
------------------------------------------------------------

/- The item ends at the position or before it. -/
def Item.endsBy
    (position : Nat)
    (item : Item G) : Bool :=
  item.stop ≤ position

/- The items that end at the position or before it. -/
def Chart.endingBy
    (C : Chart G)
    (position : Nat) : List (Item G) :=
  C.items.toList.filter (Item.endsBy position)

/- The offers without the items that end later. -/
def Offers.endingBy
    (offers : Offers G)
    (position : Nat) : Offers G :=
  offers.filter (fun offer =>
    match offer with
    | .ok item => item.endsBy position
    | .error _ => true)

namespace Offers

variable {offers : Offers G}
variable {position : Nat}

theorem endingBy_cons_of_le
    {item : Item G}
    (hStop : item.stop ≤ position) :
    endingBy (.ok item :: offers) position =
      .ok item :: offers.endingBy position :=
  List.filter_cons_of_pos (decide_eq_true hStop)

theorem endingBy_cons_of_lt
    {item : Item G}
    (hStop : position < item.stop) :
    endingBy (.ok item :: offers) position =
      offers.endingBy position := by
  apply List.filter_cons_of_neg
  simpa [Item.endsBy] using hStop

theorem endingBy_append
    (others : Offers G) :
    endingBy (offers ++ others) position =
      offers.endingBy position ++ others.endingBy position :=
  List.filter_append ..

/- Nothing is left out when nothing ends later. -/
theorem endingBy_eq_self
    (hOffers : ∀ item, .ok item ∈ offers →
      item.stop ≤ position) :
    offers.endingBy position = offers := by
  apply List.filter_eq_self.mpr
  intro offer hOffer
  cases offer with
  | error cause => rfl
  | ok item => exact decide_eq_true (hOffers item hOffer)

/- Nothing is left when everything ends later. -/
theorem endingBy_eq_nil
    (hOffers : ∀ offer ∈ offers,
      ∃ item, offer = .ok item ∧ position < item.stop) :
    offers.endingBy position = [] := by
  apply List.filter_eq_nil_iff.mpr
  intro offer hOffer
  rcases hOffers offer hOffer with ⟨item, rfl, hStop⟩
  simpa [Item.endsBy] using hStop

end Offers

------------------------------------------------------------
-- Charts with the Same Early Items
------------------------------------------------------------

namespace Chart

variable {C D : Chart G}
variable {position : Nat}

/- Charts that agree up to a position agree at each one. -/
theorem endingAt_of_endingBy
    (hSame : D.endingBy position = C.items.toList)
    {earlier : Nat}
    (hEarlier : earlier ≤ position) :
    D.endingAt earlier = C.endingAt earlier := by
  rw [endingAt_eq, endingAt_eq, ← hSame, endingBy,
    List.filter_filter]
  apply List.filter_congr
  intro item _
  unfold Item.endsBy
  grind

/- They know the same early keys. -/
theorem mem_keys_of_endingBy
    (hSame : D.endingBy position = C.items.toList)
    {item : Item G}
    (hStop : item.stop ≤ position) :
    item.key ∈ D.items.toList.map Item.key ↔
      item.key ∈ C.items.toList.map Item.key := by
  rw [← hSame]
  constructor
  · intro hKey
    rcases List.mem_map.mp hKey with ⟨x, hx, hAlike⟩
    have hEnds : x.stop ≤ position := by
      rwa [Item.stop, hAlike]
    exact List.mem_map.mpr
      ⟨x, List.mem_filter.mpr ⟨hx, decide_eq_true hEnds⟩,
        hAlike⟩
  · exact fun hKey =>
      List.map_subset _ (List.filter_subset_self _) hKey

/- A chart with one more item is cut off as before it. -/
theorem endingBy_snoc
    {later : Chart G}
    {item : Item G}
    (hItems : later.items.toList = C.items.toList ++ [item])
    (position : Nat) :
    later.endingBy position =
      C.endingBy position ++
        [item].filter (Item.endsBy position) := by
  unfold endingBy
  rw [hItems, List.filter_append]

/- A new item comes first among what is admitted. -/
theorem deliver_cons_of_new
    {C next E : Chart G}
    {item : Item G}
    {offers : Offers G}
    {new : List (Item G)}
    {n : Nat}
    (hEnter : C.enter item = (next, true))
    (hItems : next.items.toList = C.items.toList ++ [item])
    (hRest :
      offers.deliver enter next (n + 1) =
        (E, .ok (n + 1 + new.length)))
    (hE : E.items.toList = next.items.toList ++ new) :
    Offers.deliver enter C n (.ok item :: offers) =
        (E, .ok (n + (item :: new).length)) ∧
      E.items.toList = C.items.toList ++ item :: new := by
  constructor
  · simp only [Offers.deliver, hEnter]
    rw [hRest, List.length_cons, Nat.add_right_comm,
      Nat.add_assoc]
  · rw [hE, hItems, List.append_assoc, List.singleton_append]

/-
  Early offers are new to both charts or to none, and late
  ones concern only the chart that is not cut off.
-/
theorem deliver_endingBy
    {offers : Offers G}
    (hOffers : ∀ offer ∈ offers,
      ∃ item, offer = .ok item ∧ item.start ≤ item.stop)
    (hSame : D.endingBy position = C.items.toList)
    (m n : Nat) :
    ∃ E F new,
      (offers.deliver enter D n =
          (F, .ok (n + new.length)) ∧
        F.items.toList = D.items.toList ++ new) ∧
      (offers.endingBy position).deliver enter C m =
          (E, .ok (m +
            (new.filter (Item.endsBy position)).length)) ∧
        E.items.toList =
          C.items.toList ++
            new.filter (Item.endsBy position) := by
  induction offers generalizing C D m n with
  | nil => exact ⟨C, D, [], ⟨rfl, by simp⟩, rfl, by simp⟩
  | cons offer offers ih =>
      have hRest : ∀ offer ∈ offers,
          ∃ item, offer = .ok item ∧
            item.start ≤ item.stop :=
        fun offer hOffer =>
          hOffers offer (List.mem_cons_of_mem _ hOffer)
      rcases hOffers offer List.mem_cons_self with
        ⟨item, rfl, hSpan⟩
      rcases Nat.lt_or_ge position item.stop with
        hLate | hEarly
      · have hEnds : ¬ item.endsBy position = true := by
          simpa [Item.endsBy] using hLate
        rw [Offers.endingBy_cons_of_lt hLate]
        by_cases hKey : item.key ∈ D.items.toList.map Item.key
        · simp only [Offers.deliver, D.enter_of_mem hKey]
          exact ih hRest hSame m n
        · rcases D.enter_of_not_mem hSpan hKey with
            ⟨next, hEnter, hItems⟩
          have hNext :
              next.endingBy position = C.items.toList := by
            rw [endingBy_snoc hItems, hSame,
              List.filter_cons_of_neg hEnds]
            exact List.append_nil _
          rcases ih hRest hNext m (n + 1) with
            ⟨E, F, new, ⟨hLong, hF⟩, hShort⟩
          refine ⟨E, F, item :: new,
            deliver_cons_of_new hEnter hItems hLong hF, ?_⟩
          rwa [List.filter_cons_of_neg hEnds]
      · have hEnds : item.endsBy position = true :=
          decide_eq_true hEarly
        have hBoth := mem_keys_of_endingBy hSame hEarly
        rw [Offers.endingBy_cons_of_le hEarly]
        by_cases hKey : item.key ∈ D.items.toList.map Item.key
        · simp only [Offers.deliver, D.enter_of_mem hKey,
            C.enter_of_mem (hBoth.mp hKey)]
          exact ih hRest hSame m n
        · rcases D.enter_of_not_mem hSpan hKey with
            ⟨next, hEnter, hItems⟩
          rcases C.enter_of_not_mem hSpan
              (fun hOther => hKey (hBoth.mpr hOther)) with
            ⟨other, hOtherEnter, hOtherItems⟩
          have hNext :
              next.endingBy position =
                other.items.toList := by
            rw [endingBy_snoc hItems, hSame, hOtherItems,
              List.filter_cons_of_pos hEnds]
            rfl
          rcases ih hRest hNext (m + 1) (n + 1) with
            ⟨E, F, new, ⟨hLong, hF⟩, hShort, hE⟩
          refine ⟨E, F, item :: new,
            deliver_cons_of_new hEnter hItems hLong hF, ?_⟩
          rw [List.filter_cons_of_pos hEnds]
          exact deliver_cons_of_new hOtherEnter hOtherItems
            hShort hE

/- Admitting offers goes on alike in both charts. -/
theorem enterAll_endingBy
    {offers : Offers G}
    (hOffers : ∀ offer ∈ offers,
      ∃ item, offer = .ok item ∧ item.start ≤ item.stop)
    (hSame : D.endingBy position = C.items.toList) :
    ∃ E F new,
      D.enterAll offers = (F, .ok new.length) ∧
        F.items.toList = D.items.toList ++ new ∧
        Delivery offers D.items.toList new ∧
        C.enterAll (offers.endingBy position) =
          (E, .ok
            (new.filter (Item.endsBy position)).length) ∧
        E.items.toList =
          C.items.toList ++
            new.filter (Item.endsBy position) := by
  rcases deliver_endingBy hOffers hSame 0 0 with
    ⟨E, F, new, ⟨hLong, hF⟩, hShort, hE⟩
  rcases D.enterAll_of_ok hOffers with
    ⟨later, other, hEnter, hLater, hDelivery⟩
  simp only [Nat.zero_add] at hLong hShort
  have hFirst : later = F :=
    congrArg Prod.fst (hEnter.symm.trans hLong)
  rw [hFirst, hF, List.append_cancel_left_eq] at hLater
  rw [← hLater] at hDelivery
  exact ⟨E, F, new, hLong, hF, hDelivery, hShort, hE⟩

end Chart

------------------------------------------------------------
-- Steps Cut Off
------------------------------------------------------------

section

variable {C D : Chart G}
variable {words more : List Symbol}
variable {item : Item G}

/- Completion looks only at what ends at the item's start. -/
theorem Item.complete_congr
    (hSame : D.endingAt item.start = C.endingAt item.start) :
    item.complete D = item.complete C := by
  rcases item with ⟨key, children⟩
  unfold complete
  cases key with
  | single r dot span =>
      change D.endingAt span.start = C.endingAt span.start
        at hSame
      simp only [hSame]
  | _ => rfl

theorem Item.leftCornerPredict_congr
    (hSame : D.endingAt item.start = C.endingAt item.start) :
    item.leftCornerPredict D = item.leftCornerPredict C := by
  rcases item with ⟨key, children⟩
  unfold leftCornerPredict
  cases key with
  | single r dot span =>
      change D.endingAt span.start = C.endingAt span.start
        at hSame
      simp only [hSame]
  | _ => rfl

/- What is scanned at a word does not depend on later ones. -/
theorem Item.scan_append
    (hStop : item.stop < words.length) :
    item.scan (words ++ more) = item.scan words := by
  rcases item with ⟨key, children⟩
  unfold scan
  cases key with
  | single r dot span =>
      change span.stop < words.length at hStop
      simp only [List.getElem?_append_left hStop]
  | _ => rfl

theorem Item.leftCornerScanWord_append
    (hStop : item.stop < words.length) :
    item.leftCornerScanWord (words ++ more) =
      item.leftCornerScanWord words := by
  unfold leftCornerScanWord
  rw [List.getElem?_append_left hStop]

/- Behind the last word nothing is scanned. -/
theorem Item.scan_of_length_le
    (hStop : words.length ≤ item.stop) :
    item.scan words = [] := by
  rcases item with ⟨key, children⟩
  unfold scan
  cases key with
  | single r dot span =>
      change words.length ≤ span.stop at hStop
      simp only [List.getElem?_eq_none hStop]
      cases (ItemKey.single r dot span).next with
      | none => rfl
      | some wanted => rfl
  | _ => rfl

theorem Item.leftCornerScanWord_of_length_le
    (hStop : words.length ≤ item.stop) :
    item.leftCornerScanWord words = [] := by
  unfold leftCornerScanWord
  rw [List.getElem?_eq_none hStop]

/- Starting a rule at the next word takes that word. -/
theorem Item.stop_of_mem_leftCornerScanWord
    {offer : Except ItemError (Item G)}
    (hOffer : offer ∈ item.leftCornerScanWord words) :
    ∃ x, offer = .ok x ∧ x.stop = item.stop + 1 := by
  unfold leftCornerScanWord at hOffer
  split at hOffer
  · cases hOffer
  · split at hOffer
    · cases hOffer
    · rcases List.mem_map.mp hOffer with ⟨r, hRule, rfl⟩
      have hLeftmost := G.mem_rulesWithLeftmost_iff.mp
        (List.mem_filter.mp hRule).1
      exact ⟨_, create_first hLeftmost (Nat.le_succ _) _, rfl⟩

/- Empty rules take no words. -/
theorem Item.stop_of_mem_leftCornerScanEmpty
    {x : Item G}
    (hOffer : .ok x ∈ item.leftCornerScanEmpty) :
    x.stop = item.stop := by
  rcases List.mem_map.mp hOffer with ⟨r, _, hCreate⟩
  rw [create_begun, Except.ok.injEq] at hCreate
  rw [← hCreate]
  rfl

/-
  Scanning finds the same up to the end of the first words:
  before it the next word is one of them, and at the end
  what is scanned lies behind.
-/
theorem Offers.endingBy_scanned
    (scanned : List Symbol → Offers G)
    (hAppend : item.stop < words.length →
      scanned (words ++ more) = scanned words)
    (hNone : words.length ≤ item.stop → scanned words = [])
    (hStops : ∀ offer ∈ scanned (words ++ more),
      ∃ x, offer = .ok x ∧ x.stop = item.stop + 1) :
    (scanned (words ++ more)).endingBy words.length =
      scanned words := by
  rcases Nat.lt_or_ge item.stop words.length with
    hBefore | hBehind
  · rw [← hAppend hBefore]
    apply endingBy_eq_self
    intro x hx
    rcases hStops _ hx with ⟨y, hSame, hNext⟩
    cases hSame
    omega
  · rw [hNone hBehind]
    apply endingBy_eq_nil
    intro offer hOffer
    rcases hStops offer hOffer with ⟨x, rfl, hNext⟩
    exact ⟨x, rfl, by omega⟩

/- A sweeping step goes on by at most one word. -/
theorem Infers.stop_le_succ
    {known : List (Item G)}
    {step : Step}
    {new : Item G}
    (hStep : step ≠ .combine)
    (hInfers : Infers words known step item new) :
    new.stop ≤ item.stop + 1 := by
  cases hInfers with
  | predict => exact Nat.le_succ _
  | scan => exact Nat.le_refl _
  | complete => exact Nat.le_succ _
  | leftCornerPredict => exact Nat.le_succ _
  | leftCornerWord => exact Nat.le_refl _
  | leftCornerEmpty => exact Nat.le_succ _
  | _ => exact absurd rfl hStep

/-
  Further words do not change what a sweeping step finds up
  to the end of the first ones. The partners that are looked
  up end where the item starts; only scanning the next word
  leads further.
-/
theorem Step.endingBy_offers
    {step : Step}
    (hStep : step ≠ .combine)
    (hChart : ∀ x ∈ D.items.toList, x.key.WellFormed)
    (hSame : D.endingBy words.length = C.items.toList)
    (hItem : item.key.WellFormed)
    (hStop : item.stop ≤ words.length) :
    Offers.endingBy (step.offers D (words ++ more) item)
        words.length =
      step.offers C words item := by
  have hSpan : item.start ≤ item.stop := hItem.start_le_stop
  have hPartners :
      D.endingAt item.start = C.endingAt item.start :=
    Chart.endingAt_of_endingBy hSame
      (Nat.le_trans hSpan hStop)
  have hInfers :
      ∀ offer ∈ step.offers D (words ++ more) item,
        ∃ x, offer = .ok x ∧
          Infers (words ++ more) D.items.toList step item
            x :=
    fun _ hOffer =>
      (step.mem_offers_iff hChart hItem).mp hOffer
  have hHere :
      (∀ x, Infers (words ++ more) D.items.toList step item
          x → x.stop = item.stop) →
        Offers.endingBy (step.offers D (words ++ more) item)
            words.length =
          step.offers D (words ++ more) item := by
    intro hStops
    apply Offers.endingBy_eq_self
    intro x hx
    rcases hInfers _ hx with ⟨y, hEqual, hNew⟩
    cases hEqual
    rwa [hStops x hNew]
  cases step with
  | predict =>
      apply hHere
      intro x hNew
      cases hNew
      rfl
  | leftCornerPredict =>
      refine (hHere ?_).trans
        (item.leftCornerPredict_congr hPartners)
      intro x hNew
      cases hNew
      rfl
  | complete =>
      refine (hHere ?_).trans (item.complete_congr hPartners)
      intro x hNew
      cases hNew
      rfl
  | scan =>
      apply Offers.endingBy_scanned
        (fun words => item.scan words) item.scan_append
        item.scan_of_length_le
      intro offer hOffer
      rcases hInfers offer hOffer with ⟨x, rfl, hNew⟩
      cases hNew
      exact ⟨_, rfl, rfl⟩
  | leftCornerScan =>
      have hWord := Offers.endingBy_scanned
        (fun words => item.leftCornerScanWord words)
        (@Item.leftCornerScanWord_append G words more item)
        item.leftCornerScanWord_of_length_le
        (fun _ hx => item.stop_of_mem_leftCornerScanWord hx)
      have hEmpty :
          item.leftCornerScanEmpty.endingBy words.length =
            item.leftCornerScanEmpty := by
        apply Offers.endingBy_eq_self
        intro x hx
        rwa [item.stop_of_mem_leftCornerScanEmpty hx]
      simp only [Step.offers, Item.leftCornerScan,
        Offers.endingBy_append, hWord, hEmpty]
  | combine => exact absurd rfl hStep

end

end Constituency
