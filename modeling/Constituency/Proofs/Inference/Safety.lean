import Constituency.Proofs.Chart.Delivery
import Constituency.Proofs.Derivation.Yield
import Constituency.Proofs.Inference.Combining

/-
  This file shows that no step can go wrong on well-formed
  items. Whatever chart it looks into and whatever item it
  is taken from, every offer is an item that can be filed,
  and is well-formed itself.

  Key definitions include:
    * `Move`
    * `Move.offers`
    * `Offers.Safe`

  Main declarations:
    * `Step.safe_offers`
    * `Move.safe_offers`
    * `Grammar.steps_safe`
-/

namespace Constituency

variable {G : Grammar}

------------------------------------------------------------
-- Parts of Combining
------------------------------------------------------------

/-
  The parts of combining an item with a chart. Some of them
  put others together: all growth in the chart, all growth
  over words, and everything that a goal sets off. The last
  one projects a constituent for a goal with a symbol.
-/
inductive Move where
  | preComplete
  | predictLeft
  | predictRight
  | completeLeft
  | completeRight
  | growInChart
  | scanLeft
  | scanRight
  | growOverWords
  | scanHeads
  | scanEmpty
  | projectInside
  | narrow
  | seek
  | projectUp
  | project (upper : Symbol)
deriving DecidableEq

namespace Move

/- The items that a part of combining finds. -/
def offers
    (C : Chart G)
    (words : List Symbol)
    (item : Item G) : Move → Offers G
  | preComplete => item.preComplete
  | predictLeft => item.predictLeft C
  | predictRight => item.predictRight C
  | completeLeft => item.completeLeft C
  | completeRight => item.completeRight C
  | growInChart => item.growInChart C
  | scanLeft => item.scanLeft C words
  | scanRight => item.scanRight C words
  | growOverWords => item.growOverWords C words
  | scanHeads => item.scanHeads words
  | scanEmpty => item.scanEmpty
  | projectInside => item.projectInside C
  | narrow => item.narrow
  | seek => item.seek C words
  | projectUp => item.projectUp C
  | project upper => item.project upper

/-
  Combining an item offers what each part offers for which
  the chart has a goal. The parts that are meant for other
  kinds of items offer nothing.
-/
theorem offers_subset
    {move : Move}
    (hMove : ∀ upper, move ≠ .project upper)
    (C : Chart G)
    (words : List Symbol)
    (item : Item G) :
    move.offers C words item ⊆ item.combine C words := by
  rcases item with ⟨key, children⟩
  intro offer hOffer
  cases key with
  | single r dot span =>
      cases move with
      | project upper => exact absurd rfl (hMove upper)
      | _ => cases hOffer
  | double r left right span =>
      cases move with
      | preComplete | predictLeft | predictRight
      | completeLeft | completeRight =>
          simp only [offers] at hOffer
          simp [Item.combine, Item.growInChart, hOffer]
      | scanLeft | scanRight =>
          simp only [offers] at hOffer
          simp [Item.combine, Item.growOverWords, hOffer]
      | growInChart => exact List.mem_append_left _ hOffer
      | growOverWords => exact List.mem_append_right _ hOffer
      | project upper => exact absurd rfl (hMove upper)
      | _ => cases hOffer
  | goal symbol span =>
      cases move with
      | scanHeads | scanEmpty | projectInside | narrow =>
          simp only [offers] at hOffer
          simp [Item.combine, Item.seek, hOffer]
      | seek => exact hOffer
      | project upper => exact absurd rfl (hMove upper)
      | _ => cases hOffer
  | completed r span =>
      cases move with
      | projectUp => exact hOffer
      | project upper => exact absurd rfl (hMove upper)
      | _ => cases hOffer

end Move

------------------------------------------------------------
-- Safe Offers
------------------------------------------------------------

/-
  No offer is an error, and every offered item is
  well-formed and can be filed in any chart.
-/
def Offers.Safe
    (offers : Offers G) : Prop :=
  ∀ offer ∈ offers, ∃ x, offer = .ok x ∧
    x.key.WellFormed ∧
      ∀ D : Chart G, D.insert? x ≠ none

/- Well-formed items can be filed in any chart. -/
theorem Chart.insert?_ne_none
    {x : Item G}
    (hKey : x.key.WellFormed)
    (D : Chart G) :
    D.insert? x ≠ none := by
  have hSpan : x.start ≤ x.stop := hKey.start_le_stop
  intro hNone
  have hStart := ((D.insert?_eq_none_iff x).mp hNone).2
  omega

namespace Offers.Safe

variable {offers : Offers G}

theorem ok
    (hSafe : offers.Safe) :
    ∀ offer ∈ offers,
      ∃ x, offer = .ok x ∧ x.start ≤ x.stop := by
  intro offer hOffer
  rcases hSafe offer hOffer with ⟨x, rfl, hKey, _⟩
  exact ⟨x, rfl, hKey.start_le_stop⟩

/- What safe offers turn into is well-formed. -/
theorem wellFormed_of_delivery
    (hSafe : offers.Safe)
    {old new : List (Item G)}
    (hDelivery : Delivery offers old new) :
    ∀ x ∈ new, x.key.WellFormed := by
  intro x hx
  rcases hSafe _ (hDelivery.offered x hx) with
    ⟨y, hSame, hKey, _⟩
  cases hSame
  exact hKey

/- Safe offers are admitted to a chart without an error. -/
theorem enterAll
    (hSafe : offers.Safe)
    {C : Chart G}
    (hChart : ∀ x ∈ C.items.toList, x.key.WellFormed) :
    ∃ D count, C.enterAll offers = (D, .ok count) ∧
      ∀ x ∈ D.items.toList, x.key.WellFormed := by
  rcases C.enterAll_of_ok hSafe.ok with
    ⟨D, new, hEnter, hItems, hDelivery⟩
  refine ⟨D, new.length, hEnter, ?_⟩
  rw [hItems]
  exact List.forall_mem_append.mpr
    ⟨hChart, hSafe.wellFormed_of_delivery hDelivery⟩

/- Safe offers are queued without an error. -/
theorem addAll
    (hSafe : offers.Safe)
    {A : Agenda G}
    (hAgenda : ∀ x ∈ A.queue, x.key.WellFormed)
    (C : Chart G) :
    ∃ B count, A.addAll C offers = (B, .ok count) ∧
      ∀ x ∈ B.queue, x.key.WellFormed := by
  have hOk : ∀ offer ∈ offers, ∃ x, offer = .ok x :=
    fun offer hOffer =>
      (hSafe.ok offer hOffer).imp (fun _ hBoth => hBoth.1)
  rcases A.addAll_of_ok C hOk with
    ⟨B, new, hAdd, hQueue, hDelivery⟩
  refine ⟨B, new.length, hAdd, ?_⟩
  rw [hQueue]
  exact List.forall_mem_append.mpr
    ⟨hAgenda, hSafe.wellFormed_of_delivery hDelivery⟩

end Offers.Safe

/-
  Projecting is safe: the dots begin at the head, so the
  right one can be moved over the constituent.
-/
theorem Item.safe_project
    {found : Item G}
    (hFound : found.key.WellFormed)
    (upper : Symbol) :
    Offers.Safe (found.project upper) := by
  intro offer hOffer
  rcases List.mem_filterMap.mp hOffer with ⟨r, _, hMap⟩
  rcases Option.map_eq_some_iff.mp hMap with
    ⟨head, hHead, rfl⟩
  have hBound := G.head_lt_length hHead
  have hKey :
      (ItemKey.double r head (head + 1)
        ⟨found.start, found.stop⟩).WellFormed := by
    rw [ItemKey.wellFormed_double_iff]
    exact ⟨hFound.start_le_stop, Nat.le_succ head, hBound⟩
  exact ⟨_, growRight_of_lt hBound head _ [] found, hKey,
    Chart.insert?_ne_none hKey⟩

section

variable {C : Chart G}
variable (hChart : ∀ x ∈ C.items.toList, x.key.WellFormed)
variable {item : Item G}
variable (hItem : item.key.WellFormed)

include hChart hItem

/- Every step is safe, wherever its item comes from. -/
theorem Step.safe_offers
    (step : Step)
    (words : List Symbol) :
    Offers.Safe (step.offers C words item) := by
  intro offer hOffer
  rcases (step.mem_offers_iff hChart hItem).mp hOffer with
    ⟨x, rfl, hInfers⟩
  have hKey := hInfers.wellFormed hChart hItem
  exact ⟨x, rfl, hKey, Chart.insert?_ne_none hKey⟩

/- So is every part of combining an item. -/
theorem Move.safe_offers
    (move : Move)
    (words : List Symbol) :
    Offers.Safe (move.offers C words item) := by
  by_cases hMove : ∃ upper, move = .project upper
  · rcases hMove with ⟨upper, rfl⟩
    exact Item.safe_project hItem upper
  · intro offer hOffer
    rw [not_exists] at hMove
    exact Step.safe_offers hChart hItem .combine words offer
      (offers_subset hMove C words item hOffer)

end

------------------------------------------------------------
-- Looking Up Daughters
------------------------------------------------------------

/- A left dot that is not at the start has a left sister. -/
theorem ItemKey.exists_leftSister
    {r : G.RuleId}
    {left right : Nat}
    {span : Span}
    (hKey :
      (double r (left + 1) right span).WellFormed) :
    ∃ sister,
      (double r (left + 1) right span).leftSister =
        some sister := by
  rcases span with ⟨i, j⟩
  rw [wellFormed_double_iff] at hKey
  have hBound : left < (G.rule r).rhs.length :=
    Nat.lt_of_lt_of_le hKey.2.1 hKey.2.2
  exact ⟨_, List.getElem?_eq_getElem hBound⟩

/- The head of a rule is there to be looked up. -/
theorem Grammar.exists_headDaughter
    {r : G.RuleId}
    {head : Nat}
    (hHead : (G.rule r).head = some head) :
    ∃ daughter, (G.rule r).rhs[head]? = some daughter :=
  ⟨_, List.getElem?_eq_getElem (G.head_lt_length hHead)⟩

namespace Grammar

/-
  With a chart, an agenda and an item that are well-formed
  no step fails. The steps that fill a chart leave it
  well-formed, and the parts of combining leave the agenda
  well-formed. Nothing is filed out of range, and every
  daughter that is looked up at a dot is there.
-/
theorem steps_safe
    (G : Grammar)
    (words : List Symbol)
    {C : Chart G}
    (hChart : ∀ x ∈ C.items.toList, x.key.WellFormed)
    {A : Agenda G}
    (hAgenda : ∀ x ∈ A.queue, x.key.WellFormed)
    {item : Item G}
    (hItem : item.key.WellFormed) :
    (∀ step : Step,
      Offers.Safe (step.offers C words item) ∧
        ∃ D count,
          C.enterAll (step.offers C words item) =
              (D, .ok count) ∧
            ∀ x ∈ D.items.toList, x.key.WellFormed) ∧
      (∀ move : Move,
        Offers.Safe (move.offers C words item) ∧
          ∃ B count,
            A.addAll C (move.offers C words item) =
                (B, .ok count) ∧
              ∀ x ∈ B.queue, x.key.WellFormed) ∧
      (∀ r left right span,
        item.key = .double r (left + 1) right span →
          ∃ sister, item.key.leftSister = some sister) ∧
      ∀ (r : G.RuleId) (head : Nat),
        (G.rule r).head = some head →
          ∃ daughter,
            (G.rule r).rhs[head]? = some daughter := by
  refine ⟨?_, ?_, ?_, ?_⟩
  · intro step
    have hSafe := step.safe_offers hChart hItem words
    exact ⟨hSafe, hSafe.enterAll hChart⟩
  · intro move
    have hSafe := move.safe_offers hChart hItem words
    exact ⟨hSafe, hSafe.addAll hAgenda C⟩
  · intro r left right span hKey
    rw [hKey] at hItem ⊢
    exact ItemKey.exists_leftSister hItem
  · intro r head hHead
    exact exists_headDaughter hHead

/- An item that is not in the chart takes in a left sister. -/
theorem repeated_safe :
    ∃ (C : Chart repeated) (item : Item repeated),
      (∀ x ∈ C.items.toList, x.key.WellFormed) ∧
        item.key.WellFormed ∧
        C.contains item.key = false ∧
        ∃ B, (Agenda.empty repeated).addAll C
            (Move.completeLeft.offers C ["b"] item) =
              (B, .ok 1) ∧
          ∀ x ∈ B.queue, x.key.WellFormed := by
  let items : List (Item repeated) :=
    [⟨.goal "S" ⟨0, 1⟩, []⟩,
      ⟨.completed ⟨1, by decide⟩ ⟨0, 0⟩, []⟩]
  let C := Chart.ofItems 1 items
  let item : Item repeated :=
    ⟨.double ⟨0, by decide⟩ 1 2 ⟨0, 1⟩, []⟩
  have hItems : ∀ x ∈ items, x.key.WellFormed := by
    simp [items]
  have hChart : ∀ x ∈ C.items.toList, x.key.WellFormed := by
    have hSubset := (Chart.ofItems_spec 1 (fun x hx =>
      (hItems x hx).start_le_stop)).1
    exact fun x hx => hItems x (hSubset hx)
  have hItem : item.key.WellFormed :=
    ItemKey.wellFormed_double_iff.mpr (by decide)
  rcases ((steps_safe repeated ["b"] hChart
      (by simp : ∀ x ∈ (Agenda.empty repeated).queue,
        x.key.WellFormed) hItem).2.1 .completeLeft).2 with
    ⟨B, count, hAdd, hQueue⟩
  have hCount :
      ((Agenda.empty repeated).addAll C
        (Move.completeLeft.offers C ["b"] item)).2.toOption =
          some 1 := by
    decide +kernel
  rw [hAdd] at hCount
  cases hCount
  exact ⟨C, item, hChart, hItem, by decide +kernel, B, hAdd,
    hQueue⟩

end Grammar

end Constituency
