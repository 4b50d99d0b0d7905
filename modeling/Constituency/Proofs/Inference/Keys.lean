import Constituency.Proofs.Chart.Delivery
import Constituency.Proofs.Inference.Combining
import Constituency.Proofs.Inference.Deduction
import Mathlib.Order.Bounds.Basic

/-
  This file reads the inference steps as rules on keys: what
  can be found depends on the keys of the known items and
  not on their children. The keys of a closure are the least
  set that has the seeds and obeys these rules; so they are
  the same for every closure of the seeds.

  Key definitions include:
    * `Step.Licenses`
    * `IsTheory`

  Main declarations:
    * `Infers.exists_of_keys`
    * `Closure.isLeast_keys`
    * `Closure.mem_keys_iff`
-/

namespace Constituency

variable {G : Grammar}
variable {words : List Symbol}

------------------------------------------------------------
-- Items with the Same Keys
------------------------------------------------------------

section

variable {known more : List (Item G)}

/- A key of the first row belongs to an item of the second. -/
theorem exists_mem_of_keys
    (hKeys : ∀ x ∈ known, x.key ∈ more.map Item.key)
    {key : ItemKey G}
    {children : List (Item G)}
    (hItem : ⟨key, children⟩ ∈ known) :
    ∃ others, ⟨key, others⟩ ∈ more := by
  rcases List.mem_map.mp (hKeys _ hItem) with
    ⟨⟨_, others⟩, hOther, rfl⟩
  exact ⟨others, hOther⟩

theorem map_key_subset
    (hKeys : ∀ x ∈ known, x.key ∈ more.map Item.key) :
    known.map Item.key ⊆ more.map Item.key := by
  intro key hKey
  rcases List.mem_map.mp hKey with ⟨x, hx, rfl⟩
  exact hKeys x hx

/- Demands are made by keys. -/
theorem Demanded.of_keys
    (hKeys : ∀ x ∈ known, x.key ∈ more.map Item.key)
    {r : G.RuleId}
    {span : Span}
    (hDemanded : Demanded known r span) :
    Demanded more r span := by
  rcases hDemanded with ⟨upper, hGoal, hCorner⟩
  exact ⟨upper, map_key_subset hKeys hGoal, hCorner⟩

/-
  What follows from an item has a key that also follows from
  another item with the same key, when all known keys are
  known there. Only the children can differ.
-/
theorem Infers.exists_of_keys
    (hKeys : ∀ x ∈ known, x.key ∈ more.map Item.key)
    {step : Step}
    {item new : Item G}
    (hInfers : Infers words known step item new)
    {other : Item G}
    (hSame : other.key = item.key) :
    ∃ found, Infers words more step other found ∧
      found.key = new.key := by
  rcases other with ⟨key, children⟩
  have hKey : key = item.key := hSame
  subst hKey
  cases hInfers with
  | predict hNext => exact ⟨_, .predict hNext, rfl⟩
  | scan hNext hTerminal hWord =>
      exact ⟨_, .scan hNext hTerminal hWord, rfl⟩
  | complete hWaiting hNext =>
      rcases exists_mem_of_keys hKeys hWaiting with
        ⟨before, hBefore⟩
      exact ⟨_, .complete hBefore hNext, rfl⟩
  | leftCornerPredict hWaiting hStop hNext hCorner hLeft =>
      rcases List.mem_map.mp (hKeys _ hWaiting) with
        ⟨before, hBefore, hAlike⟩
      rw [Item.stop, ← hAlike] at hStop
      rw [← hAlike] at hNext
      exact ⟨_, .leftCornerPredict hBefore hStop hNext
        hCorner hLeft, rfl⟩
  | leftCornerWord hNext hCorner hLeft hTerminal hWord =>
      exact ⟨_, .leftCornerWord hNext hCorner hLeft hTerminal
        hWord, rfl⟩
  | leftCornerEmpty hNext hCorner hEmpty =>
      exact ⟨_, .leftCornerEmpty hNext hCorner hEmpty, rfl⟩
  | preComplete => exact ⟨_, .preComplete, rfl⟩
  | predictLeft hDemanded hSister hStart hSpan hStop =>
      exact ⟨_, .predictLeft (hDemanded.of_keys hKeys)
        hSister hStart hSpan hStop, rfl⟩
  | predictRight hDemanded hSister hStart hSpan hStop =>
      exact ⟨_, .predictRight (hDemanded.of_keys hKeys)
        hSister hStart hSpan hStop, rfl⟩
  | completeLeft hDemanded hSister hFound =>
      rcases exists_mem_of_keys hKeys hFound with
        ⟨below, hBelow⟩
      exact ⟨_, .completeLeft (hDemanded.of_keys hKeys)
        hSister hBelow, rfl⟩
  | completeRight hDemanded hSister hFound =>
      rcases exists_mem_of_keys hKeys hFound with
        ⟨below, hBelow⟩
      exact ⟨_, .completeRight (hDemanded.of_keys hKeys)
        hSister hBelow, rfl⟩
  | scanLeft hDemanded hSister hTerminal hWord hStart =>
      exact ⟨_, .scanLeft (hDemanded.of_keys hKeys) hSister
        hTerminal hWord hStart, rfl⟩
  | scanRight hDemanded hSister hTerminal hWord hStop =>
      exact ⟨_, .scanRight (hDemanded.of_keys hKeys) hSister
        hTerminal hWord hStop, rfl⟩
  | narrowFirst hStart hStop =>
      exact ⟨_, .narrowFirst hStart hStop, rfl⟩
  | narrowLast hStart hStop =>
      exact ⟨_, .narrowLast hStart hStop, rfl⟩
  | scanHead hCorner hHead hDaughter hTerminal hWord hStart
      hStop =>
      exact ⟨_, .scanHead hCorner hHead hDaughter hTerminal
        hWord hStart hStop, rfl⟩
  | scanEmpty hCorner hEmpty hStart hStop =>
      exact ⟨_, .scanEmpty hCorner hEmpty hStart hStop, rfl⟩
  | projectInside hFound hCorner hHead hDaughter hStart
      hStop =>
      rcases exists_mem_of_keys hKeys hFound with
        ⟨below, hBelow⟩
      exact ⟨_, .projectInside hBelow hCorner hHead hDaughter
        hStart hStop, rfl⟩
  | projectUp hGoal hCorner hHead hDaughter hStart hStop =>
      exact ⟨_, .projectUp (map_key_subset hKeys hGoal)
        hCorner hHead hDaughter hStart hStop, rfl⟩

end

------------------------------------------------------------
-- Steps as Rules on Keys
------------------------------------------------------------

/-
  The rule on keys that a step amounts to: in a chart of
  items with known keys, an item with the first key offers
  an item with the second one.
-/
def Step.Licenses
    (step : Step)
    (words : List Symbol)
    (known : Set (ItemKey G))
    (key new : ItemKey G) : Prop :=
  ∃ (C : Chart G) (item found : Item G),
    (∀ x ∈ C.items.toList, x.key ∈ known) ∧
      item.key = key ∧
        .ok found ∈ step.offers C words item ∧
          found.key = new

/-
  The keys contain those of the seeds and all keys that the
  steps license.
-/
structure IsTheory
    (words : List Symbol)
    (steps : List Step)
    (seeds : List (Item G))
    (keys : Set (ItemKey G)) : Prop where
  seeded : ∀ first ∈ seeds, first.key ∈ keys
  closed : ∀ key ∈ keys, ∀ step ∈ steps, ∀ new,
    step.Licenses words keys key new → new ∈ keys

variable {steps : List Step}
variable {seeds items : List (Item G)}

/- The calculus licenses what it infers. -/
theorem Infers.licenses
    {known : List (Item G)}
    (hWellFormed : ∀ x ∈ known, x.key.WellFormed)
    {step : Step}
    {item new : Item G}
    (hItem : item ∈ known)
    (hInfers : Infers words known step item new)
    {keys : Set (ItemKey G)}
    (hKeys : ∀ x ∈ known, x.key ∈ keys) :
    step.Licenses words keys item.key new.key := by
  rcases Chart.ofItems_spec 0
      (fun x hx => (hWellFormed x hx).start_le_stop) with
    ⟨hItems, hKnown⟩
  have hChart :
      ∀ x ∈ (Chart.ofItems 0 known).items.toList,
        x.key.WellFormed :=
    fun x hx => hWellFormed x (hItems hx)
  rcases hInfers.exists_of_keys hKnown rfl with
    ⟨found, hFound, hSame⟩
  have hOffer :
      .ok found ∈
        step.offers (Chart.ofItems 0 known) words item :=
    (step.mem_offers_iff hChart (hWellFormed item hItem)).mpr
      ⟨found, rfl, hFound⟩
  exact ⟨Chart.ofItems 0 known, item, found,
    fun x hx => hKeys x (hItems hx), rfl, hOffer, hSame⟩

/- The items of a deduction have their keys in each theory. -/
theorem Deduction.key_mem_of_isTheory
    (hSeeds : ∀ first ∈ seeds, first.key.WellFormed)
    (hItems : Deduction words steps seeds items)
    {keys : Set (ItemKey G)}
    (hTheory : IsTheory words steps seeds keys) :
    ∀ x ∈ items, x.key ∈ keys := by
  have hBoth :
      ∀ x ∈ items, x.key.WellFormed ∧ x.key ∈ keys := by
    refine hItems.forall_mem
      (fun first hFirst =>
        ⟨hSeeds first hFirst, hTheory.seeded first hFirst⟩)
      ?_
    intro known step item new hKnown hStep hItem hInfers
    have hWellFormed : ∀ x ∈ known, x.key.WellFormed :=
      fun x hx => (hKnown x hx).1
    refine ⟨hInfers.wellFormed hWellFormed
      (hWellFormed item hItem), ?_⟩
    exact hTheory.closed item.key (hKnown item hItem).2 step
      hStep new.key
      (hInfers.licenses hWellFormed hItem
        (fun x hx => (hKnown x hx).2))
  exact fun x hx => (hBoth x hx).2

namespace Closure

/- The keys of a closure are a theory. -/
theorem isTheory_keys
    (hSeeds : ∀ first ∈ seeds, first.key.WellFormed)
    (hClosure : Closure words steps seeds items) :
    IsTheory words steps seeds
      {key | key ∈ items.map Item.key} where
  seeded := hClosure.seeded
  closed := by
    intro key hKey step hStep new hLicenses
    have hWellFormed :
        ∀ x : Item G, x.key ∈ items.map Item.key →
          x.key.WellFormed := by
      intro x hx
      rcases List.mem_map.mp hx with ⟨y, hy, hSame⟩
      rw [← hSame]
      exact hClosure.deduction.wellFormed hSeeds y hy
    rcases hLicenses with
      ⟨C, item, found, hKnown, rfl, hOffer, rfl⟩
    rcases (step.mem_offers_iff
        (fun x hx => hWellFormed x (hKnown x hx))
        (hWellFormed item hKey)).mp hOffer with
      ⟨_, hSame, hInfers⟩
    cases hSame
    rcases List.mem_map.mp hKey with ⟨known, hItem, hSame⟩
    rcases hInfers.exists_of_keys hKnown hSame with
      ⟨other, hOther, hNew⟩
    have hMember := hClosure.key_mem hStep hItem hOther
    rwa [hNew] at hMember

/- The keys of a closure are the least theory. -/
theorem isLeast_keys
    (hSeeds : ∀ first ∈ seeds, first.key.WellFormed)
    (hClosure : Closure words steps seeds items) :
    IsLeast {keys | IsTheory words steps seeds keys}
      {key | key ∈ items.map Item.key} := by
  refine ⟨hClosure.isTheory_keys hSeeds, ?_⟩
  intro keys hTheory key hKey
  rcases List.mem_map.mp hKey with ⟨x, hx, rfl⟩
  exact hClosure.deduction.key_mem_of_isTheory hSeeds hTheory
    x hx

/- All closures of the seeds have the same keys. -/
theorem mem_keys_iff
    {others : List (Item G)}
    (hSeeds : ∀ first ∈ seeds, first.key.WellFormed)
    (hClosure : Closure words steps seeds items)
    (hOther : Closure words steps seeds others)
    {key : ItemKey G} :
    key ∈ items.map Item.key ↔ key ∈ others.map Item.key := by
  have hSame := (hClosure.isLeast_keys hSeeds).unique
    (hOther.isLeast_keys hSeeds)
  exact Set.ext_iff.mp hSame key

end Closure

end Constituency
