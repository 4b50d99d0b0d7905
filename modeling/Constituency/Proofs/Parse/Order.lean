import Constituency.Proofs.Inference.Keys
import Constituency.Proofs.Parse.Outcome
import Mathlib.Logic.Relation

/-
  This file shows that the chart of a parse does not depend
  on the order of the work. A chart is explored by taking
  up, in any order, what the steps offer for its items; an
  exploration that is exhausted has the keys of the parse,
  and these are the least theory of the seeds.

  Key definitions include:
    * `Chart.Explores`
    * `Chart.IsExhausted`
    * `Chart.IsExplored`

  Main declarations:
    * `Chart.IsExplored.of_reachable`
    * `Chart.IsExplored.closure`
    * `Chart.IsExplored.exists_exhausted`
    * `Grammar.chart_independent_of_order`
    * `Grammar.repeated_order`
-/

namespace Constituency

variable {G : Grammar}
variable {words : List Symbol}
variable {steps : List Step}
variable {seeds : List (Item G)}

namespace Chart

------------------------------------------------------------
-- Explorations
------------------------------------------------------------

/-
  The chart takes up offers of a step for one of its items.
  The step may look at no more than a part of the chart, as
  if the rest were still waiting, and the offers may be any
  of those that it makes, in any order.
-/
def Explores
    (words : List Symbol)
    (steps : List Step)
    (C later : Chart G) : Prop :=
  ∃ step ∈ steps, ∃ item ∈ C.items.toList,
    ∃ (part : Chart G) (offers : Offers G),
      part.items.toList ⊆ C.items.toList ∧
        offers ⊆ step.offers part words item ∧
          later = (C.enterAll offers).1

/- No step brings anything new for an item of the chart. -/
def IsExhausted
    (words : List Symbol)
    (steps : List Step)
    (C : Chart G) : Prop :=
  ∀ step ∈ steps, ∀ item ∈ C.items.toList,
    (C.enterAll (step.offers C words item)).2 = .ok 0

------------------------------------------------------------
-- Explorations are Deductions
------------------------------------------------------------

/- The chart follows from the seeds, and has them all. -/
structure IsExplored
    (words : List Symbol)
    (steps : List Step)
    (seeds : List (Item G))
    (C : Chart G) : Prop where
  deduction : Deduction words steps seeds C.items.toList
  seeded : ∀ first ∈ seeds,
    first.key ∈ C.items.toList.map Item.key

/- The chart of the seeds has the seeds. -/
theorem isExplored_ofItems
    (hSeeds : ∀ first ∈ seeds, first.key.WellFormed)
    (n : Nat) :
    IsExplored words steps seeds (ofItems n seeds) := by
  rcases ofItems_spec n
      (fun x hx => (hSeeds x hx).start_le_stop) with
    ⟨hItems, hKeys⟩
  have hDeduction :
      Deduction words steps seeds
        ([] ++ (ofItems n seeds).items.toList) :=
    Deduction.nil.append_seeds (fun _ hx => hItems hx)
  exact ⟨hDeduction, hKeys⟩

namespace IsExplored

variable {C later : Chart G}
variable (hSeeds : ∀ first ∈ seeds, first.key.WellFormed)

include hSeeds

/-
  What is entered when offers are taken up follows from the
  chart. The offers were made for a part of it, and what
  follows from a part follows from the whole.
-/
theorem enterAll
    (hC : IsExplored words steps seeds C)
    {step : Step}
    (hStep : step ∈ steps)
    {item : Item G}
    (hItem : item ∈ C.items.toList)
    {part : Chart G}
    (hPart : part.items.toList ⊆ C.items.toList)
    {offers : Offers G}
    (hOffers : offers ⊆ step.offers part words item) :
    ∃ later new,
      C.enterAll offers = (later, .ok new.length) ∧
        later.items.toList = C.items.toList ++ new ∧
          Delivery offers C.items.toList new ∧
            IsExplored words steps seeds later := by
  have hWellFormed := hC.deduction.wellFormed hSeeds
  have hMade :
      ∀ offer ∈ offers, ∃ x, offer = .ok x ∧
        Infers words part.items.toList step item x :=
    fun offer hOffer =>
      (step.mem_offers_iff
        (fun x hx => hWellFormed x (hPart hx))
        (hWellFormed item hItem)).mp (hOffers hOffer)
  have hOk :
      ∀ offer ∈ offers,
        ∃ x, offer = .ok x ∧ x.start ≤ x.stop :=
    fun offer hOffer =>
      step.ok_of_mem_offers
        (fun x hx => hWellFormed x (hPart hx))
        (hWellFormed item hItem) (hOffers hOffer)
  rcases C.enterAll_of_ok hOk with
    ⟨later, new, hEnter, hItems, hDelivery⟩
  refine ⟨later, new, hEnter, hItems, hDelivery, ?_, ?_⟩
  · rw [hItems]
    refine hC.deduction.append hStep hItem ?_
    intro x hx
    rcases hMade _ (hDelivery.offered x hx) with
      ⟨y, hSame, hInfers⟩
    cases hSame
    exact hInfers.mono hPart
  · intro first hFirst
    rw [hItems, List.map_append]
    exact List.mem_append_left _ (hC.seeded first hFirst)

/- Taking up offers keeps a chart explored. -/
theorem explores
    (hC : IsExplored words steps seeds C)
    (hExplores : Explores words steps C later) :
    IsExplored words steps seeds later := by
  rcases hExplores with
    ⟨step, hStep, item, hItem, part, offers, hPart, hOffers,
      hLater⟩
  rcases hC.enterAll hSeeds hStep hItem hPart hOffers with
    ⟨next, _, hEnter, _, _, hNext⟩
  rw [hLater, hEnter]
  exact hNext

/- All charts that are reached from the seeds are explored. -/
theorem of_reachable
    (hReachable :
      Relation.ReflTransGen (Explores words steps)
        (ofItems words.length seeds) C) :
    IsExplored words steps seeds C := by
  induction hReachable with
  | refl => exact isExplored_ofItems hSeeds _
  | tail _ hExplores ih => exact ih.explores hSeeds hExplores

/- An exhausted chart is closed. -/
theorem closure
    (hC : IsExplored words steps seeds C)
    (hExhausted : C.IsExhausted words steps) :
    Closure words steps seeds C.items.toList where
  deduction := hC.deduction
  seeded := hC.seeded
  closed := by
    intro item hItem step hStep new hInfers
    have hWellFormed := hC.deduction.wellFormed hSeeds
    have hNone := hExhausted step hStep item hItem
    rcases hC.enterAll hSeeds hStep hItem
        (List.Subset.refl _) (List.Subset.refl _) with
      ⟨later, found, hEnter, _, hDelivery, _⟩
    rw [hEnter] at hNone
    have hLength : found.length = 0 := by
      simpa using hNone
    rw [List.length_eq_zero_iff] at hLength
    have hKnown := step.key_mem_of_delivery hWellFormed
      (hWellFormed item hItem) hDelivery hInfers
    rwa [hLength, List.append_nil] at hKnown

/-
  A chart cannot outgrow a closure: its keys are distinct,
  and those of the closure contain them.
-/
theorem size_le
    (hC : IsExplored words steps seeds C)
    {items : List (Item G)}
    (hClosure : Closure words steps seeds items) :
    C.items.toList.length ≤ items.length := by
  have hSubset :
      C.items.toList.map Item.key ⊆ items.map Item.key := by
    intro key hKey
    rcases List.mem_map.mp hKey with ⟨x, hx, rfl⟩
    exact hC.deduction.key_mem_of_isTheory hSeeds
      (hClosure.isTheory_keys hSeeds) x hx
  have hLength :=
    (C.nodup_keys.subperm hSubset).length_le
  rwa [List.length_map, List.length_map] at hLength

/-
  Every exploration goes on until it is exhausted. While it
  is not, some step enters something, and this cannot happen
  more often than the closure has items.
-/
theorem exists_exhausted
    (hC : IsExplored words steps seeds C)
    {items : List (Item G)}
    (hClosure : Closure words steps seeds items) :
    ∃ later,
      Relation.ReflTransGen (Explores words steps) C later ∧
        later.IsExhausted words steps := by
  generalize hRoom :
      items.length - C.items.toList.length = room
  induction room using Nat.strong_induction_on
    generalizing C with
  | _ room ih =>
      by_cases hExhausted : C.IsExhausted words steps
      · exact ⟨C, .refl, hExhausted⟩
      · simp only [IsExhausted, not_forall] at hExhausted
        rcases hExhausted with
          ⟨step, hStep, item, hItem, hSome⟩
        rcases hC.enterAll hSeeds hStep hItem
            (List.Subset.refl _) (List.Subset.refl _) with
          ⟨next, new, hEnter, hItems, _, hNext⟩
        have hExplores : Explores words steps C next :=
          ⟨step, hStep, item, hItem, C, _,
            List.Subset.refl _, List.Subset.refl _,
            by rw [hEnter]⟩
        have hNew : 0 < new.length := by
          rw [hEnter] at hSome
          apply Nat.pos_of_ne_zero
          intro hZero
          exact hSome (by rw [hZero])
        have hGrown :
            next.items.toList.length =
              C.items.toList.length + new.length := by
          rw [hItems, List.length_append]
        have hBound := hNext.size_le hSeeds hClosure
        rcases ih _ (by omega) hNext rfl with
          ⟨later, hLater, hDone⟩
        exact ⟨later, .head hExplores hLater, hDone⟩

end IsExplored

end Chart

------------------------------------------------------------
-- Order
------------------------------------------------------------

namespace Grammar

/-
  The chart of a parse without a limit has the least set of
  keys that contains those of the seeds and is closed under
  the steps. So it does not matter in which order the items
  are taken: every exploration from the seeds can be
  exhausted, and then it has the same keys.
-/
theorem chart_independent_of_order
    {start : Symbol}
    (hStart : G.isNonterminal start = true)
    (words : List Symbol)
    (algorithm : Algorithm) :
    ∃ parse,
      (G.parse algorithm start none words).result =
          .ok parse ∧
        IsLeast
          {keys | IsTheory words algorithm.steps
            (algorithm.seeds G start words) keys}
          {key | key ∈
            parse.chart.items.toList.map Item.key} ∧
        ∀ C : Chart G,
          Relation.ReflTransGen
              (Chart.Explores words algorithm.steps)
              (Chart.ofItems words.length
                (algorithm.seeds G start words)) C →
            (∃ later,
              Relation.ReflTransGen
                  (Chart.Explores words algorithm.steps)
                  C later ∧
                later.IsExhausted words algorithm.steps) ∧
            (C.IsExhausted words algorithm.steps →
              ∀ key, key ∈ C.items.toList.map Item.key ↔
                key ∈
                  parse.chart.items.toList.map Item.key) := by
  rcases G.parse_closure algorithm hStart words with
    ⟨parse, hParse, _, _, _, hClosure⟩
  have hSeeds :
      ∀ first ∈ algorithm.seeds G start words,
        first.key.WellFormed :=
    Algorithm.wellFormed_seeds
  refine ⟨parse, hParse, hClosure.isLeast_keys hSeeds, ?_⟩
  intro C hReachable
  have hC := Chart.IsExplored.of_reachable hSeeds hReachable
  refine ⟨hC.exists_exhausted hSeeds hClosure, ?_⟩
  intro hExhausted key
  exact (hC.closure hSeeds hExhausted).mem_keys_iff hSeeds
    hClosure

/- The seeds alone can be explored up to the keys of a parse. -/
theorem repeated_order :
    repeated.isNonterminal "S" = true ∧
      ∃ parse later,
        (repeated.parse .headCorner "S" none ["b"]).result =
            .ok parse ∧
          Relation.ReflTransGen
              (Chart.Explores ["b"] [.combine])
              (Chart.ofItems 1
                [⟨.goal "S" ⟨0, 1⟩, []⟩]) later ∧
            ∀ key, key ∈ later.items.toList.map Item.key ↔
              key ∈
                parse.chart.items.toList.map Item.key := by
  have hStart : repeated.isNonterminal "S" = true := by
    decide
  rcases chart_independent_of_order hStart ["b"] .headCorner
    with ⟨parse, hParse, _, hOrder⟩
  rcases (hOrder _ .refl).1 with ⟨later, hLater, hExhausted⟩
  exact ⟨hStart, parse, later, hParse, hLater,
    (hOrder later hLater).2 hExhausted⟩

end Grammar

end Constituency
