import Constituency.Parse.Saturation
import Constituency.Parse.Sweep
import Constituency.Proofs.Inference.Calculus

/-
  This file defines deductions: rows of items in which each
  one is a seed or follows from earlier ones, and closures:
  deductions from which nothing new follows.

  Key definitions include:
    * `Deduction`
    * `IsClosed`
    * `Closure`

  Main declarations:
    * `Deduction.forall_mem`
    * `Deduction.wellFormed`
    * `Deduction.stop_le`
    * `Deduction.isSingle`
    * `Deduction.not_isSingle`
-/

namespace Constituency

variable {G : Grammar}

------------------------------------------------------------
-- Deductions
------------------------------------------------------------

/-
  Each item of the row is a seed, or follows by one of the
  steps from an item before it, with partners before it.
-/
inductive Deduction
    (words : List Symbol)
    (steps : List Step)
    (seeds : List (Item G)) : List (Item G) → Prop where
  | nil : Deduction words steps seeds []
  | seed
      {items : List (Item G)}
      {first : Item G}
      (hItems : Deduction words steps seeds items)
      (hSeed : first ∈ seeds) :
      Deduction words steps seeds (items ++ [first])
  | infer
      {items : List (Item G)}
      {step : Step}
      {item new : Item G}
      (hItems : Deduction words steps seeds items)
      (hStep : step ∈ steps)
      (hItem : item ∈ items)
      (hInfers : Infers words items step item new) :
      Deduction words steps seeds (items ++ [new])

/-
  Whatever follows from the item has a key that is known.
-/
def IsClosed
    (words : List Symbol)
    (steps : List Step)
    (known : List (Item G))
    (item : Item G) : Prop :=
  ∀ step ∈ steps, ∀ new,
    Infers words known step item new →
      new.key ∈ known.map Item.key

/- A deduction that has the seeds and all that follows. -/
structure Closure
    (words : List Symbol)
    (steps : List Step)
    (seeds items : List (Item G)) : Prop where
  deduction : Deduction words steps seeds items
  seeded : ∀ first ∈ seeds,
    first.key ∈ items.map Item.key
  closed : ∀ item ∈ items, IsClosed words steps items item

variable {words : List Symbol}
variable {steps : List Step}
variable {seeds items : List (Item G)}

/- In a closure what follows from an item has a known key. -/
theorem Closure.key_mem
    (hClosure : Closure words steps seeds items)
    {step : Step}
    (hStep : step ∈ steps)
    {item new : Item G}
    (hItem : item ∈ items)
    (hInfers : Infers words items step item new) :
    new.key ∈ items.map Item.key :=
  hClosure.closed item hItem step hStep new hInfers

namespace Deduction

/- A deduction goes on with items that follow from it. -/
theorem append
    {step : Step}
    {item : Item G}
    {new : List (Item G)}
    (hItems : Deduction words steps seeds items)
    (hStep : step ∈ steps)
    (hItem : item ∈ items)
    (hNew : ∀ x ∈ new, Infers words items step item x) :
    Deduction words steps seeds (items ++ new) := by
  induction new generalizing items with
  | nil => rwa [List.append_nil]
  | cons x new ih =>
      have hFirst := hNew x List.mem_cons_self
      have hKnown : items ⊆ items ++ [x] :=
        List.subset_append_left items [x]
      rw [← List.singleton_append, ← List.append_assoc]
      apply ih (hItems.infer hStep hItem hFirst)
        (hKnown hItem)
      intro y hy
      exact (hNew y (List.mem_cons_of_mem x hy)).mono hKnown

/- A deduction goes on with seeds. -/
theorem append_seeds
    {new : List (Item G)}
    (hItems : Deduction words steps seeds items)
    (hNew : ∀ x ∈ new, x ∈ seeds) :
    Deduction words steps seeds (items ++ new) := by
  induction new generalizing items with
  | nil => rwa [List.append_nil]
  | cons x new ih =>
      rw [← List.singleton_append, ← List.append_assoc]
      apply ih (hItems.seed (hNew x List.mem_cons_self))
      intro y hy
      exact hNew y (List.mem_cons_of_mem x hy)

/- The first items of a deduction are one themselves. -/
theorem of_prefix
    {first : List (Item G)}
    (hItems : Deduction words steps seeds items)
    (hPrefix : first <+: items) :
    Deduction words steps seeds first := by
  induction hItems with
  | nil =>
      rw [List.prefix_nil] at hPrefix
      subst hPrefix
      exact .nil
  | seed hItems hSeed ih =>
      rcases List.prefix_concat_iff.mp hPrefix with
        rfl | hBefore
      · exact hItems.seed hSeed
      · exact ih hBefore
  | infer hItems hStep hItem hInfers ih =>
      rcases List.prefix_concat_iff.mp hPrefix with
        rfl | hBefore
      · exact hItems.infer hStep hItem hInfers
      · exact ih hBefore

/-
  What holds of the seeds and of all that follows from items
  for which it holds is true of every item.
-/
theorem forall_mem
    {P : Item G → Prop}
    (hSeeds : ∀ first ∈ seeds, P first)
    (hInfers :
      ∀ {known : List (Item G)} {step : Step}
        {item new : Item G},
        (∀ x ∈ known, P x) → step ∈ steps → item ∈ known →
          Infers words known step item new → P new)
    (hItems : Deduction words steps seeds items) :
    ∀ x ∈ items, P x := by
  have hSnoc :
      ∀ {items : List (Item G)} {last : Item G},
        (∀ x ∈ items, P x) → P last →
          ∀ x ∈ items ++ [last], P x := by
    intro items last hAll hLast x hx
    rcases List.mem_append.mp hx with hOld | hNew
    · exact hAll x hOld
    · rw [List.mem_singleton] at hNew
      exact hNew ▸ hLast
  induction hItems with
  | nil => simp
  | seed _ hSeed ih => exact hSnoc ih (hSeeds _ hSeed)
  | infer _ hStep hItem hNew ih =>
      exact hSnoc ih (hInfers ih hStep hItem hNew)

theorem wellFormed
    (hSeeds : ∀ first ∈ seeds, first.key.WellFormed)
    (hItems : Deduction words steps seeds items) :
    ∀ x ∈ items, x.key.WellFormed := by
  apply hItems.forall_mem hSeeds
  intro known step item new hKnown _ hItem hNew
  exact hNew.wellFormed hKnown (hKnown item hItem)

/- No item ends behind the last word. -/
theorem stop_le
    (hSeeds : ∀ first ∈ seeds, first.key.WellFormed)
    (hStops : ∀ first ∈ seeds, first.stop ≤ words.length)
    (hItems : Deduction words steps seeds items) :
    ∀ x ∈ items, x.stop ≤ words.length := by
  have hBoth :
      ∀ x ∈ items, x.key.WellFormed ∧
        x.stop ≤ words.length := by
    refine hItems.forall_mem
      (fun first hFirst =>
        ⟨hSeeds first hFirst, hStops first hFirst⟩) ?_
    intro known step item new hKnown _ hItem hNew
    rcases hKnown item hItem with ⟨hKey, hStop⟩
    exact ⟨hNew.wellFormed (fun x hx => (hKnown x hx).1) hKey,
      hNew.stop_le (fun x hx => (hKnown x hx).2) hKey hStop⟩
  exact fun x hx => (hBoth x hx).2

end Deduction

------------------------------------------------------------
-- Kinds of Items
------------------------------------------------------------

/- The item has one dot. -/
def ItemKey.IsSingle
    (key : ItemKey G) : Prop :=
  ∃ r dot span, key = .single r dot span

/- Sweeping steps find single-dotted items only. -/
theorem Infers.isSingle_iff
    {known : List (Item G)}
    {step : Step}
    {item new : Item G}
    (hInfers : Infers words known step item new) :
    new.key.IsSingle ↔ step ≠ .combine := by
  unfold ItemKey.IsSingle
  cases hInfers <;> simp

namespace Deduction

/- Sweeping from single-dotted items stays with them. -/
theorem isSingle
    (hSteps : Step.combine ∉ steps)
    (hSeeds : ∀ first ∈ seeds, first.key.IsSingle)
    (hItems : Deduction words steps seeds items) :
    ∀ x ∈ items, x.key.IsSingle := by
  apply hItems.forall_mem hSeeds
  intro known step item new _ hStep _ hNew
  apply hNew.isSingle_iff.mpr
  rintro rfl
  exact hSteps hStep

/- Combining never finds a single-dotted item. -/
theorem not_isSingle
    (hSeeds : ∀ first ∈ seeds, ¬ first.key.IsSingle)
    (hItems : Deduction words [.combine] seeds items) :
    ∀ x ∈ items, ¬ x.key.IsSingle := by
  apply hItems.forall_mem hSeeds
  intro known step item new _ hStep _ hNew hSingle
  exact hNew.isSingle_iff.mp hSingle
    (List.mem_singleton.mp hStep)

end Deduction

end Constituency
