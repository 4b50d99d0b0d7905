import Constituency.Parse.Progress

/-
  This file gives the ways of reasoning about step-by-step
  work: what every step keeps holds of the state that is
  reached, work whose measure falls with every step is
  finished by a larger budget, and work that is guarded by a
  limit in every step is so as a whole.

  Key definitions include:
    * `Progress.Guards`

  Main declarations:
    * `Progress.iterate_keeps`
    * `Progress.exists_of_iterate_finished`
    * `Progress.iterate_finishes`
    * `Progress.iterate_guards`
-/

namespace Constituency

namespace Progress

variable {σ : Type}
variable {step : σ → Progress σ}

/- What every step keeps is kept by the whole work. -/
theorem iterate_keeps
    {P : σ → Prop}
    (hStep : ∀ state, P state → P (step state).state)
    (budget : Nat)
    {state : σ}
    (hState : P state) :
    P (iterate step budget state).state := by
  induction budget generalizing state with
  | zero => exact hState
  | succ budget ih =>
      have hNext := hStep state hState
      unfold iterate
      cases hResult : step state with
      | running next =>
          rw [hResult] at hNext
          exact ih hNext
      | finished last =>
          rw [hResult] at hNext
          exact hNext
      | failed error last =>
          rw [hResult] at hNext
          exact hNext

/- Finished work was finished by some step. -/
theorem exists_of_iterate_finished
    {P : σ → Prop}
    (hStep : ∀ state, P state → P (step state).state)
    {budget : Nat}
    {state last : σ}
    (hState : P state)
    (hLast : iterate step budget state = .finished last) :
    ∃ before, P before ∧ step before = .finished last := by
  induction budget generalizing state with
  | zero => cases hLast
  | succ budget ih =>
      have hNext := hStep state hState
      unfold iterate at hLast
      cases hResult : step state with
      | running next =>
          rw [hResult] at hLast hNext
          exact ih hNext hLast
      | finished other =>
          rw [hResult] at hLast
          cases hLast
          exact ⟨state, hState, hResult⟩
      | failed error other =>
          rw [hResult] at hLast
          cases hLast

/- What the first step finishes is reached at once. -/
theorem eq_of_iterate_finished
    {budget : Nat}
    {state first last : σ}
    (hFirst : step state = .finished first)
    (hLast : iterate step budget state = .finished last) :
    last = first := by
  cases budget with
  | zero => cases hLast
  | succ budget =>
      rw [iterate, hFirst] at hLast
      cases hLast
      rfl

/-
  Work is finished if its steps never fail and make a
  measure smaller that starts below the budget.
-/
theorem iterate_finishes
    {P Q : σ → Prop}
    {measure : σ → Nat}
    (hStep : ∀ state, P state →
      (∃ next, step state = .running next ∧ P next ∧
        measure next < measure state) ∨
      ∃ last, step state = .finished last ∧ Q last)
    (budget : Nat)
    {state : σ}
    (hState : P state)
    (hBudget : measure state < budget) :
    ∃ last, iterate step budget state = .finished last ∧
      Q last := by
  induction budget generalizing state with
  | zero => exact absurd hBudget (Nat.not_lt_zero _)
  | succ budget ih =>
      unfold iterate
      rcases hStep state hState with
        ⟨next, hNext, hKept, hMeasure⟩ | ⟨last, hLast, hQ⟩
      · rw [hNext]
        apply ih hKept
        omega
      · rw [hLast]
        exact ⟨last, rfl, hQ⟩

------------------------------------------------------------
-- Guarded Work
------------------------------------------------------------

/-
  Guarded work is the same as free work that stays within a
  limit. Where free work passes the limit, guarded work is
  given up, and has logged a first part of what free work
  logs.
-/
inductive Guards
    {ε : Type}
    (size : σ → Nat)
    (log : σ → List ε)
    (limit : Nat)
    (error : ParseError)
    (free guarded : Progress σ) : Prop where
  | within
      (hSize : size free.state ≤ limit)
      (hSame : guarded = free)
  | beyond
      {last : σ}
      (hSize : limit < size free.state)
      (hCut : guarded = .failed error last)
      (hLog : log last <+: log free.state)

section

variable {ε : Type}
variable {size : σ → Nat}
variable {log : σ → List ε}
variable {limit : Nat}
variable {error : ParseError}

/-
  A check in the middle of work guards it, if the size does
  not change after the check.
-/
theorem Guards.of_check
    {free guarded : Progress σ}
    (middle : σ)
    (hSize : size free.state = size middle)
    (hLog : log middle <+: log free.state)
    (hCheck : guarded =
      if limit < size middle then .failed error middle
      else free) :
    Guards size log limit error free guarded := by
  by_cases hPassed : limit < size middle
  · rw [if_pos hPassed] at hCheck
    rw [← hSize] at hPassed
    exact .beyond hPassed hCheck hLog
  · rw [if_neg hPassed] at hCheck
    rw [← hSize] at hPassed
    exact .within (Nat.le_of_not_lt hPassed) hCheck

variable {free guarded : σ → Progress σ}

/-
  If the first step is guarded and so is the work after it,
  then so is the whole. When guarded work is given up at
  once, free work only makes the state larger and the log
  longer from there.
-/
theorem Guards.iterate_succ
    (hGrows : ∀ state,
      size state ≤ size (free state).state ∧
        log state <+: log (free state).state)
    {budget : Nat}
    {state : σ}
    (hFirst :
      Guards size log limit error (free state)
        (guarded state))
    (hRest : ∀ next, free state = .running next →
      size next ≤ limit →
        Guards size log limit error
          (iterate free budget next)
          (iterate guarded budget next)) :
    Guards size log limit error
      (iterate free (budget + 1) state)
      (iterate guarded (budget + 1) state) := by
  cases hFirst with
  | within hSize hSame =>
      unfold iterate
      rw [hSame]
      cases hNext : free state with
      | running next =>
          rw [hNext] at hSize
          exact hRest next hNext hSize
      | finished last =>
          rw [hNext] at hSize
          exact .within hSize rfl
      | failed cause last =>
          rw [hNext] at hSize
          exact .within hSize rfl
  | @beyond last hSize hCut hLog =>
      have hAfter :
          size (free state).state ≤
              size (iterate free (budget + 1) state).state ∧
            log (free state).state <+:
              log (iterate free (budget + 1) state).state := by
        unfold iterate
        cases free state with
        | running next =>
            apply iterate_keeps
              (P := fun later => size next ≤ size later ∧
                log next <+: log later)
            · intro later hLater
              rcases hGrows later with ⟨hSize, hLog⟩
              exact ⟨Nat.le_trans hLater.1 hSize,
                hLater.2.trans hLog⟩
            · exact ⟨Nat.le_refl _, List.prefix_refl _⟩
        | finished later =>
            exact ⟨Nat.le_refl _, List.prefix_refl _⟩
        | failed cause later =>
            exact ⟨Nat.le_refl _, List.prefix_refl _⟩
      have hGuarded :
          iterate guarded (budget + 1) state =
            .failed error last := by
        unfold iterate
        rw [hCut]
      exact .beyond (Nat.lt_of_lt_of_le hSize hAfter.1)
        hGuarded (hLog.trans hAfter.2)

/-
  Work within the limit is guarded as a whole if each step
  from within the limit is.
-/
theorem iterate_guards
    {P : σ → Prop}
    (hKeeps : ∀ state, P state → P (free state).state)
    (hGrows : ∀ state,
      size state ≤ size (free state).state ∧
        log state <+: log (free state).state)
    (hStep : ∀ state, P state → size state ≤ limit →
      Guards size log limit error (free state)
        (guarded state))
    (budget : Nat)
    {state : σ}
    (hState : P state)
    (hSize : size state ≤ limit) :
    Guards size log limit error
      (iterate free budget state)
      (iterate guarded budget state) := by
  induction budget generalizing state with
  | zero => exact .within hSize rfl
  | succ budget ih =>
      apply (hStep state hState hSize).iterate_succ hGrows
      intro next hNext hWithin
      have hKept := hKeeps state hState
      rw [hNext] at hKept
      exact ih hKept hWithin

end

end Progress

end Constituency
