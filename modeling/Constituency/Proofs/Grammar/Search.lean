import Constituency.Grammar.Corner
import Mathlib.Logic.Relation

/-
  This file shows what a search comes to that visits waiting
  symbols in any order. Every search comes to an end, on
  cyclic steps too, and has then reached the symbols that
  some chain of steps leads to.

  Key definitions include:
    * `Corner.Leads`
    * `Corner.Search.Turn`
    * `Corner.Search.Covers`

  Main declarations:
    * `Corner.Search.wellFounded_turn`
    * `Corner.Search.exists_turn_iff`
    * `Corner.Search.mem_reached_iff`
    * `Corner.turns_reach`
-/

namespace Constituency

open Relation

namespace Corner

/- One of the steps leads from a symbol to another. -/
def Leads
    (edges : List Edge)
    (source target : Symbol) : Prop :=
  (source, target) ∈ edges

theorem mem_targets_iff
    {edges : List Edge}
    {source target : Symbol} :
    target ∈ targets edges source ↔
      Leads edges source target := by
  simp [targets, Leads]

namespace Search

------------------------------------------------------------
-- Noting Symbols
------------------------------------------------------------

/- Symbols that are noted count as reached. -/
theorem mem_reached_foldl_note_iff
    (search : Search)
    (symbols : List Symbol)
    {symbol : Symbol} :
    symbol ∈ (symbols.foldl note search).reached ↔
      symbol ∈ search.reached ∨ symbol ∈ symbols := by
  induction symbols generalizing search with
  | nil => simp
  | cons first symbols ih =>
      rw [List.foldl_cons, ih, List.mem_cons]
      unfold note
      split
      · rename_i hFirst
        constructor
        · exact fun h => h.imp_right Or.inr
        · rintro (hOld | rfl | hLater)
          · exact Or.inl hOld
          · exact Or.inl hFirst
          · exact Or.inr hLater
      · rw [List.mem_cons, or_comm (a := symbol = first),
          or_assoc]

/- They wait if they had not been reached before. -/
theorem mem_waiting_foldl_note_iff
    (search : Search)
    (symbols : List Symbol)
    {symbol : Symbol} :
    symbol ∈ (symbols.foldl note search).waiting ↔
      symbol ∈ search.waiting ∨
        (symbol ∈ symbols ∧ symbol ∉ search.reached) := by
  induction symbols generalizing search with
  | nil => simp
  | cons first symbols ih =>
      rw [List.foldl_cons, ih, List.mem_cons]
      unfold note
      split
      · rename_i hFirst
        by_cases hSame : symbol = first
        · subst hSame
          simp [hFirst]
        · simp [hSame]
      · rename_i hFirst
        by_cases hSame : symbol = first
        · subst hSame
          simp [hFirst]
        · simp [hSame]

------------------------------------------------------------
-- Turns in Any Order
------------------------------------------------------------

/-
  One turn of a search: any of the waiting symbols is
  visited, and the symbols one step away are noted in any
  order.
-/
inductive Turn
    (edges : List Edge) : Search → Search → Prop
  | visit
      {waiting others order reached : List Symbol}
      {symbol : Symbol}
      (hTaken : waiting.Perm (symbol :: others))
      (hOrder : order.Perm (targets edges symbol)) :
      Turn edges ⟨waiting, reached⟩
        (order.foldl note ⟨others, reached⟩)

variable {edges : List Edge}
variable {search later : Search}

/- Every turn leaves less to do. -/
theorem Turn.pending_lt
    (hTurn : Turn edges search later) :
    later.pending edges < search.pending edges := by
  cases hTurn with
  | @visit waiting others order reached symbol hTaken
      hOrder =>
      have hEdges :
          ∀ target ∈ order, ∃ edge ∈ edges,
            edge.2 = target :=
        fun _ hTarget =>
          exists_edge_of_mem_targets
            (hOrder.mem_iff.mp hTarget)
      have hNoted :
          (order.foldl note ⟨others, reached⟩).pending edges ≤
            pending edges ⟨others, reached⟩ :=
        pending_foldl_note_le hEdges _
      have hLength := hTaken.length_eq
      apply Nat.lt_of_le_of_lt hNoted
      simp only [pending, hLength, List.length_cons]
      omega

/- No search goes on forever, whatever the steps. -/
theorem wellFounded_turn
    (edges : List Edge) :
    WellFounded
      (fun later search => Turn edges search later) :=
  Subrelation.wf (fun hTurn => hTurn.pending_lt)
    (measure (pending edges)).wf

/- A search goes on as long as a symbol waits. -/
theorem exists_turn_iff :
    (∃ later, Turn edges search later) ↔
      search.waiting ≠ [] := by
  rcases search with ⟨waiting, reached⟩
  constructor
  · rintro ⟨later, hTurn⟩ hNone
    cases hTurn with
    | visit hTaken hOrder =>
        cases hNone
        exact absurd hTaken.length_eq.symm
          (Nat.succ_ne_zero _)
  · intro hSome
    rcases List.exists_cons_of_ne_nil hSome with
      ⟨symbol, others, rfl⟩
    exact ⟨_, .visit (.refl _) (.refl _)⟩

------------------------------------------------------------
-- What Is Reached
------------------------------------------------------------

/-
  Chains of steps lead to all that has been reached. Of the
  source and of each symbol reached that does not wait any
  more, all steps have been followed.
-/
structure Covers
    (edges : List Edge)
    (source : Symbol)
    (search : Search) : Prop where
  waiting : ∀ symbol ∈ search.waiting,
    symbol = source ∨ symbol ∈ search.reached
  reached : ∀ symbol ∈ search.reached,
    TransGen (Leads edges) source symbol
  followed : ∀ symbol,
    symbol = source ∨ symbol ∈ search.reached →
      symbol ∉ search.waiting →
        ∀ target, Leads edges symbol target →
          target ∈ search.reached

variable {source : Symbol}

theorem covers_ofSymbol
    (edges : List Edge)
    (source : Symbol) :
    Covers edges source (ofSymbol source) where
  waiting := by simp [ofSymbol]
  reached := by simp [ofSymbol]
  followed := by
    rintro symbol (rfl | hReached) hVisited
    · exact absurd List.mem_cons_self hVisited
    · cases hReached

/- Every turn keeps to the chains of steps. -/
theorem Covers.turn
    (hCovers : Covers edges source search)
    (hTurn : Turn edges search later) :
    Covers edges source later := by
  cases hTurn with
  | @visit waiting others order reached symbol hTaken
      hOrder =>
      have hTargets : ∀ target,
          target ∈ order ↔ Leads edges symbol target :=
        fun _ => hOrder.mem_iff.trans mem_targets_iff
      have hOthers : ∀ other,
          other ∈ waiting ↔ other = symbol ∨ other ∈ others :=
        fun _ => hTaken.mem_iff.trans List.mem_cons
      have hSymbol : symbol = source ∨ symbol ∈ reached :=
        hCovers.waiting symbol
          ((hOthers symbol).mpr (Or.inl rfl))
      constructor
      · intro other hOther
        rw [mem_reached_foldl_note_iff]
        rcases (mem_waiting_foldl_note_iff _ _).mp hOther with
          hOld | ⟨hNew, _⟩
        · have hKnown := hCovers.waiting other
            ((hOthers other).mpr (Or.inr hOld))
          exact hKnown.imp_right Or.inl
        · exact Or.inr (Or.inr hNew)
      · intro other hOther
        rcases (mem_reached_foldl_note_iff _ _).mp hOther with
          hOld | hNew
        · exact hCovers.reached other hOld
        · have hStep := (hTargets other).mp hNew
          rcases hSymbol with rfl | hReached
          · exact .single hStep
          · exact (hCovers.reached symbol hReached).tail hStep
      · intro other hOther hVisited target hStep
        rw [mem_waiting_foldl_note_iff, not_or] at hVisited
        rw [mem_reached_foldl_note_iff] at hOther ⊢
        by_cases hSame : other = symbol
        · subst hSame
          exact Or.inr ((hTargets target).mpr hStep)
        · have hLeft : other ∉ waiting := by
            rw [hOthers]
            exact not_or.mpr ⟨hSame, hVisited.1⟩
          have hKnown : other = source ∨ other ∈ reached := by
            rcases hOther with hSource | hOld | hNew
            · exact Or.inl hSource
            · exact Or.inr hOld
            · -- A symbol noted in this turn still waits,
              -- unless it had been reached before.
              exact Or.inr (Decidable.not_not.mp
                (fun hNot => hVisited.2 ⟨hNew, hNot⟩))
          exact Or.inl
            (hCovers.followed other hKnown hLeft target hStep)

/- So does a search as a whole. -/
theorem covers_of_turns
    (hTurns :
      ReflTransGen (Turn edges) (ofSymbol source) search) :
    Covers edges source search := by
  induction hTurns with
  | refl => exact covers_ofSymbol edges source
  | tail _ hTurn ih => exact ih.turn hTurn

/-
  Whatever the order, a search that has come to its end has
  reached what at least one step leads to.
-/
theorem mem_reached_iff
    (hTurns :
      ReflTransGen (Turn edges) (ofSymbol source) search)
    (hDone : search.waiting = [])
    {target : Symbol} :
    target ∈ search.reached ↔
      TransGen (Leads edges) source target := by
  have hCovers := covers_of_turns hTurns
  have hFollowed : ∀ symbol,
      symbol = source ∨ symbol ∈ search.reached →
        ∀ target, Leads edges symbol target →
          target ∈ search.reached := by
    intro symbol hSymbol
    apply hCovers.followed symbol hSymbol
    rw [hDone]
    exact List.not_mem_nil
  constructor
  · exact hCovers.reached target
  · intro hChain
    induction hChain with
    | single hStep =>
        exact hFollowed source (Or.inl rfl) _ hStep
    | tail _ hStep ih =>
        exact hFollowed _ (Or.inr ih) _ hStep

end Search

/- The last symbol to wait is visited first. -/
theorem turns_reach
    (edges : List Edge)
    (search : Search) :
    ReflTransGen (Search.Turn edges) search
      ⟨[], reach edges search⟩ := by
  fun_induction reach edges search with
  | case1 reached => exact .refl
  | case2 symbol waiting reached ih =>
      exact .head (.visit (.refl _) (.refl _)) ih

end Corner

end Constituency
