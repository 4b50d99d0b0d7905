import Constituency.Grammar.Index

/-
  This file computes corners: the symbols reached from a
  symbol by stepping, again and again, from the left-hand
  side of a rule to one chosen daughter of it.

  Key definitions include:
    * `Corner.Edge`
    * `Corner.edges`
    * `Corner.Search`
    * `Corner.Search.note`
    * `Corner.reach`
    * `Corner.table`
-/

namespace Constituency

namespace Corner

/- One step: from a left-hand side to the chosen daughter. -/
abbrev Edge :=
  Symbol × Symbol

/- The steps that a list of rules allows. -/
def edges
    (choose : Rule → Option Symbol)
    (rules : List Rule) : List Edge :=
  rules.filterMap
    (fun rule => (choose rule).map (Prod.mk rule.lhs))

/- The symbols one step away from a symbol. -/
def targets
    (edges : List Edge)
    (symbol : Symbol) : List Symbol :=
  (edges.filter (fun edge => edge.1 == symbol)).map Prod.snd

------------------------------------------------------------
-- Searches
------------------------------------------------------------

/-
  How far a search has come: the symbols that wait to be
  visited, the next one first, and those that a step has
  reached.
-/
structure Search where
  waiting : List Symbol
  reached : List Symbol
deriving DecidableEq

namespace Search

/-
  A search begins with a symbol that waits. It counts as
  reached only once a step comes back to it.
-/
def ofSymbol
    (symbol : Symbol) : Search :=
  ⟨[symbol], []⟩

/- A symbol waits when it is reached for the first time. -/
def note
    (search : Search)
    (symbol : Symbol) : Search :=
  if symbol ∈ search.reached then
    search
  else
    ⟨symbol :: search.waiting, symbol :: search.reached⟩

/-
  What there is still to do: the steps to symbols that have
  not been reached, and the symbols that wait.
-/
def pending
    (edges : List Edge)
    (search : Search) : Nat :=
  edges.countP (fun edge => edge.2 ∉ search.reached) +
    search.waiting.length

/- A symbol that comes to wait is one step less to do. -/
theorem pending_note_le
    {edges : List Edge}
    {edge : Edge}
    (hEdge : edge ∈ edges)
    (search : Search) :
    pending edges (search.note edge.2) ≤
      pending edges search := by
  unfold note
  split
  · exact Nat.le_refl _
  · rename_i hNew
    rcases List.append_of_mem hEdge with
      ⟨before, after, rfl⟩
    have hFewer : ∀ others : List Edge,
        others.countP
            (fun other => other.2 ∉ edge.2 :: search.reached) ≤
          others.countP
            (fun other => other.2 ∉ search.reached) := by
      intro others
      apply List.countP_mono_left
      intro other _ hOther
      simp only [List.mem_cons, not_or, decide_eq_true_eq]
        at hOther ⊢
      exact hOther.2
    have hBefore := hFewer before
    have hAfter := hFewer after
    simp only [pending, List.countP_append, List.countP_cons,
      List.mem_cons, true_or, hNew, not_true_eq_false,
      not_false_eq_true, decide_true, decide_false, if_true,
      List.length_cons] at hBefore hAfter ⊢
    simp only [Bool.false_eq_true, if_false]
    omega

/- Nor does it become more by noting several symbols. -/
theorem pending_foldl_note_le
    {edges : List Edge}
    {symbols : List Symbol}
    (hSymbols : ∀ symbol ∈ symbols,
      ∃ edge ∈ edges, edge.2 = symbol)
    (search : Search) :
    pending edges (symbols.foldl note search) ≤
      pending edges search := by
  induction symbols generalizing search with
  | nil => exact Nat.le_refl _
  | cons symbol symbols ih =>
      rcases hSymbols symbol List.mem_cons_self with
        ⟨edge, hEdge, rfl⟩
      exact Nat.le_trans
        (ih (fun other hOther =>
          hSymbols other (List.mem_cons_of_mem _ hOther)) _)
        (pending_note_le hEdge search)

/- A symbol one step away is at the end of a step. -/
theorem exists_edge_of_mem_targets
    {edges : List Edge}
    {symbol target : Symbol}
    (hTarget : target ∈ targets edges symbol) :
    ∃ edge ∈ edges, edge.2 = target := by
  rcases List.mem_map.mp hTarget with ⟨edge, hEdge, hSame⟩
  exact ⟨edge, (List.mem_filter.mp hEdge).1, hSame⟩

end Search

/-
  Visit waiting symbols, noting the symbols one step away,
  until none waits. Each symbol comes to wait at most once
  after the search has begun, so cycles come to an end.
-/
def reach
    (edges : List Edge)
    (search : Search) : List Symbol :=
  match search with
  | ⟨[], reached⟩ => reached
  | ⟨symbol :: waiting, reached⟩ =>
      reach edges
        ((targets edges symbol).foldl Search.note
          ⟨waiting, reached⟩)
termination_by search.pending edges
decreasing_by
  have hNoted :
      ((targets edges symbol).foldl Search.note
          ⟨waiting, reached⟩).pending edges ≤
        Search.pending edges ⟨waiting, reached⟩ :=
    Search.pending_foldl_note_le
      (fun _ => Search.exists_edge_of_mem_targets) _
  apply Nat.lt_of_le_of_lt hNoted
  simp only [Search.pending, List.length_cons]
  omega

/-
  For each left-hand side, the symbols reached from it by at
  least one step.
-/
def table
    (choose : Rule → Option Symbol)
    (rules : List Rule) : Index Symbol :=
  let steps := edges choose rules
  ⟨(rules.map Rule.lhs).eraseDups.map
    (fun symbol => (symbol, reach steps (.ofSymbol symbol)))⟩

end Corner

end Constituency
