import Constituency.Proofs.Grammar.Lookup
import Constituency.Proofs.Grammar.Search

/-
  This file shows that the corner tables hold the
  reflexive-transitive closure of stepping from a left-hand
  side to a chosen daughter.

  Key definitions include:
    * `Grammar.Daughter`
    * `Grammar.IsLeftCorner`
    * `Grammar.IsHeadCorner`
    * `Corner.IsTable`

  Main declarations:
    * `Corner.IsTable.mem_find_iff`
    * `Grammar.isLeftCornerOf_iff`
    * `Grammar.isHeadCornerOf_iff`
    * `Grammar.corners_exact`
    * `Grammar.crossed_corners`
-/

namespace Constituency

open Relation

------------------------------------------------------------
-- Corners as Chains of Daughters
------------------------------------------------------------

namespace Grammar

/- Some rule leads from a symbol to the chosen daughter. -/
def Daughter
    (G : Grammar)
    (choose : Rule → Option Symbol)
    (upper lower : Symbol) : Prop :=
  ∃ r, (G.rule r).lhs = upper ∧
    choose (G.rule r) = some lower

/- A chain of first daughters leads down to the symbol. -/
def IsLeftCorner
    (G : Grammar)
    (lower upper : Symbol) : Prop :=
  ReflTransGen (G.Daughter Rule.leftmost) upper lower

/- A chain of head daughters leads down to the symbol. -/
def IsHeadCorner
    (G : Grammar)
    (lower upper : Symbol) : Prop :=
  ReflTransGen (G.Daughter Rule.headSymbol) upper lower

end Grammar

------------------------------------------------------------
-- Tables of Corners
------------------------------------------------------------

namespace Index

variable {α : Type}

/- A group that is found is one of the groups. -/
theorem mem_of_groupOf_eq_some
    {symbol : Symbol}
    {groups : List (Symbol × List α)}
    {values : List α}
    (hGroup : groupOf symbol groups = some values) :
    (symbol, values) ∈ groups := by
  induction groups with
  | nil => cases hGroup
  | cons group groups ih =>
      rcases group with ⟨key, others⟩
      by_cases hKey : symbol = key
      · subst hKey
        rw [groupOf, if_pos rfl] at hGroup
        cases hGroup
        exact List.mem_cons_self
      · rw [groupOf, if_neg hKey] at hGroup
        exact List.mem_cons_of_mem _ (ih hGroup)

/- None is found for a symbol that has none. -/
theorem not_mem_of_groupOf_eq_none
    {symbol : Symbol}
    {groups : List (Symbol × List α)}
    (hNone : groupOf symbol groups = none) :
    symbol ∉ groups.map Prod.fst := by
  induction groups with
  | nil => exact List.not_mem_nil
  | cons group groups ih =>
      rcases group with ⟨key, others⟩
      by_cases hKey : symbol = key
      · rw [groupOf, if_pos hKey] at hNone
        cases hNone
      · rw [groupOf, if_neg hKey] at hNone
        rw [List.map_cons, List.mem_cons, not_or]
        exact ⟨hKey, ih hNone⟩

end Index

namespace Corner

/-
  A table with one group for each left-hand side, in any
  order; each group is what a search has reached, in any
  order, when it has come to its end.
-/
structure IsTable
    (choose : Rule → Option Symbol)
    (rules : List Rule)
    (index : Index Symbol) : Prop where
  keys : (index.groups.map Prod.fst).Perm
    (rules.map Rule.lhs).eraseDups
  found : ∀ group ∈ index.groups, ∃ search : Search,
    ReflTransGen (Search.Turn (edges choose rules))
        (.ofSymbol group.1) search ∧
      search.waiting = [] ∧ group.2 = search.reached

/- The table of corners is one of them. -/
theorem isTable_table
    (choose : Rule → Option Symbol)
    (rules : List Rule) :
    IsTable choose rules (table choose rules) where
  keys := by
    simp only [table, List.map_map]
    exact List.Perm.of_eq (List.map_id _)
  found := by
    intro group hGroup
    rcases List.mem_map.mp hGroup with ⟨symbol, _, rfl⟩
    exact ⟨_, turns_reach _ _, rfl, rfl⟩

theorem leads_edges_iff
    (G : Grammar)
    (choose : Rule → Option Symbol)
    {source target : Symbol} :
    Leads (edges choose G.rules.toList) source target ↔
      G.Daughter choose source target := by
  unfold Leads edges Grammar.Daughter
  rw [List.mem_filterMap]
  constructor
  · rintro ⟨rule, hRule, hEdge⟩
    rcases List.mem_iff_getElem.mp hRule with ⟨k, hk, rfl⟩
    rcases Option.map_eq_some_iff.mp hEdge with
      ⟨daughter, hDaughter, hPair⟩
    cases hPair
    exact ⟨⟨k, by simpa using hk⟩, rfl, hDaughter⟩
  · rintro ⟨r, rfl, hDaughter⟩
    refine ⟨G.rule r, ?_, by simp [hDaughter]⟩
    exact Array.mem_toList_iff.mpr
      (Array.getElem_mem r.isLt)

/- All such tables find what at least one step leads to. -/
theorem IsTable.mem_find_iff
    {G : Grammar}
    {choose : Rule → Option Symbol}
    {index : Index Symbol}
    (hIndex : IsTable choose G.rules.toList index)
    {lower upper : Symbol} :
    lower ∈ index.find upper ↔
      TransGen (G.Daughter choose) upper lower := by
  have hLeads :
      Leads (edges choose G.rules.toList) =
        G.Daughter choose := by
    funext source target
    exact propext (leads_edges_iff G choose)
  unfold Index.find
  cases hGroup : Index.groupOf upper index.groups with
  | some values =>
      rcases hIndex.found _
          (Index.mem_of_groupOf_eq_some hGroup) with
        ⟨search, hTurns, hDone, hValues⟩
      rw [Option.getD_some, ← hLeads,
        ← Search.mem_reached_iff hTurns hDone]
      exact Eq.to_iff (congrArg (lower ∈ ·) hValues)
  | none =>
      have hUpper :=
        Index.not_mem_of_groupOf_eq_none hGroup
      rw [hIndex.keys.mem_iff, List.mem_eraseDups] at hUpper
      simp only [Option.getD_none, List.not_mem_nil,
        false_iff]
      intro hChain
      rcases TransGen.head'_iff.mp hChain with
        ⟨_, ⟨r, hLhs, _⟩, _⟩
      apply hUpper
      rw [← hLhs]
      exact List.mem_map_of_mem
        (Array.mem_toList_iff.mpr (Array.getElem_mem r.isLt))

end Corner

namespace Grammar

variable (G : Grammar)

/- The left corners of a grammar are chains of daughters. -/
theorem isLeftCornerOf_iff
    {lower upper : Symbol} :
    G.isLeftCornerOf lower upper = true ↔
      G.IsLeftCorner lower upper := by
  unfold isLeftCornerOf IsLeftCorner
  rw [G.tables_eq, reflTransGen_iff_eq_or_transGen]
  simp [Tables.ofRules, (Corner.isTable_table _ _).mem_find_iff]

/- The head corners of a grammar are chains of daughters. -/
theorem isHeadCornerOf_iff
    {lower upper : Symbol} :
    G.isHeadCornerOf lower upper = true ↔
      G.IsHeadCorner lower upper := by
  unfold isHeadCornerOf IsHeadCorner
  rw [G.tables_eq, reflTransGen_iff_eq_or_transGen]
  simp [Tables.ofRules, (Corner.isTable_table _ _).mem_find_iff]

/-
  A symbol is a left corner of another exactly when it is
  the same or a chain of first daughters leads down to it;
  a head corner likewise along head daughters. The searches
  behind this come to an end on every grammar. In whatever
  order left-hand sides, waiting symbols and rules are
  taken, the same corners are found.
-/
theorem corners_exact :
    (∀ lower upper,
      G.isLeftCornerOf lower upper = true ↔
        lower = upper ∨
          TransGen (G.Daughter Rule.leftmost) upper lower) ∧
    (∀ lower upper,
      G.isHeadCornerOf lower upper = true ↔
        lower = upper ∨
          TransGen (G.Daughter Rule.headSymbol) upper
            lower) ∧
    ∀ choose : Rule → Option Symbol,
      let rules := G.rules.toList
      let Turn :=
        Corner.Search.Turn (Corner.edges choose rules)
      WellFounded (fun later search => Turn search later) ∧
        (∀ search, (∃ later, Turn search later) ↔
          search.waiting ≠ []) ∧
        Corner.IsTable choose rules
          (Corner.table choose rules) ∧
        ∀ index, Corner.IsTable choose rules index →
          ∀ lower upper,
            lower ∈ index.find upper ↔
              lower ∈ (Corner.table choose rules).find
                upper := by
  refine ⟨?_, ?_, ?_⟩
  · intro lower upper
    rw [isLeftCornerOf_iff, IsLeftCorner,
      reflTransGen_iff_eq_or_transGen]
  · intro lower upper
    rw [isHeadCornerOf_iff, IsHeadCorner,
      reflTransGen_iff_eq_or_transGen]
  · intro choose rules Turn
    have hTable := Corner.isTable_table choose rules
    refine ⟨Corner.Search.wellFounded_turn _,
      fun _ => Corner.Search.exists_turn_iff, hTable, ?_⟩
    intro index hIndex lower upper
    rw [hIndex.mem_find_iff, hTable.mem_find_iff]

/- Two symbols that begin with each other. -/
def crossed : Grammar :=
  ofRules
    #[Rule.ofSpec ⟨"A", [("B", false), ("a", true)]⟩,
      Rule.ofSpec ⟨"B", [("A", true), ("b", false)]⟩,
      Rule.ofSpec ⟨"B", [("b", false)]⟩]
    (by decide)

/-
  Left-hand sides, waiting symbols and rules can be taken
  from the last to the first.
-/
theorem crossed_corners :
    let rules := crossed.rules.toList
    ∃ index : Index Symbol,
      Corner.IsTable Rule.leftmost rules index ∧
        index.groups =
          [("B", ["B", "A", "b"]), ("A", ["A", "b", "B"])] ∧
        (Corner.table Rule.leftmost rules).groups =
          [("A", ["b", "A", "B"]), ("B", ["B", "b", "A"])] ∧
        (∀ lower upper,
          lower ∈ index.find upper ↔
            lower ∈ (Corner.table Rule.leftmost rules).find
              upper) ∧
        crossed.isLeftCornerOf "b" "A" = true ∧
        crossed.isHeadCornerOf "b" "A" = false := by
  intro rules
  let steps := Corner.edges Rule.leftmost rules
  have hFromB :
      ReflTransGen (Corner.Search.Turn steps) (.ofSymbol "B")
        ⟨[], ["B", "A", "b"]⟩ := by
    have h1 : Corner.Search.Turn steps ⟨["B"], []⟩
        ⟨["A", "b"], ["A", "b"]⟩ :=
      @Corner.Search.Turn.visit steps ["B"] [] ["b", "A"] []
        "B" (by decide +kernel) (by decide +kernel)
    have h2 : Corner.Search.Turn steps
        ⟨["A", "b"], ["A", "b"]⟩ ⟨["A"], ["A", "b"]⟩ :=
      @Corner.Search.Turn.visit steps ["A", "b"] ["A"] []
        ["A", "b"] "b" (by decide +kernel)
        (by decide +kernel)
    have h3 : Corner.Search.Turn steps
        ⟨["A"], ["A", "b"]⟩ ⟨["B"], ["B", "A", "b"]⟩ :=
      @Corner.Search.Turn.visit steps ["A"] [] ["B"]
        ["A", "b"] "A" (by decide +kernel)
        (by decide +kernel)
    have h4 : Corner.Search.Turn steps
        ⟨["B"], ["B", "A", "b"]⟩ ⟨[], ["B", "A", "b"]⟩ :=
      @Corner.Search.Turn.visit steps ["B"] [] ["b", "A"]
        ["B", "A", "b"] "B" (by decide +kernel)
        (by decide +kernel)
    exact .head h1 (.head h2 (.head h3 (.single h4)))
  have hFromA :
      ReflTransGen (Corner.Search.Turn steps) (.ofSymbol "A")
        ⟨[], ["A", "b", "B"]⟩ := by
    have h1 : Corner.Search.Turn steps ⟨["A"], []⟩
        ⟨["B"], ["B"]⟩ :=
      @Corner.Search.Turn.visit steps ["A"] [] ["B"] []
        "A" (by decide +kernel) (by decide +kernel)
    have h2 : Corner.Search.Turn steps ⟨["B"], ["B"]⟩
        ⟨["A", "b"], ["A", "b", "B"]⟩ :=
      @Corner.Search.Turn.visit steps ["B"] [] ["b", "A"]
        ["B"] "B" (by decide +kernel) (by decide +kernel)
    have h3 : Corner.Search.Turn steps
        ⟨["A", "b"], ["A", "b", "B"]⟩
        ⟨["A"], ["A", "b", "B"]⟩ :=
      @Corner.Search.Turn.visit steps ["A", "b"] ["A"] []
        ["A", "b", "B"] "b" (by decide +kernel)
        (by decide +kernel)
    have h4 : Corner.Search.Turn steps
        ⟨["A"], ["A", "b", "B"]⟩ ⟨[], ["A", "b", "B"]⟩ :=
      @Corner.Search.Turn.visit steps ["A"] [] ["B"]
        ["A", "b", "B"] "A" (by decide +kernel)
        (by decide +kernel)
    exact .head h1 (.head h2 (.head h3 (.single h4)))
  have hIndex :
      Corner.IsTable Rule.leftmost rules
        ⟨[("B", ["B", "A", "b"]), ("A", ["A", "b", "B"])]⟩ := by
    refine ⟨by decide +kernel, ?_⟩
    intro group hGroup
    simp only [List.mem_cons, List.not_mem_nil, or_false]
      at hGroup
    rcases hGroup with rfl | rfl
    · exact ⟨_, hFromB, rfl, rfl⟩
    · exact ⟨_, hFromA, rfl, rfl⟩
  rcases crossed.corners_exact with ⟨_, _, hOrders⟩
  rcases hOrders Rule.leftmost with ⟨_, _, _, hSame⟩
  exact ⟨_, hIndex, rfl, by decide +kernel,
    hSame _ hIndex, by decide +kernel, by decide +kernel⟩

end Grammar

end Constituency
