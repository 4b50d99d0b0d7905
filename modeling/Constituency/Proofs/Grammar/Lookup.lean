import Constituency.Grammar.Basic

/-
  This file says what the lookup tables of a grammar hold:
  each table filters the rule table. Filing one more rule
  keeps every table the filter of what has been filed.

  Key definitions include:
    * `Tables.Files`

  Main declarations:
    * `Rule.exists_headSymbol`
    * `Rule.headSymbol_eq_none_iff`
    * `Tables.Files.file`
    * `Tables.Files.foldl_file`
    * `Grammar.files_tables`
    * `Grammar.rulesWithLhs_eq`
    * `Grammar.rulesWithLeftmost_eq`
    * `Grammar.rulesWithHead_eq`
    * `Grammar.emptyRules_eq`
    * `Grammar.isNonterminal_iff`
    * `Grammar.head_lt_length`
-/

namespace Constituency

------------------------------------------------------------
-- Head Daughters
------------------------------------------------------------

/- Every rule with daughters has one of them for its head. -/
theorem Rule.exists_headSymbol
    {rule : Rule}
    (hSome : rule.rhs ≠ []) :
    ∃ head, ∃ hHead : head < rule.rhs.length,
      rule.head = some head ∧
        rule.headSymbol = some rule.rhs[head] := by
  have hMarked : rule.head ≠ none :=
    mt rule.head_eq_none_iff.mp hSome
  rcases Option.ne_none_iff_exists'.mp hMarked with
    ⟨head, hHead⟩
  have hInside := rule.head_lt head hHead
  refine ⟨head, hInside, hHead, ?_⟩
  rw [Rule.headSymbol, hHead, Option.bind_some,
    List.getElem?_eq_getElem hInside]

/- Only an empty rule has no head daughter. -/
theorem Rule.headSymbol_eq_none_iff
    (rule : Rule) :
    rule.headSymbol = none ↔ rule.rhs = [] := by
  constructor
  · intro hNone
    apply Decidable.byContradiction
    intro hSome
    rcases Rule.exists_headSymbol hSome with
      ⟨_, _, _, hDaughter⟩
    rw [hNone] at hDaughter
    cases hDaughter
  · intro hEmpty
    rw [headSymbol, rule.head_eq_none_iff.mpr hEmpty,
      Option.bind_none]

------------------------------------------------------------
-- Filing Rules
------------------------------------------------------------

/-
  What the tables show is what has been filed: under each
  symbol the rules that it belongs to, in the order in which
  they were filed.
-/
structure Tables.Files
    {n : Nat}
    (tables : Tables n)
    (rule : Fin n → Rule)
    (filed : List (Fin n)) : Prop where
  byLhs : ∀ symbol,
    tables.byLhs.find symbol =
      filed.filter (fun r => (rule r).lhs = symbol)
  hasKey : ∀ symbol,
    tables.byLhs.hasKey symbol =
      filed.any (fun r => (rule r).lhs = symbol)
  byLeftmost : ∀ symbol,
    tables.byLeftmost.find symbol =
      filed.filter (fun r => (rule r).leftmost = some symbol)
  byHead : ∀ symbol,
    tables.byHead.find symbol =
      filed.filter
        (fun r => (rule r).headSymbol = some symbol)
  empty :
    tables.empty =
      filed.filter (fun r => (rule r).headSymbol = none)

namespace Tables

variable {n : Nat} {rule : Fin n → Rule}

/- At first nothing has been filed. -/
theorem files_new :
    (new n).Files rule [] :=
  ⟨fun _ => rfl, fun _ => rfl, fun _ => rfl, fun _ => rfl,
    rfl⟩

/- A rule is filed after the others in each of its tables. -/
theorem Files.file
    {tables : Tables n}
    {filed : List (Fin n)}
    (hFiles : tables.Files rule filed)
    (r : Fin n) :
    (tables.file (rule r) r).Files rule (filed ++ [r]) where
  byLhs := by
    intro symbol
    by_cases hLhs : (rule r).lhs = symbol
    · simp [Tables.file, Index.find_file, hFiles.byLhs, hLhs]
    · simp [Tables.file, Index.find_file, hFiles.byLhs, hLhs,
        Ne.symm hLhs]
  hasKey := by
    intro symbol
    simp [Tables.file, Index.hasKey_file, hFiles.hasKey,
      Bool.or_comm, eq_comm]
  byLeftmost := by
    intro symbol
    by_cases hFirst : (rule r).leftmost = some symbol <;>
      simp [Tables.file, Index.find_fileUnder,
        hFiles.byLeftmost, hFirst]
  byHead := by
    intro symbol
    by_cases hHead : (rule r).headSymbol = some symbol <;>
      simp [Tables.file, Index.find_fileUnder, hFiles.byHead,
        hHead]
  empty := by
    cases hHead : (rule r).headSymbol <;>
      simp [Tables.file, hFiles.empty, hHead]

/- So it is when several rules are filed. -/
theorem Files.foldl_file
    {tables : Tables n}
    {filed : List (Fin n)}
    (hFiles : tables.Files rule filed)
    (later : List (Fin n)) :
    (later.foldl (fun tables r => tables.file (rule r) r)
      tables).Files rule (filed ++ later) := by
  induction later generalizing tables filed with
  | nil => simpa using hFiles
  | cons r later ih =>
      rw [List.foldl_cons, List.append_cons]
      exact ih (hFiles.file r)

end Tables

namespace Grammar

variable (G : Grammar)

------------------------------------------------------------
-- Tables as Filters
------------------------------------------------------------

/- The tables of a grammar show all of its rules. -/
theorem files_tables :
    G.tables.Files G.rule G.ruleIds := by
  have hNew : (Tables.new G.rules.size).Files G.rule [] :=
    Tables.files_new
  have hFiled := hNew.foldl_file G.ruleIds
  -- The tables of corners are made from all rules at once.
  rw [G.tables_eq]
  exact ⟨hFiled.byLhs, hFiled.hasKey, hFiled.byLeftmost,
    hFiled.byHead, hFiled.empty⟩

/- The rules for a nonterminal, in the order of the table. -/
theorem rulesWithLhs_eq
    (symbol : Symbol) :
    G.rulesWithLhs symbol =
      G.ruleIds.filter (fun r => (G.rule r).lhs = symbol) :=
  G.files_tables.byLhs symbol

/- The rules with a first daughter, in the same order. -/
theorem rulesWithLeftmost_eq
    (symbol : Symbol) :
    G.rulesWithLeftmost symbol =
      G.ruleIds.filter
        (fun r => (G.rule r).leftmost = some symbol) :=
  G.files_tables.byLeftmost symbol

/- The rules with a head daughter, in the same order. -/
theorem rulesWithHead_eq
    (symbol : Symbol) :
    G.rulesWithHead symbol =
      G.ruleIds.filter
        (fun r => (G.rule r).headSymbol = some symbol) :=
  G.files_tables.byHead symbol

/-
  The rules without daughters, in the same order. The table
  is made from the rules without a head.
-/
theorem emptyRules_eq :
    G.emptyRules =
      G.ruleIds.filter (fun r => (G.rule r).rhs = []) := by
  unfold emptyRules
  rw [G.files_tables.empty]
  apply List.filter_congr
  intro r _
  rw [decide_eq_decide]
  exact (G.rule r).headSymbol_eq_none_iff

------------------------------------------------------------
-- Membership
------------------------------------------------------------

theorem mem_rulesWithLhs_iff
    {symbol : Symbol}
    {r : G.RuleId} :
    r ∈ G.rulesWithLhs symbol ↔ (G.rule r).lhs = symbol := by
  simp [rulesWithLhs_eq, ruleIds]

theorem mem_rulesWithLeftmost_iff
    {symbol : Symbol}
    {r : G.RuleId} :
    r ∈ G.rulesWithLeftmost symbol ↔
      (G.rule r).leftmost = some symbol := by
  simp [rulesWithLeftmost_eq, ruleIds]

theorem mem_rulesWithHead_iff
    {symbol : Symbol}
    {r : G.RuleId} :
    r ∈ G.rulesWithHead symbol ↔
      (G.rule r).headSymbol = some symbol := by
  simp [rulesWithHead_eq, ruleIds]

theorem mem_emptyRules_iff
    {r : G.RuleId} :
    r ∈ G.emptyRules ↔ (G.rule r).rhs = [] := by
  simp [emptyRules_eq, ruleIds]

/- A nonterminal is the left-hand side of some rule. -/
theorem isNonterminal_iff
    {symbol : Symbol} :
    G.isNonterminal symbol = true ↔
      ∃ r, (G.rule r).lhs = symbol := by
  unfold isNonterminal
  rw [G.files_tables.hasKey]
  simp [ruleIds]

/- Left-hand sides are nonterminals. -/
@[simp] theorem isNonterminal_lhs
    (r : G.RuleId) :
    G.isNonterminal (G.rule r).lhs = true :=
  G.isNonterminal_iff.mpr ⟨r, rfl⟩

/- The head of a rule is one of its daughters. -/
theorem headSymbol_eq_some_iff
    {r : G.RuleId}
    {symbol : Symbol} :
    (G.rule r).headSymbol = some symbol ↔
      ∃ head, (G.rule r).head = some head ∧
        (G.rule r).rhs[head]? = some symbol := by
  unfold Rule.headSymbol
  rw [Option.bind_eq_some_iff]

/- The position of a head lies inside the rule. -/
theorem head_lt_length
    {r : G.RuleId}
    {head : Nat}
    (hHead : (G.rule r).head = some head) :
    head < (G.rule r).length :=
  (G.rule r).head_lt head hHead

end Grammar

end Constituency
