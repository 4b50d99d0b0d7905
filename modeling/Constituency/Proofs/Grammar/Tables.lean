import Constituency.Proofs.Grammar.Lookup
import Constituency.Proofs.Notation.Acceptance

/-
  This file says what is looked up in a grammar made of
  written alternatives: the rules are numbered in the order
  in which they are written, and each lookup gives those of
  them that it is about, in the same order.

  Key definitions include:
    * `Grammar.numbered`
    * `Grammar.optionalSubject`

  Main declarations:
    * `Grammar.isWrittenBy_of_ofSpecs`
    * `Grammar.numbered_ruleIds`
    * `Grammar.numbered_filter`
    * `Grammar.lookups_exact`
    * `Grammar.optionalSubject_lookups`
-/

namespace Constituency

namespace Grammar

------------------------------------------------------------
-- Grammars of Written Alternatives
------------------------------------------------------------

/- Alternatives that are not refused are the rules. -/
theorem isWrittenBy_of_ofSpecs
    {specs : List RuleSpec}
    {G : Grammar}
    (hAccepted : ofSpecs specs = .ok G) :
    G.IsWrittenBy specs := by
  have hMarks : ∀ spec ∈ specs, spec.markCount ≤ 1 := by
    cases hFind :
        specs.find? (fun spec => 1 < spec.markCount) with
    | none => simpa using hFind
    | some spec =>
        simp only [ofSpecs, hFind] at hAccepted
        cases hAccepted
  have hSome : specs ≠ [] := by
    rintro rfl
    cases hAccepted
  rcases exists_ofSpecs hMarks hSome with
    ⟨written, hWritten, hRules⟩
  rw [hWritten] at hAccepted
  cases hAccepted
  exact hRules

------------------------------------------------------------
-- Numbered Rules
------------------------------------------------------------

/- Rules with their numbers, as a lookup shows them. -/
def numbered
    (G : Grammar)
    (rules : List G.RuleId) : List (Rule × Nat) :=
  rules.map (fun r => (G.rule r, r.val))

variable (G : Grammar)

/- The number of a rule is its place in the rule table. -/
theorem numbered_ruleIds :
    G.numbered G.ruleIds = G.rules.toList.zipIdx := by
  apply List.ext_getElem
  · simp [numbered, ruleIds]
  · intro place hNumbered hTable
    simp [numbered, ruleIds, rule]

/- Choosing among the rules keeps their numbers. -/
theorem numbered_filter
    (choose : Rule → Bool) :
    G.numbered
        (G.ruleIds.filter (fun r => choose (G.rule r))) =
      G.rules.toList.zipIdx.filter
        (fun entry => choose entry.1) := by
  rw [← numbered_ruleIds, numbered, numbered, List.filter_map]
  rfl

/-
  Rules are looked up by left-hand side, by first daughter
  and by head daughter. What is found are the rules with
  that symbol in that place, and no others, in the order in
  which they are written and with their numbers; so are the
  empty rules. The head of a rule is a daughter of it, and
  only an empty rule has none. A nonterminal is a left-hand
  side.
-/
theorem lookups_exact
    {specs : List RuleSpec}
    {G : Grammar}
    (hAccepted : ofSpecs specs = .ok G)
    (symbol : Symbol) :
    let rules := G.rules.toList.zipIdx
    G.IsWrittenBy specs ∧
    G.numbered G.ruleIds = rules ∧
    G.numbered (G.rulesWithLhs symbol) =
      rules.filter (fun entry => entry.1.lhs = symbol) ∧
    G.numbered (G.rulesWithLeftmost symbol) =
      rules.filter
        (fun entry => entry.1.rhs.head? = some symbol) ∧
    G.numbered (G.rulesWithHead symbol) =
      rules.filter
        (fun entry => entry.1.headSymbol = some symbol) ∧
    G.numbered G.emptyRules =
      rules.filter (fun entry => entry.1.rhs = []) ∧
    (∀ rule ∈ G.rules,
      (rule.rhs ≠ [] →
        ∃ head, ∃ hHead : head < rule.rhs.length,
          rule.head = some head ∧
            rule.headSymbol = some rule.rhs[head]) ∧
      (rule.rhs = [] →
        rule.head = none ∧ rule.headSymbol = none)) ∧
    (G.isNonterminal symbol = true ↔
      ∃ rule ∈ G.rules, rule.lhs = symbol) := by
  intro rules
  refine ⟨isWrittenBy_of_ofSpecs hAccepted,
    G.numbered_ruleIds, ?_, ?_, ?_, ?_, ?_, ?_⟩
  · rw [rulesWithLhs_eq]
    exact G.numbered_filter (fun rule => rule.lhs = symbol)
  · rw [rulesWithLeftmost_eq]
    exact G.numbered_filter
      (fun rule => rule.leftmost = some symbol)
  · rw [rulesWithHead_eq]
    exact G.numbered_filter
      (fun rule => rule.headSymbol = some symbol)
  · rw [emptyRules_eq]
    exact G.numbered_filter (fun rule => rule.rhs = [])
  · intro rule _
    refine ⟨Rule.exists_headSymbol, ?_⟩
    intro hEmpty
    exact ⟨rule.head_eq_none_iff.mpr hEmpty,
      rule.headSymbol_eq_none_iff.mpr hEmpty⟩
  · rw [isNonterminal_iff]
    constructor
    · rintro ⟨r, hLhs⟩
      exact ⟨G.rule r, Array.getElem_mem r.isLt, hLhs⟩
    · rintro ⟨rule, hRule, hLhs⟩
      rcases Array.getElem_of_mem hRule with ⟨r, hr, rfl⟩
      exact ⟨⟨r, hr⟩, hLhs⟩

/- A subject that may be left out. -/
def optionalSubject : List RuleSpec :=
  [⟨"S", [("NP", false), ("VP", true)]⟩,
    ⟨"NP", []⟩,
    ⟨"NP", [("VP", false)]⟩,
    ⟨"VP", [("VP", true), ("NP", false)]⟩]

/- Lookups among rules that share their symbols. -/
theorem optionalSubject_lookups :
    ∃ G, ofSpecs optionalSubject = .ok G ∧
      (G.numbered (G.rulesWithLhs "NP")).map Prod.snd =
        [1, 2] ∧
      (G.numbered (G.rulesWithLeftmost "VP")).map Prod.snd =
        [2, 3] ∧
      (G.numbered (G.rulesWithHead "VP")).map Prod.snd =
        [0, 2, 3] ∧
      (G.numbered G.emptyRules).map Prod.snd = [1] ∧
      G.isNonterminal "VP" = true := by
  let G : Grammar :=
    ofRules (optionalSubject.map Rule.ofSpec).toArray
      (by decide)
  have hAccepted : ofSpecs optionalSubject = .ok G := rfl
  rcases lookups_exact hAccepted "NP" with
    ⟨_, _, hLhs, _, _, hEmpty, _, _⟩
  rcases lookups_exact hAccepted "VP" with
    ⟨_, _, _, hFirst, hHead, _, _, hNonterminal⟩
  refine ⟨G, hAccepted, ?_, ?_, ?_, ?_, ?_⟩
  · rw [hLhs]
    decide +kernel
  · rw [hFirst]
    decide +kernel
  · rw [hHead]
    decide +kernel
  · rw [hEmpty]
    decide +kernel
  · rw [hNonterminal]
    decide +kernel

end Grammar

end Constituency
