import Constituency.Proofs.Inference.Closure
import Constituency.Proofs.Parse.Outcome
import Constituency.Proofs.Recognition.Foreseen

/-
  This file shows what Earley's algorithm finds: exactly the
  items that are foreseen. In a closed chart the rules for
  every symbol that comes up are predicted, and each dot
  moves over whatever the daughters behind it yield.

  Main declarations:
    * `Closure.advance`
    * `Closure.predicted`
    * `Closure.mem_topDown_iff`
    * `Grammar.earley_chart_exact`
-/

namespace Constituency

variable {G : Grammar}
variable {start : Symbol}
variable {words : List Symbol}
variable {items : List (Item G)}

------------------------------------------------------------
-- Completeness
------------------------------------------------------------

namespace Closure

/-
  Earley's algorithm moves a dot over whatever the daughters
  behind it yield. The induction is on the derivation: a
  daughter's rule is predicted where the daughter starts and
  moved to its end before the dot moves over it.
-/
theorem advance
    (hClosure :
      Closure words Algorithm.earley.steps
        (Sweep.seeds G start) items)
    {row : List Symbol}
    {i j : Nat}
    (hRow : G.YieldsOver words row i j)
    {r : G.RuleId}
    {dot h : Nat}
    {rest : List Symbol}
    (hKey : .single r dot ⟨h, i⟩ ∈ items.map Item.key)
    (hDrop : (G.rule r).rhs.drop dot = row ++ rest) :
    .single r (dot + row.length) ⟨h, j⟩ ∈
      items.map Item.key := by
  induction hRow generalizing r dot h rest with
  | nil i => exact hKey
  | @word a row i j hTerminal hWord _ ih =>
      rcases Grammar.getElem?_of_drop_eq_cons hDrop with
        ⟨hNext, hLater⟩
      have hScan :=
        hClosure.scan (by decide) hKey hNext hTerminal hWord
      have hAll := ih hScan hLater
      rwa [Nat.add_assoc, Nat.add_comm 1] at hAll
  | @rule b row i k j _ _ ihDaughters ihRow =>
      rcases Grammar.getElem?_of_drop_eq_cons hDrop with
        ⟨hNext, hLater⟩
      have hFirst :=
        hClosure.predict (by decide) hKey hNext
      have hLast := @ihDaughters b 0 i [] hFirst (by simp)
      rw [Nat.zero_add] at hLast
      have hComplete :=
        hClosure.complete (by decide) hKey hNext hLast
      have hAll := ihRow hComplete hLater
      rwa [Nat.add_assoc, Nat.add_comm 1] at hAll

/- The dot moves from the start of a rule to a daughter. -/
theorem advance_take
    (hClosure :
      Closure words Algorithm.earley.steps
        (Sweep.seeds G start) items)
    {r : G.RuleId}
    {dot i j : Nat}
    (hFirst : .single r 0 ⟨i, i⟩ ∈ items.map Item.key)
    (hDot : dot ≤ (G.rule r).length)
    (hBefore :
      G.YieldsOver words ((G.rule r).rhs.take dot) i j) :
    .single r dot ⟨i, j⟩ ∈ items.map Item.key := by
  have hLength : ((G.rule r).rhs.take dot).length = dot := by
    rw [List.length_take]
    exact Nat.min_eq_left hDot
  have hAll := hClosure.advance hBefore hFirst
    (List.take_append_drop dot (G.rule r).rhs).symm
  rwa [hLength, Nat.zero_add] at hAll

/-
  The rules for a symbol are predicted wherever it comes up.
-/
theorem predicted
    (hClosure :
      Closure words Algorithm.earley.steps
        (Sweep.seeds G start) items)
    {A : Symbol}
    {i : Nat}
    (hReaches : G.Reaches words start 0 A i)
    {r : G.RuleId}
    (hLhs : (G.rule r).lhs = A) :
    .single r 0 ⟨i, i⟩ ∈ items.map Item.key := by
  induction hReaches generalizing r with
  | here =>
      have hSeed :
          ⟨.single r 0 ⟨0, 0⟩, []⟩ ∈ Sweep.seeds G start :=
        Sweep.mem_seeds_iff.mpr ⟨r, hLhs, rfl⟩
      exact hClosure.seeded _ hSeed
  | @daughter q dot i j A _ hBefore hNext ih =>
      subst hLhs
      have hFirst := ih rfl
      have hDot : dot ≤ (G.rule q).length :=
        Nat.le_of_lt (List.getElem?_eq_some_iff.mp hNext).1
      exact hClosure.predict (by decide)
        (hClosure.advance_take hFirst hDot hBefore) hNext

/- Earley's algorithm finds exactly what is foreseen. -/
theorem mem_topDown_iff
    (hClosure :
      Closure words Algorithm.earley.steps
        (Sweep.seeds G start) items)
    {r : G.RuleId}
    {dot i j : Nat} :
    .single r dot ⟨i, j⟩ ∈ items.map Item.key ↔
      dot ≤ (G.rule r).length ∧
        G.IsForeseen words start r dot ⟨i, j⟩ := by
  constructor
  · intro hKey
    rcases List.mem_map.mp hKey with ⟨item, hItem, hSame⟩
    have hWellFormed := hClosure.deduction.wellFormed
      Sweep.wellFormed_seeds item hItem
    rw [hSame, ItemKey.wellFormed_single_iff] at hWellFormed
    exact ⟨hWellFormed.2,
      hClosure.deduction.foreseen item hItem r dot _ hSame⟩
  · rintro ⟨hDot, hReaches, hBefore⟩
    exact hClosure.advance_take
      (hClosure.predicted hReaches rfl) hDot hBefore

/- The complete items of Earley's algorithm. -/
theorem constituent_topDown_iff
    (hClosure :
      Closure words Algorithm.earley.steps
        (Sweep.seeds G start) items)
    {r : G.RuleId}
    (hLhs : (G.rule r).lhs = start)
    {j : Nat} :
    .single r (G.rule r).length ⟨0, j⟩ ∈
        items.map Item.key ↔
      G.YieldsOver words (G.rule r).rhs 0 j := by
  rw [hClosure.mem_topDown_iff]
  unfold Grammar.IsForeseen
  rw [Rule.length, List.take_length, hLhs]
  constructor
  · rintro ⟨_, _, hYields⟩
    exact hYields
  · intro hYields
    exact ⟨Nat.le_refl _, .here, hYields⟩

end Closure

------------------------------------------------------------
-- Charts
------------------------------------------------------------

/-
  Without a limit Earley's algorithm gives a parse. Its chart
  has an item exactly where the left-hand side of a rule
  follows the words before it in a sentential form and the
  daughters before the dot yield the words it lies over. So
  the complete items are the rules of the start symbol that
  yield all words, and recognition is membership in the
  language.
-/
theorem Grammar.earley_chart_exact
    (hStart : G.isNonterminal start = true)
    (words : List Symbol) :
    ∃ parse,
      (G.parse .earley start none words).result =
          .ok parse ∧
        (∀ key,
          key ∈ parse.chart.items.toList.map Item.key ↔
            ∃ r dot i j, key = .single r dot ⟨i, j⟩ ∧
              dot ≤ (G.rule r).length ∧
                i ≤ j ∧ j ≤ words.length ∧
              (∃ rest, (G.contextFree start).Generates
                (wordLetters (words.take i) ++
                  Symbol.nonterminal (G.rule r).lhs ::
                    rest)) ∧
              G.Yields ((G.rule r).rhs.take dot)
                (words.extract i j)) ∧
        (parse.completeItems.map Item.key).Nodup ∧
        (∀ key,
          key ∈ parse.completeItems.map Item.key ↔
            ∃ r, (G.rule r).lhs = start ∧
              G.Yields (G.rule r).rhs words ∧
                key = .single r (G.rule r).length
                  ⟨0, words.length⟩) ∧
        (parse.isRecognised = true ↔
          words ∈ (G.contextFree start).language) := by
  rcases G.parse_closure .earley hStart words with
    ⟨parse, hParse, hAlgorithm, rfl, rfl, hClosure⟩
  have hExact : parse.IsExact := by
    apply parse.isExact_of_constituents hStart
    · rw [hAlgorithm]
      exact hClosure.deduction
    · intro r hLhs
      rw [hAlgorithm]
      exact hClosure.constituent_topDown_iff hLhs
  refine ⟨parse, hParse, ?_, hExact.nodup, ?_, ?_⟩
  · intro key
    constructor
    · intro hKey
      rcases List.mem_map.mp hKey with ⟨item, hItem, rfl⟩
      rcases hClosure.deduction.isSingle (by decide)
          Sweep.isSingle_seeds item hItem with
        ⟨r, dot, ⟨i, j⟩, hSingle⟩
      rw [hSingle] at hKey
      rcases hClosure.mem_topDown_iff.mp hKey with
        ⟨hDot, hForeseen⟩
      exact ⟨r, dot, i, j, hSingle, hDot,
        (isForeseen_iff hStart).mp hForeseen⟩
    · rintro ⟨r, dot, i, j, rfl, hDot, hForeseen⟩
      exact hClosure.mem_topDown_iff.mpr
        ⟨hDot, (isForeseen_iff hStart).mpr hForeseen⟩
  · have hKeys := hExact.mem_keys_iff
    rw [hAlgorithm] at hKeys
    exact hKeys
  · rw [hExact.isRecognised_iff,
      mem_language_iff_yields hStart]

/- A word is recognised in spite of left recursion. -/
theorem Grammar.repeated_earley :
    repeated.isNonterminal "S" = true ∧
      ∃ parse,
        (repeated.parse .earley "S" none ["b"]).result =
            .ok parse ∧
          parse.isRecognised = true := by
  have hStart : repeated.isNonterminal "S" = true := by
    decide
  rcases Grammar.earley_chart_exact hStart ["b"] with
    ⟨parse, hParse, _, _, _, hRecognised⟩
  have hLanguage :=
    (mem_language_iff_yields hStart).mpr (repeated_yields 1)
  exact ⟨hStart, parse, hParse, hRecognised.mpr hLanguage⟩

end Constituency
