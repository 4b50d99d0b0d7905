import Constituency.Proofs.Derivation.Language

/-
  This file defines which symbols can come up at a position
  when rules are rewritten from the top and the words before
  the position have been accounted for.

  Key definitions include:
    * `Grammar.Reaches`

  Main declarations:
    * `Grammar.Reaches.trans`
    * `Grammar.reaches_iff_generates`
-/

namespace Constituency

namespace Grammar

/-
  From `start` at `origin`, a symbol comes up at a position:
  it is `start` itself, or a daughter of a rule whose
  left-hand side comes up earlier and whose daughters before
  it yield the words in between.
-/
inductive Reaches
    (G : Grammar)
    (words : List Symbol)
    (start : Symbol)
    (origin : Nat) : Symbol → Nat → Prop where
  | here : Reaches G words start origin start origin
  | daughter
      (r : G.RuleId)
      {dot i j : Nat}
      {A : Symbol}
      (hAbove : Reaches G words start origin (G.rule r).lhs i)
      (hBefore :
        G.YieldsOver words ((G.rule r).rhs.take dot) i j)
      (hNext : (G.rule r).rhs[dot]? = some A) :
      Reaches G words start origin A j

variable {G : Grammar}
variable {words : List Symbol}

namespace Reaches

/- Coming up is transitive. -/
theorem trans
    {start middle A : Symbol}
    {origin k i : Nat}
    (hMiddle : G.Reaches words start origin middle k)
    (hBelow : G.Reaches words middle k A i) :
    G.Reaches words start origin A i := by
  induction hBelow with
  | here => exact hMiddle
  | daughter r _ hBefore hNext ih =>
      exact .daughter r ih hBefore hNext

/- Symbols come up inside the input. -/
theorem le_length
    {start A : Symbol}
    {origin i : Nat}
    (hReaches : G.Reaches words start origin A i)
    (hOrigin : origin ≤ words.length) :
    i ≤ words.length := by
  induction hReaches with
  | here => exact hOrigin
  | daughter r _ hBefore _ ih => exact hBefore.le_length ih

/- First daughters come up where their rule starts. -/
theorem leftmost
    {start A : Symbol}
    {origin i : Nat}
    (r : G.RuleId)
    (hAbove : G.Reaches words start origin (G.rule r).lhs i)
    (hLeftmost : (G.rule r).leftmost = some A) :
    G.Reaches words start origin A i := by
  rw [Rule.leftmost, List.head?_eq_getElem?] at hLeftmost
  exact .daughter r hAbove (.nil i) hLeftmost

end Reaches

------------------------------------------------------------
-- Sentential Forms
------------------------------------------------------------

/-
  What comes up at a position follows the words before it in
  some sentential form.
-/
theorem Reaches.derives
    {start A : Symbol}
    {i : Nat}
    (hReaches : G.Reaches words start 0 A i) :
    ∃ rest, (G.contextFree start).Derives [G.letter start]
      (wordLetters (words.extract 0 i) ++
        G.letter A :: rest) := by
  induction hReaches with
  | here =>
      exact ⟨[], by simpa [wordLetters] using .refl _⟩
  | @daughter r dot i j A hAbove hBefore hNext ih =>
      rcases ih with ⟨rest, hDerives⟩
      let later := (G.rule r).rhs.drop (dot + 1)
      have hRule :=
        (@produces_rule G start r [] []).single
      have hBefore' := @Yields.derives G start _ _ hBefore.yields
      have hDaughters :
          (G.contextFree start).Derives
            [G.letter (G.rule r).lhs]
            (wordLetters (words.extract i j) ++
              G.letter A :: later.map G.letter) := by
        refine hRule.trans ?_
        rw [List.nil_append, List.append_nil,
          rhs_eq_take_append r hNext, List.map_append,
          List.map_cons]
        exact hBefore'.append_right _
      have hInner :=
        (hDaughters.append_left
          (wordLetters (words.extract 0 i))).append_right rest
      refine ⟨later.map G.letter ++ rest, ?_⟩
      rw [← extract_append_extract (Nat.zero_le i) hBefore.le]
      refine hDerives.trans ?_
      simpa [wordLetters, List.append_assoc] using hInner

/- A row is split where one of its symbols stands. -/
theorem append_eq_append_cons
    {first others before after : List Symbol}
    {B : Symbol}
    (hRow : first ++ others = before ++ B :: after) :
    (∃ later, first = before ++ B :: later) ∨
      ∃ earlier, before = first ++ earlier ∧
        others = earlier ++ B :: after := by
  rcases List.append_eq_append_iff.mp hRow with
    ⟨earlier, hBefore, hOthers⟩ | ⟨later, hFirst, hAfter⟩
  · exact Or.inr ⟨earlier, hBefore, hOthers⟩
  · cases later with
    | nil =>
        refine Or.inr ⟨[], ?_, ?_⟩
        · simpa using hFirst.symm
        · simpa using hAfter.symm
    | cons symbol later =>
        rw [List.cons_append, List.cons.injEq] at hAfter
        rcases hAfter with ⟨rfl, _⟩
        exact Or.inl ⟨later, hFirst⟩

theorem letter_injective
    {symbol other : Symbol}
    (hSame : G.letter symbol = G.letter other) :
    symbol = other := by
  unfold letter at hSame
  split at hSame <;> split at hSame <;> simp_all

/-
  In a form derived from a row, the symbol behind some words
  comes up below one symbol of the row, behind what the
  earlier ones yield. The induction adds rewrite steps in
  front; the symbol stands left of, inside or right of the
  rewritten daughters.
-/
theorem exists_reaches_of_derives
    {start A : Symbol}
    {row : List Symbol}
    {origin i : Nat}
    {rest}
    (hSpan : origin ≤ i)
    (hStop : i ≤ words.length)
    (hDerives :
      (G.contextFree start).Derives (row.map G.letter)
        (wordLetters (words.extract origin i) ++
          G.letter A :: rest)) :
    ∃ first B last k,
      row = first ++ B :: last ∧
        G.YieldsOver words first origin k ∧
        G.Reaches words B k A i := by
  generalize hForm : row.map G.letter = form at hDerives
  induction hDerives using
    Relation.ReflTransGen.head_induction_on
    generalizing row with
  | refl =>
      rcases List.map_eq_append_iff.mp hForm with
        ⟨first, others, rfl, hFirst, hOthers⟩
      rcases List.map_eq_cons_iff.mp hOthers with
        ⟨symbol, last, rfl, hSymbol, _⟩
      have hSame := letter_injective hSymbol
      subst hSame
      refine ⟨first, symbol, last, i, rfl, ?_, .here⟩
      rw [yieldsOver_iff_yields hSpan hStop]
      exact yields_of_map_letter_eq hFirst
  | head hStep _ ih =>
      subst hForm
      rcases exists_rule_of_produces hStep with
        ⟨r, first, last, rfl, rfl⟩
      rcases ih rfl with
        ⟨before, B, after, k, hRow, hBefore, hReaches⟩
      rcases append_eq_append_cons hRow with
        ⟨later, rfl⟩ | ⟨earlier, rfl, hOthers⟩
      · exact ⟨before, B,
          later ++ (G.rule r).lhs :: last, k,
          by simp, hBefore, hReaches⟩
      · rcases yieldsOver_append_iff.mp hBefore with
          ⟨k', hFirst, hEarlier⟩
        rcases append_eq_append_cons hOthers with
          ⟨later, hRhs⟩ | ⟨behind, rfl, rfl⟩
        · refine ⟨first, (G.rule r).lhs, last, k', rfl,
            hFirst, ?_⟩
          have hTake :
              (G.rule r).rhs.take earlier.length =
                earlier := by
            simp [hRhs]
          have hDaughter :
              (G.rule r).rhs[earlier.length]? = some B := by
            simp [hRhs]
          have hBelow :
              G.Reaches words (G.rule r).lhs k' B k :=
            .daughter r .here (hTake.symm ▸ hEarlier) hDaughter
          exact hBelow.trans hReaches
        · rcases yieldsOver_append_iff.mp hEarlier with
            ⟨k'', hDaughters, hBehind⟩
          exact ⟨first ++ (G.rule r).lhs :: behind, B, after,
            k, by simp,
            hFirst.append (.rule r hDaughters hBehind),
            hReaches⟩

/-
  A nonterminal comes up at a position exactly when it
  follows the words before the position in a sentential form
  of the start symbol.
-/
theorem reaches_iff_generates
    {start A : Symbol}
    {i : Nat}
    (hStart : G.isNonterminal start = true)
    (hNonterminal : G.isNonterminal A = true)
    (hPosition : i ≤ words.length) :
    G.Reaches words start 0 A i ↔
      ∃ rest, (G.contextFree start).Generates
        (wordLetters (words.take i) ++
          Symbol.nonterminal A :: rest) := by
  have hTake : words.extract 0 i = words.take i := by simp
  constructor
  · intro hReaches
    rcases hReaches.derives with ⟨rest, hDerives⟩
    rw [letter_of_nonterminal hStart,
      letter_of_nonterminal hNonterminal, hTake] at hDerives
    exact ⟨rest, hDerives⟩
  · rintro ⟨rest, hGenerates⟩
    have hDerives :
        (G.contextFree start).Derives ([start].map G.letter)
          (wordLetters (words.extract 0 i) ++
            G.letter A :: rest) := by
      rw [List.map_singleton, letter_of_nonterminal hStart,
        letter_of_nonterminal hNonterminal, hTake]
      exact hGenerates
    rcases exists_reaches_of_derives (Nat.zero_le i)
        hPosition hDerives with
      ⟨first, B, last, k, hRow, hFirst, hReaches⟩
    cases first with
    | nil =>
        rw [List.nil_append, List.cons.injEq] at hRow
        rcases hRow with ⟨rfl, _⟩
        cases hFirst
        exact hReaches
    | cons symbol first => simp at hRow

end Grammar

end Constituency
