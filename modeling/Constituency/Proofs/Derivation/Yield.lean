import Constituency.Proofs.Grammar.Lookup

/-
  This file defines what rows of symbols yield: a terminal
  stands for itself, and a nonterminal for what the daughters
  of one of its rules yield together. The same relation is
  given a second time by positions in a fixed input.

  Key definitions include:
    * `Grammar.Yields`
    * `Grammar.YieldsOver`
    * `Grammar.repeated`

  Main declarations:
    * `Grammar.yields_nonterminal_iff`
    * `Grammar.yieldsOver_append_iff`
    * `Grammar.yieldsOver_iff_yields`
-/

namespace Constituency

namespace Grammar

------------------------------------------------------------
-- Rows of Words
------------------------------------------------------------

/- A row of symbols yields a row of words. -/
inductive Yields
    (G : Grammar) : List Symbol → List Symbol → Prop where
  | nil : Yields G [] []
  | word
      {a : Symbol}
      {rest words : List Symbol}
      (hTerminal : G.isNonterminal a = false)
      (hRest : Yields G rest words) :
      Yields G (a :: rest) (a :: words)
  | rule
      (r : G.RuleId)
      {rest below words : List Symbol}
      (hDaughters : Yields G (G.rule r).rhs below)
      (hRest : Yields G rest words) :
      Yields G ((G.rule r).lhs :: rest) (below ++ words)

variable {G : Grammar}

theorem Yields.append
    {first second words others : List Symbol}
    (hFirst : G.Yields first words)
    (hSecond : G.Yields second others) :
    G.Yields (first ++ second) (words ++ others) := by
  induction hFirst with
  | nil => exact hSecond
  | word hTerminal _ ih => exact .word hTerminal ih
  | rule r hDaughters _ _ ihRest =>
      rw [List.append_assoc]
      exact .rule r hDaughters ihRest

/- A nonterminal yields what one of its rules yields. -/
theorem yields_nonterminal_iff
    {A : Symbol}
    (hNonterminal : G.isNonterminal A = true)
    {words : List Symbol} :
    G.Yields [A] words ↔
      ∃ r, (G.rule r).lhs = A ∧
        G.Yields (G.rule r).rhs words := by
  constructor
  · intro hYields
    generalize hRow : [A] = row at hYields
    cases hYields with
    | nil => cases hRow
    | word hTerminal _ =>
        cases hRow
        rw [hNonterminal] at hTerminal
        cases hTerminal
    | rule r hDaughters hRest =>
        rw [List.cons.injEq] at hRow
        rcases hRow with ⟨rfl, rfl⟩
        cases hRest
        exact ⟨r, rfl, by simpa using hDaughters⟩
  · rintro ⟨r, rfl, hDaughters⟩
    simpa using Yields.rule r hDaughters .nil

------------------------------------------------------------
-- Parts of an Input
------------------------------------------------------------

/-
  A row of symbols yields the words of an input from one
  position to another.
-/
inductive YieldsOver
    (G : Grammar)
    (words : List Symbol) :
    List Symbol → Nat → Nat → Prop where
  | nil
      (i : Nat) :
      YieldsOver G words [] i i
  | word
      {a : Symbol}
      {rest : List Symbol}
      {i j : Nat}
      (hTerminal : G.isNonterminal a = false)
      (hWord : words[i]? = some a)
      (hRest : YieldsOver G words rest (i + 1) j) :
      YieldsOver G words (a :: rest) i j
  | rule
      (r : G.RuleId)
      {rest : List Symbol}
      {i k j : Nat}
      (hDaughters : YieldsOver G words (G.rule r).rhs i k)
      (hRest : YieldsOver G words rest k j) :
      YieldsOver G words ((G.rule r).lhs :: rest) i j

variable {words : List Symbol}

namespace YieldsOver

/- What is yielded starts before it stops. -/
theorem le
    {row : List Symbol}
    {i j : Nat}
    (hYields : G.YieldsOver words row i j) :
    i ≤ j := by
  induction hYields with
  | nil i => exact Nat.le_refl i
  | word _ _ _ ih => exact Nat.le_of_succ_le ih
  | rule r _ _ ihDaughters ihRest =>
      exact Nat.le_trans ihDaughters ihRest

/- What is yielded ends inside the input if it starts there. -/
theorem le_length
    {row : List Symbol}
    {i j : Nat}
    (hYields : G.YieldsOver words row i j)
    (hStart : i ≤ words.length) :
    j ≤ words.length := by
  induction hYields with
  | nil i => exact hStart
  | word _ hWord _ ih =>
      exact ih (List.getElem?_eq_some_iff.mp hWord).1
  | rule r _ _ ihDaughters ihRest =>
      exact ihRest (ihDaughters hStart)

theorem append
    {first second : List Symbol}
    {i k j : Nat}
    (hFirst : G.YieldsOver words first i k)
    (hSecond : G.YieldsOver words second k j) :
    G.YieldsOver words (first ++ second) i j := by
  induction hFirst with
  | nil i => exact hSecond
  | word hTerminal hWord _ ih =>
      exact .word hTerminal hWord (ih hSecond)
  | rule r hDaughters _ _ ihRest =>
      exact .rule r hDaughters (ihRest hSecond)

/- One word yielded by a terminal. -/
theorem terminal
    {a : Symbol}
    {i : Nat}
    (hTerminal : G.isNonterminal a = false)
    (hWord : words[i]? = some a) :
    G.YieldsOver words [a] i (i + 1) :=
  .word hTerminal hWord (.nil _)

/- What a rule yields is yielded by its left-hand side. -/
theorem nonterminal
    (r : G.RuleId)
    {i j : Nat}
    (hDaughters : G.YieldsOver words (G.rule r).rhs i j) :
    G.YieldsOver words [(G.rule r).lhs] i j :=
  .rule r hDaughters (.nil _)

/- One more symbol of a row yields a part behind the rest. -/
theorem take_succ
    {row : List Symbol}
    {dot : Nat}
    {symbol : Symbol}
    {i j k : Nat}
    (hBefore : G.YieldsOver words (row.take dot) i j)
    (hNext : row[dot]? = some symbol)
    (hSymbol : G.YieldsOver words [symbol] j k) :
    G.YieldsOver words (row.take (dot + 1)) i k := by
  rw [List.take_add_one, hNext]
  exact hBefore.append hSymbol

end YieldsOver

/- Two rows in succession yield two adjacent parts. -/
theorem yieldsOver_append_iff
    {first second : List Symbol}
    {i j : Nat} :
    G.YieldsOver words (first ++ second) i j ↔
      ∃ k, G.YieldsOver words first i k ∧
        G.YieldsOver words second k j := by
  constructor
  · intro hYields
    generalize hRow : first ++ second = row at hYields
    induction hYields generalizing first with
    | nil i =>
        rcases List.append_eq_nil_iff.mp hRow with
          ⟨rfl, rfl⟩
        exact ⟨i, .nil i, .nil i⟩
    | @word a rest i j hTerminal hWord hRest ih =>
        cases first with
        | nil =>
            rw [List.nil_append] at hRow
            subst hRow
            exact ⟨i, .nil i, .word hTerminal hWord hRest⟩
        | cons symbol first =>
            cases hRow
            rcases ih rfl with ⟨k, hFirst, hSecond⟩
            exact ⟨k, .word hTerminal hWord hFirst, hSecond⟩
    | @rule r rest i k j hDaughters hRest _ ih =>
        cases first with
        | nil =>
            rw [List.nil_append] at hRow
            subst hRow
            exact ⟨i, .nil i, .rule r hDaughters hRest⟩
        | cons symbol first =>
            rw [List.cons_append, List.cons.injEq] at hRow
            rcases hRow with ⟨rfl, hRow⟩
            rcases ih hRow with ⟨k', hFirst, hSecond⟩
            exact ⟨k', .rule r hDaughters hFirst, hSecond⟩
  · rintro ⟨k, hFirst, hSecond⟩
    exact hFirst.append hSecond

------------------------------------------------------------
-- Parts of a Row
------------------------------------------------------------

/- A part of an input is put together from adjacent parts. -/
theorem extract_append_extract
    {i k j : Nat}
    (hFirst : i ≤ k)
    (hSecond : k ≤ j) :
    words.extract i k ++ words.extract k j =
      words.extract i j := by
  simp only [List.extract_eq_take_drop]
  have hSplit : j - i = (k - i) + (j - k) := by omega
  rw [hSplit, List.take_add, List.drop_drop]
  congr 3
  omega

/- The part of an input that holds one word. -/
theorem extract_succ
    {i : Nat}
    {a : Symbol}
    (hWord : words[i]? = some a) :
    words.extract i (i + 1) = [a] := by
  rcases List.getElem?_eq_some_iff.mp hWord with ⟨hi, rfl⟩
  rw [List.extract_eq_take_drop, Nat.add_sub_cancel_left,
    List.drop_eq_getElem_cons hi]
  rfl

/- A part of a row with one symbol more on the right. -/
theorem extract_succ_right
    {row : List Symbol}
    {left right : Nat}
    {symbol : Symbol}
    (hParts : left ≤ right)
    (hNext : row[right]? = some symbol) :
    row.extract left (right + 1) =
      row.extract left right ++ [symbol] := by
  rw [← extract_append_extract hParts (Nat.le_succ right),
    extract_succ hNext]

/- A part of a row with one symbol more on the left. -/
theorem extract_succ_left
    {row : List Symbol}
    {left right : Nat}
    {symbol : Symbol}
    (hParts : left + 1 ≤ right)
    (hNext : row[left]? = some symbol) :
    row.extract left right =
      [symbol] ++ row.extract (left + 1) right := by
  rw [← extract_append_extract (Nat.le_succ left) hParts,
    extract_succ hNext]

/- What stands behind a dot, one symbol at a time. -/
theorem getElem?_of_drop_eq_cons
    {row rest : List Symbol}
    {dot : Nat}
    {symbol : Symbol}
    (hDrop : row.drop dot = symbol :: rest) :
    row[dot]? = some symbol ∧ row.drop (dot + 1) = rest := by
  constructor
  · rw [← List.head?_drop, hDrop]
    rfl
  · rw [← List.tail_drop, hDrop]
    rfl

/- A rule is split at a daughter. -/
theorem rhs_eq_take_append
    (r : G.RuleId)
    {dot : Nat}
    {A : Symbol}
    (hNext : (G.rule r).rhs[dot]? = some A) :
    (G.rule r).rhs =
      (G.rule r).rhs.take dot ++
        A :: (G.rule r).rhs.drop (dot + 1) := by
  rcases List.getElem?_eq_some_iff.mp hNext with ⟨hDot, rfl⟩
  rw [← List.drop_eq_getElem_cons hDot,
    List.take_append_drop]

------------------------------------------------------------
-- Positions and Rows
------------------------------------------------------------

/- What is yielded by positions is yielded as words. -/
theorem YieldsOver.yields
    {row : List Symbol}
    {i j : Nat}
    (hYields : G.YieldsOver words row i j) :
    G.Yields row (words.extract i j) := by
  induction hYields with
  | nil i => simpa [List.extract_eq_take_drop] using Yields.nil
  | @word a rest i j hTerminal hWord hRest ih =>
      rw [← extract_append_extract (Nat.le_succ i) hRest.le,
        extract_succ hWord]
      exact .word hTerminal ih
  | rule r hDaughters hRest ihDaughters ihRest =>
      rw [← extract_append_extract hDaughters.le hRest.le]
      exact .rule r ihDaughters ihRest

/-
  What is yielded as words is yielded at the place where the
  words stand.
-/
theorem Yields.yieldsOver
    {row part : List Symbol}
    (hYields : G.Yields row part)
    {before after : List Symbol}
    (hWords : words = before ++ (part ++ after)) :
    G.YieldsOver words row before.length
      (before.length + part.length) := by
  induction hYields generalizing before after with
  | nil => exact .nil _
  | @word a rest part hTerminal _ ih =>
      have hWord : words[before.length]? = some a := by
        simp [hWords]
      have hRest :=
        @ih (before ++ [a]) after (by simp [hWords])
      have hLength :
          before.length + (a :: part).length =
            (before ++ [a]).length + part.length := by
        simp only [List.length_cons, List.length_append,
          List.length_nil]
        omega
      rw [hLength]
      rw [List.length_append] at hRest ⊢
      exact .word hTerminal hWord hRest
  | @rule r rest below part _ _ ihDaughters ihRest =>
      have hDaughters :=
        @ihDaughters before (part ++ after)
          (by simp [hWords])
      have hRest :=
        @ihRest (before ++ below) after (by simp [hWords])
      rw [List.length_append, Nat.add_assoc] at hRest
      rw [List.length_append]
      exact .rule r hDaughters hRest

/- Both relations say the same of the parts of an input. -/
theorem yieldsOver_iff_yields
    {row : List Symbol}
    {i j : Nat}
    (hSpan : i ≤ j)
    (hStop : j ≤ words.length) :
    G.YieldsOver words row i j ↔
      G.Yields row (words.extract i j) := by
  constructor
  · exact YieldsOver.yields
  · intro hYields
    have hWords :
        words = words.take i ++
          (words.extract i j ++ words.drop j) := by
      have hDrop : words.drop j =
          (words.drop i).drop (j - i) := by
        rw [List.drop_drop]
        congr 1
        omega
      rw [List.extract_eq_take_drop, hDrop,
        List.take_append_drop, List.take_append_drop]
    have hOver := hYields.yieldsOver hWords
    have hStart : (words.take i).length = i := by
      rw [List.length_take]
      omega
    have hLength :
        i + (words.extract i j).length = j := by
      rw [List.extract_eq_take_drop, List.length_take,
        List.length_drop]
      omega
    rwa [hStart, hLength] at hOver

/- A row that yields the whole input yields its words. -/
theorem yieldsOver_length_iff
    {row : List Symbol} :
    G.YieldsOver words row 0 words.length ↔
      G.Yields row words := by
  rw [yieldsOver_iff_yields (Nat.zero_le _) (Nat.le_refl _)]
  simp [List.extract_eq_take_drop]

------------------------------------------------------------
-- A Grammar with Left Recursion
------------------------------------------------------------

/- The rules `S -> S b*` and `S ->`. -/
def repeated : Grammar :=
  ofRules
    #[Rule.ofSpec ⟨"S", [("S", false), ("b", true)]⟩,
      Rule.ofSpec ⟨"S", []⟩]
    (by decide)

/- The start symbol yields any number of `b`. -/
theorem repeated_yields
    (n : Nat) :
    repeated.Yields ["S"] (List.replicate n "b") := by
  induction n with
  | zero =>
      exact @Yields.rule repeated ⟨1, by decide⟩ [] [] []
        .nil .nil
  | succ n ih =>
      have hDaughters :
          repeated.Yields ["S", "b"]
            (List.replicate n "b" ++ ["b"]) :=
        ih.append (.word (by decide) .nil)
      have hNode := @Yields.rule repeated ⟨0, by decide⟩ []
        (List.replicate n "b" ++ ["b"]) [] hDaughters .nil
      rw [List.append_nil, ← List.replicate_succ'] at hNode
      exact hNode

end Grammar

end Constituency
