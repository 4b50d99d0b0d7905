import Constituency.Item.Span
import Constituency.Proofs.Derivation.Yield

/-
  This file defines how a row of symbols tiles a part of an
  input: a terminal covers one equal word, a nonterminal a
  constituent, each beginning where the one before it ends.

  Key definitions include:
    * `Grammar.Constituent`
    * `Grammar.Tiles`

  Main declarations:
    * `Grammar.tiles_append_iff`
    * `Grammar.Tiles.map_lhs_eq`
    * `Grammar.Tiles.yieldsOver`
-/

namespace Constituency

namespace Grammar

/- A rule over the words that its daughters yield. -/
abbrev Constituent
    (G : Grammar) : Type :=
  G.RuleId × Span

/-
  Symbol by symbol, a row covers the words of an input from
  one position to another. The constituents, one for each
  nonterminal, are listed in order.
-/
inductive Tiles
    (G : Grammar)
    (words : List Symbol) :
    List Symbol → List G.Constituent → Nat → Nat → Prop where
  | nil
      (i : Nat) :
      Tiles G words [] [] i i
  | word
      {a : Symbol}
      {row : List Symbol}
      {parts : List G.Constituent}
      {i j : Nat}
      (hTerminal : G.isNonterminal a = false)
      (hWord : words[i]? = some a)
      (hRow : Tiles G words row parts (i + 1) j) :
      Tiles G words (a :: row) parts i j
  | constituent
      (r : G.RuleId)
      {row : List Symbol}
      {parts : List G.Constituent}
      {i k j : Nat}
      (hSpan : i ≤ k)
      (hRow : Tiles G words row parts k j) :
      Tiles G words ((G.rule r).lhs :: row)
        ((r, ⟨i, k⟩) :: parts) i j

variable {G : Grammar}
variable {words : List Symbol}

namespace Tiles

theorem append
    {first second : List Symbol}
    {parts others : List G.Constituent}
    {i k j : Nat}
    (hFirst : G.Tiles words first parts i k)
    (hSecond : G.Tiles words second others k j) :
    G.Tiles words (first ++ second) (parts ++ others) i j := by
  induction hFirst with
  | nil i => exact hSecond
  | word hTerminal hWord _ ih =>
      exact .word hTerminal hWord (ih hSecond)
  | constituent r hSpan _ ih =>
      exact .constituent r hSpan (ih hSecond)

/- One word covered by a terminal. -/
theorem terminal
    {a : Symbol}
    {i : Nat}
    (hTerminal : G.isNonterminal a = false)
    (hWord : words[i]? = some a) :
    G.Tiles words [a] [] i (i + 1) :=
  .word hTerminal hWord (.nil _)

/- One constituent for a nonterminal. -/
theorem nonterminal
    (r : G.RuleId)
    {i j : Nat}
    (hSpan : i ≤ j) :
    G.Tiles words [(G.rule r).lhs] [(r, ⟨i, j⟩)] i j :=
  .constituent r hSpan (.nil _)

/- The constituents stand for the nonterminals in order. -/
theorem map_lhs_eq
    {row : List Symbol}
    {parts : List G.Constituent}
    {i j : Nat}
    (hTiles : G.Tiles words row parts i j) :
    parts.map (fun part => (G.rule part.1).lhs) =
      row.filter G.isNonterminal := by
  induction hTiles with
  | nil i => rfl
  | word hTerminal _ _ ih =>
      rw [List.filter_cons_of_neg (by simp [hTerminal])]
      exact ih
  | constituent r _ _ ih =>
      rw [List.filter_cons_of_pos (G.isNonterminal_lhs r),
        List.map_cons, ih]

/- A row yields what it covers when its constituents do. -/
theorem yieldsOver
    {row : List Symbol}
    {parts : List G.Constituent}
    {i j : Nat}
    (hTiles : G.Tiles words row parts i j)
    (hParts : ∀ part ∈ parts,
      G.YieldsOver words (G.rule part.1).rhs part.2.start
        part.2.stop) :
    G.YieldsOver words row i j := by
  induction hTiles with
  | nil i => exact .nil i
  | word hTerminal hWord _ ih =>
      exact .word hTerminal hWord (ih hParts)
  | constituent r _ _ ih =>
      have hFirst := hParts _ List.mem_cons_self
      exact .rule r hFirst (ih
        (fun part hPart =>
          hParts part (List.mem_cons_of_mem _ hPart)))

/- What is covered starts before it stops. -/
theorem le
    {row : List Symbol}
    {parts : List G.Constituent}
    {i j : Nat}
    (hTiles : G.Tiles words row parts i j) :
    i ≤ j := by
  induction hTiles with
  | nil i => exact Nat.le_refl i
  | word _ _ _ ih => exact Nat.le_of_succ_le ih
  | constituent r hSpan _ ih => exact Nat.le_trans hSpan ih

end Tiles

/- Two rows in succession cover two adjacent parts. -/
theorem tiles_append_iff
    {first second : List Symbol}
    {parts : List G.Constituent}
    {i j : Nat} :
    G.Tiles words (first ++ second) parts i j ↔
      ∃ k before after, parts = before ++ after ∧
        G.Tiles words first before i k ∧
          G.Tiles words second after k j := by
  constructor
  · intro hTiles
    induction first generalizing parts i with
    | nil => exact ⟨i, [], parts, rfl, .nil i, hTiles⟩
    | cons symbol first ih =>
        cases hTiles with
        | word hTerminal hWord hRow =>
            rcases ih hRow with
              ⟨k, before, after, hParts, hFirst, hSecond⟩
            exact ⟨k, before, after, hParts,
              .word hTerminal hWord hFirst, hSecond⟩
        | constituent r hSpan hRow =>
            rcases ih hRow with
              ⟨k, before, after, rfl, hFirst, hSecond⟩
            exact ⟨k, _ :: before, after, rfl,
              .constituent r hSpan hFirst, hSecond⟩
  · rintro ⟨k, before, after, rfl, hFirst, hSecond⟩
    exact hFirst.append hSecond

/- One symbol covers a word or a constituent. -/
theorem tiles_singleton
    {symbol : Symbol}
    {parts : List G.Constituent}
    {i j : Nat}
    (hTiles : G.Tiles words [symbol] parts i j) :
    (parts = [] ∧ j = i + 1 ∧
      G.isNonterminal symbol = false ∧
        words[i]? = some symbol) ∨
      ∃ r, parts = [(r, ⟨i, j⟩)] ∧ i ≤ j ∧
        symbol = (G.rule r).lhs := by
  cases hTiles with
  | word hTerminal hWord hRow =>
      cases hRow
      exact Or.inl ⟨rfl, rfl, hTerminal, hWord⟩
  | constituent r hSpan hRow =>
      cases hRow
      exact Or.inr ⟨r, rfl, hSpan, rfl⟩

end Grammar

end Constituency
