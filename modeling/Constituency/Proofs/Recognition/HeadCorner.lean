import Constituency.Proofs.Grammar.Closure
import Constituency.Proofs.Inference.Closure
import Constituency.Proofs.Recognition.Grounding

/-
  This file shows what head-corner recognition finds: inside
  a goal, the completed items of its head corners are
  exactly the constituents. An item grows out from its head
  to the right, under goals that it narrows down to its own
  edges, and then to the left.

  Key definitions include:
    * `Supplied`

  Main declarations:
    * `Closure.growRight`
    * `Closure.growLeft`
    * `Closure.supplied_of_tiles`
    * `Closure.completed_iff`
    * `Grammar.headCorner_exact`
-/

namespace Constituency

variable {G : Grammar}
variable {words : List Symbol}
variable {seeds items : List (Item G)}

/-
  Wherever the rule of a constituent is demanded around it,
  its completed item is found.
-/
def Supplied
    (items : List (Item G))
    (part : G.Constituent) : Prop :=
  ∀ h m, h ≤ part.2.start → part.2.stop ≤ m →
    Demanded items part.1 ⟨h, m⟩ →
      .completed part.1 part.2 ∈ items.map Item.key

/- Head daughters of head corners are head corners. -/
theorem Grammar.isHeadCornerOf_head
    {r : G.RuleId}
    {head : Nat}
    {lower upper : Symbol}
    (hCorner : G.isHeadCornerOf (G.rule r).lhs upper = true)
    (hHead : (G.rule r).head = some head)
    (hDaughter : (G.rule r).rhs[head]? = some lower) :
    G.isHeadCornerOf lower upper = true := by
  rw [G.isHeadCornerOf_iff] at hCorner ⊢
  refine hCorner.tail ⟨r, rfl, ?_⟩
  exact G.headSymbol_eq_some_iff.mpr
    ⟨head, hHead, hDaughter⟩

/- Every symbol is a head corner of itself. -/
theorem Grammar.isHeadCornerOf_self
    (G : Grammar)
    (symbol : Symbol) :
    G.isHeadCornerOf symbol symbol = true := by
  rw [G.isHeadCornerOf_iff]
  exact .refl

namespace Closure

variable
  (hClosure : Closure words [.combine] seeds items)

include hClosure

/- A demand holds for every part of its span. -/
theorem demanded_narrow
    {r : G.RuleId}
    {h i j m : Nat}
    (hDemanded : Demanded items r ⟨h, m⟩)
    (hStart : h ≤ i)
    (hSpan : i ≤ j)
    (hStop : j ≤ m) :
    Demanded items r ⟨i, j⟩ := by
  rcases hDemanded with ⟨upper, hGoal, hCorner⟩
  exact ⟨upper, hClosure.narrow hGoal hStart hSpan hStop,
    hCorner⟩

omit hClosure in
/- A goal for the symbol of a constituent finds it. -/
theorem completed_of_goal
    {b : G.RuleId}
    {i j : Nat}
    (hSupplied : Supplied items (b, ⟨i, j⟩))
    (hGoal :
      .goal (G.rule b).lhs ⟨i, j⟩ ∈ items.map Item.key) :
    .completed b ⟨i, j⟩ ∈ items.map Item.key := by
  apply hSupplied i j (Nat.le_refl i) (Nat.le_refl j)
  exact ⟨(G.rule b).lhs, hGoal, G.isHeadCornerOf_self _⟩

------------------------------------------------------------
-- Growth
------------------------------------------------------------

/-
  The right dot moves over all that the daughters behind it
  cover. For each of them the goal is narrowed down to the
  span that the item will have.
-/
theorem growRight
    {row : List Symbol}
    {parts : List G.Constituent}
    {i j : Nat}
    (hTiles : G.Tiles words row parts i j)
    (hParts : ∀ part ∈ parts, Supplied items part)
    {r : G.RuleId}
    {left right h p m : Nat}
    (hKey :
      .double r left right ⟨p, i⟩ ∈ items.map Item.key)
    (hDrop : (G.rule r).rhs.drop right = row)
    (hDemanded : Demanded items r ⟨h, m⟩)
    (hStart : h ≤ p)
    (hSpan : p ≤ i)
    (hStop : j ≤ m) :
    .double r left (right + row.length) ⟨p, j⟩ ∈
      items.map Item.key := by
  induction hTiles generalizing right with
  | nil i => exact hKey
  | @word a row parts i j hTerminal hWord hRow ih =>
      rcases Grammar.getElem?_of_drop_eq_cons hDrop with
        ⟨hSister, hLater⟩
      have hLast := hRow.le
      have hNarrow : Demanded items r ⟨p, i + 1⟩ :=
        hClosure.demanded_narrow hDemanded hStart (by omega)
          (by omega)
      have hNext := hClosure.scanRight hKey hNarrow hSister
        hTerminal hWord (Nat.lt_succ_self i)
      have hAll := ih hParts hNext hLater (by omega) hStop
      rwa [Nat.add_assoc, Nat.add_comm 1] at hAll
  | @constituent b row parts i k j hPart hRow ih =>
      rcases Grammar.getElem?_of_drop_eq_cons hDrop with
        ⟨hSister, hLater⟩
      have hLast := hRow.le
      have hNarrow : Demanded items r ⟨p, k⟩ :=
        hClosure.demanded_narrow hDemanded hStart (by omega)
          (by omega)
      have hGoal := hClosure.predictRight hKey hNarrow
        hSister (Nat.le_refl i) hPart (Nat.le_refl k)
      have hFound := completed_of_goal
        (hParts _ List.mem_cons_self) hGoal
      have hNext := hClosure.completeRight hKey hNarrow
        hSister hFound
      have hAll := ih
        (fun part hMember =>
          hParts part (List.mem_cons_of_mem _ hMember))
        hNext hLater (by omega) hStop
      rwa [Nat.add_assoc, Nat.add_comm 1] at hAll

/-
  The left dot moves over all that the daughters before it
  cover. The induction is on the dot, so that the daughters
  are taken from right to left.
-/
theorem growLeft
    {r : G.RuleId}
    {left right : Nat}
    {parts : List G.Constituent}
    {h i j m p : Nat}
    (hTiles :
      G.Tiles words ((G.rule r).rhs.take left) parts i p)
    (hParts : ∀ part ∈ parts, Supplied items part)
    (hKey :
      .double r left right ⟨p, j⟩ ∈ items.map Item.key)
    (hDot : left ≤ (G.rule r).length)
    (hDemanded : Demanded items r ⟨h, m⟩)
    (hStart : h ≤ i)
    (hSpan : p ≤ j)
    (hStop : j ≤ m) :
    .double r 0 right ⟨i, j⟩ ∈ items.map Item.key := by
  induction left generalizing parts p with
  | zero =>
      cases hTiles
      exact hKey
  | succ left ih =>
      have hThere :
          ∃ sister, (G.rule r).rhs[left]? = some sister :=
        ⟨_, List.getElem?_eq_getElem hDot⟩
      rcases hThere with ⟨sister, hSister⟩
      rw [List.take_add_one, hSister, Option.toList_some]
        at hTiles
      rcases Grammar.tiles_append_iff.mp hTiles with
        ⟨k, before, after, rfl, hBefore, hLast⟩
      have hFirst := hBefore.le
      have hEdge := hLast.le
      have hNarrow : Demanded items r ⟨k, j⟩ :=
        hClosure.demanded_narrow hDemanded (by omega)
          (by omega) hStop
      have hNext :
          .double r left right ⟨k, j⟩ ∈
            items.map Item.key := by
        rcases Grammar.tiles_singleton hLast with
          ⟨_, rfl, hTerminal, hWord⟩ | ⟨b, rfl, hPart, hLhs⟩
        · exact hClosure.scanLeft hKey hNarrow hSister
            hTerminal hWord (Nat.le_refl k)
        · rw [hLhs] at hSister
          have hGoal := hClosure.predictLeft hKey hNarrow
            hSister (Nat.le_refl k) hPart (Nat.le_refl p)
          have hFound := completed_of_goal
            (hParts _ (by simp)) hGoal
          exact hClosure.completeLeft hKey hNarrow hSister
            hFound
      apply ih hBefore
        (fun part hMember =>
          hParts part (List.mem_append_left _ hMember))
        hNext (Nat.le_of_succ_le hDot)
      omega

------------------------------------------------------------
-- Completeness
------------------------------------------------------------

/- A demanded rule is begun at its head. -/
theorem head_mem
    {r : G.RuleId}
    {head : Nat}
    {symbol upper : Symbol}
    {parts : List G.Constituent}
    {h i j m : Nat}
    (hGoal : .goal upper ⟨h, m⟩ ∈ items.map Item.key)
    (hCorner :
      G.isHeadCornerOf (G.rule r).lhs upper = true)
    (hHead : (G.rule r).head = some head)
    (hDaughter : (G.rule r).rhs[head]? = some symbol)
    (hTiles : G.Tiles words [symbol] parts i j)
    (hParts : ∀ part ∈ parts, Supplied items part)
    (hStart : h ≤ i)
    (hStop : j ≤ m) :
    .double r head (head + 1) ⟨i, j⟩ ∈
      items.map Item.key := by
  rcases Grammar.tiles_singleton hTiles with
    ⟨_, rfl, hTerminal, hWord⟩ | ⟨b, rfl, _, rfl⟩
  · exact hClosure.scanHead hGoal hCorner hHead hDaughter
      hTerminal hWord hStart hStop
  · have hBelow :=
      Grammar.isHeadCornerOf_head hCorner hHead hDaughter
    have hFound :
        .completed b ⟨i, j⟩ ∈ items.map Item.key :=
      hParts (b, ⟨i, j⟩) List.mem_cons_self h m hStart hStop
        ⟨upper, hGoal, hBelow⟩
    exact hClosure.project hGoal hFound hCorner hHead
      hDaughter hStart hStop

/-
  A constituent is supplied when those below it are. An
  empty rule is found as it stands; any other rule grows out
  from its head.
-/
theorem supplied_of_tiles
    {r : G.RuleId}
    {parts : List G.Constituent}
    {i j : Nat}
    (hTiles : G.Tiles words (G.rule r).rhs parts i j)
    (hParts : ∀ part ∈ parts, Supplied items part) :
    Supplied items (r, ⟨i, j⟩) := by
  intro h m hStart hStop hDemanded
  rcases hDemanded with ⟨upper, hGoal, hCorner⟩
  cases hHead : (G.rule r).head with
  | none =>
      have hEmpty := (G.rule r).head_eq_none_iff.mp hHead
      have hLength : (G.rule r).length = 0 := by
        rw [Rule.length, hEmpty]
        rfl
      rw [hEmpty] at hTiles
      cases hTiles
      apply hClosure.preComplete
      rw [hLength]
      exact hClosure.scanEmpty hGoal hCorner hEmpty hStart
        hStop
  | some head =>
      have hBound := G.head_lt_length hHead
      have hThere :
          ∃ symbol, (G.rule r).rhs[head]? = some symbol :=
        ⟨_, List.getElem?_eq_getElem hBound⟩
      rcases hThere with ⟨symbol, hDaughter⟩
      rw [Grammar.rhs_eq_take_append r hDaughter,
        ← List.singleton_append] at hTiles
      rcases Grammar.tiles_append_iff.mp hTiles with
        ⟨p, before, others, rfl, hBefore, hOthers⟩
      rcases Grammar.tiles_append_iff.mp hOthers with
        ⟨q, inner, after, rfl, hInner, hAfter⟩
      have hFirst := hBefore.le
      have hMiddle := hInner.le
      have hLast := hAfter.le
      have hBegun :
          .double r head (head + 1) ⟨p, q⟩ ∈
            items.map Item.key := by
        apply hClosure.head_mem hGoal hCorner hHead hDaughter
          hInner (fun part hPart => hParts part (by simp [hPart]))
        · exact Nat.le_trans hStart hFirst
        · exact Nat.le_trans hLast hStop
      have hRight :=
        hClosure.growRight hAfter
          (fun part hPart => hParts part (by simp [hPart]))
          hBegun rfl ⟨upper, hGoal, hCorner⟩
          (Nat.le_trans hStart hFirst) hMiddle hStop
      have hLength :
          head + 1 +
              ((G.rule r).rhs.drop (head + 1)).length =
            (G.rule r).length := by
        rw [List.length_drop]
        exact Nat.add_sub_of_le hBound
      rw [hLength] at hRight
      apply hClosure.preComplete
      exact hClosure.growLeft hBefore
        (fun part hPart => hParts part (by simp [hPart]))
        hRight (Nat.le_of_lt hBound)
        ⟨upper, hGoal, hCorner⟩ hStart
        (Nat.le_trans hMiddle hLast) hStop

/- What yields words is tiled by supplied constituents. -/
theorem exists_supplied
    {row : List Symbol}
    {i j : Nat}
    (hYields : G.YieldsOver words row i j) :
    ∃ parts, G.Tiles words row parts i j ∧
      ∀ part ∈ parts, Supplied items part := by
  induction hYields with
  | nil i => exact ⟨[], .nil i, by simp⟩
  | word hTerminal hWord _ ih =>
      rcases ih with ⟨parts, hTiles, hParts⟩
      exact ⟨parts, .word hTerminal hWord hTiles, hParts⟩
  | @rule r row i k j hDaughters _ ihDaughters ihRest =>
      rcases ihDaughters with ⟨below, hBelow, hSupplied⟩
      rcases ihRest with ⟨parts, hTiles, hParts⟩
      refine ⟨(r, ⟨i, k⟩) :: parts,
        .constituent r hDaughters.le hTiles, ?_⟩
      intro part hPart
      rcases List.mem_cons.mp hPart with rfl | hLater
      · exact hClosure.supplied_of_tiles hBelow hSupplied
      · exact hParts part hLater

omit hClosure in
/-
  Inside a goal the completed items of its head corners are
  the constituents.
-/
theorem completed_iff
    {start : Symbol}
    (hClosure :
      Closure words Algorithm.headCorner.steps
        (Algorithm.headCorner.seeds G start words) items)
    {symbol : Symbol}
    {h m : Nat}
    (hGoal : .goal symbol ⟨h, m⟩ ∈ items.map Item.key)
    {r : G.RuleId}
    (hCorner :
      G.isHeadCornerOf (G.rule r).lhs symbol = true)
    {i j : Nat}
    (hStart : h ≤ i)
    (hStop : j ≤ m) :
    .completed r ⟨i, j⟩ ∈ items.map Item.key ↔
      G.YieldsOver words (G.rule r).rhs i j := by
  constructor
  · intro hKey
    rcases List.mem_map.mp hKey with ⟨item, hItem, hSame⟩
    have hYields := hClosure.deduction.yieldsOver item hItem
      (by simp [hSame, ItemKey.IsGoal])
    rwa [Item.start, Item.stop, hSame] at hYields
  · intro hYields
    have hCombine : Closure words [.combine] _ items :=
      hClosure
    rcases hCombine.exists_supplied hYields with
      ⟨parts, hTiles, hParts⟩
    exact hCombine.supplied_of_tiles hTiles hParts h m hStart
      hStop ⟨symbol, hGoal, hCorner⟩

end Closure

------------------------------------------------------------
-- Charts
------------------------------------------------------------

/- The complete items in a closure from the start symbol. -/
theorem Parse.isExact_headCorner
    {parse : Parse G}
    (hStart : G.isNonterminal parse.start = true)
    (hAlgorithm : parse.algorithm = .headCorner)
    (hClosure :
      Closure parse.words Algorithm.headCorner.steps
        (Algorithm.headCorner.seeds G parse.start
          parse.words)
        parse.chart.items.toList) :
    parse.IsExact := by
  have hGoal :
      .goal parse.start ⟨0, parse.words.length⟩ ∈
        parse.chart.items.toList.map Item.key :=
    hClosure.seeded _ List.mem_cons_self
  apply parse.isExact_of_constituents hStart
  · rw [hAlgorithm]
    exact hClosure.deduction
  · intro r hLhs
    rw [hAlgorithm]
    apply hClosure.completed_iff hGoal
    · rw [hLhs]
      exact G.isHeadCornerOf_self _
    · exact Nat.le_refl 0
    · exact Nat.le_refl _

/-
  Without a limit the head-corner algorithm gives a parse.
  Inside every goal of its chart the completed items of head
  corners are those of the rules that yield the words. The
  start symbol is demanded over all words; so the complete
  items are the rules of the start symbol that yield all
  words, and recognition is what the start symbol yields.
-/
theorem Grammar.headCorner_exact
    {start : Symbol}
    (hStart : G.isNonterminal start = true)
    (words : List Symbol) :
    ∃ parse,
      (G.parse .headCorner start none words).result =
          .ok parse ∧
        .goal start ⟨0, words.length⟩ ∈
          parse.chart.items.toList.map Item.key ∧
        (∀ symbol h m,
          .goal symbol ⟨h, m⟩ ∈
              parse.chart.items.toList.map Item.key →
            ∀ r, G.IsHeadCorner (G.rule r).lhs symbol →
              ∀ i j, h ≤ i → i ≤ j → j ≤ m →
                (.completed r ⟨i, j⟩ ∈
                    parse.chart.items.toList.map Item.key ↔
                  G.Yields (G.rule r).rhs
                    (words.extract i j))) ∧
        (parse.completeItems.map Item.key).Nodup ∧
        (∀ key,
          key ∈ parse.completeItems.map Item.key ↔
            ∃ r, (G.rule r).lhs = start ∧
              G.Yields (G.rule r).rhs words ∧
                key = .completed r ⟨0, words.length⟩) ∧
        (parse.isRecognised = true ↔
          G.Yields [start] words) := by
  rcases G.parse_closure .headCorner hStart words with
    ⟨parse, hParse, hAlgorithm, rfl, rfl, hClosure⟩
  have hGoal :
      .goal parse.start ⟨0, parse.words.length⟩ ∈
        parse.chart.items.toList.map Item.key :=
    hClosure.seeded _ List.mem_cons_self
  have hExact :=
    Parse.isExact_headCorner hStart hAlgorithm hClosure
  have hKeys := hExact.mem_keys_iff
  rw [hAlgorithm] at hKeys
  refine ⟨parse, hParse, hGoal, ?_, hExact.nodup, hKeys,
    hExact.isRecognised_iff⟩
  intro symbol h m hDemand r hCorner i j hBegin hSpan hEnd
  have hStops := hClosure.deduction.stop_le
    Algorithm.wellFormed_seeds Algorithm.stop_seeds
  rcases List.mem_map.mp hDemand with ⟨goal, hMember, hKey⟩
  have hBound := hStops goal hMember
  rw [Item.stop, hKey] at hBound
  rw [hClosure.completed_iff hDemand
    (G.isHeadCornerOf_iff.mpr hCorner) hBegin hEnd]
  exact yieldsOver_iff_yields hSpan
    (Nat.le_trans hEnd hBound)

/- A word is recognised in spite of left recursion. -/
theorem Grammar.repeated_headCorner :
    repeated.isNonterminal "S" = true ∧
      ∃ parse,
        (repeated.parse .headCorner "S" none ["b"]).result =
            .ok parse ∧
          parse.isRecognised = true := by
  have hStart : repeated.isNonterminal "S" = true := by
    decide
  rcases Grammar.headCorner_exact hStart ["b"] with
    ⟨parse, hParse, _, _, _, _, hRecognised⟩
  exact ⟨hStart, parse, hParse,
    hRecognised.mpr (repeated_yields 1)⟩

end Constituency
