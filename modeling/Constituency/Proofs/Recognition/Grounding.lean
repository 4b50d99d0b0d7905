import Constituency.Proofs.Derivation.Tiling
import Constituency.Proofs.Parse.Outcome

/-
  This file shows that the children of an item say how it
  was found: together with words they cover what the item
  has recognised, and each was known before the item.

  Key definitions include:
    * `ItemKey.recognised`
    * `Spelled`
    * `Item.Grounded`

  Main declarations:
    * `Infers.grounded`
    * `Deduction.grounded`
    * `Deduction.children_induction`
    * `Deduction.yieldsOver`
-/

namespace Constituency

variable {G : Grammar}
variable {algorithm : Algorithm}
variable {words : List Symbol}

namespace ItemKey

/- The item is a demand. -/
def IsGoal
    (key : ItemKey G) : Prop :=
  ∃ symbol span, key = .goal symbol span

/- The daughters that have been recognised. -/
def recognised : ItemKey G → List Symbol
  | .single r dot _ => (G.rule r).rhs.take dot
  | .double r left right _ =>
      (G.rule r).rhs.extract left right
  | .goal _ _ => []
  | .completed r _ => (G.rule r).rhs

/- The daughters before a single dot are a part of all. -/
theorem recognised_single
    (r : G.RuleId)
    (dot : Nat)
    (span : Span) :
    (single r dot span).recognised =
      (G.rule r).rhs.extract 0 dot := by
  simp [recognised]

end ItemKey

namespace Algorithm

/- Only the algorithm that combines recognises from heads. -/
theorem eq_headCorner_iff
    {step : Step}
    (hStep : step ∈ algorithm.steps) :
    algorithm = .headCorner ↔ step = .combine := by
  cases algorithm with
  | headCorner =>
      have hOnly : step = .combine :=
        List.mem_singleton.mp hStep
      simp [hOnly]
  | earley =>
      have hOther : step ≠ .combine := by
        rintro rfl
        exact absurd hStep (by decide)
      simp [hOther]
  | leftCorner =>
      have hOther : step ≠ .combine := by
        rintro rfl
        exact absurd hStep (by decide)
      simp [hOther]

/- A constituent has recognised all daughters. -/
@[simp] theorem recognised_constituent
    (algorithm : Algorithm)
    (r : G.RuleId)
    (span : Span) :
    (algorithm.constituent r span).recognised =
      (G.rule r).rhs := by
  cases algorithm with
  | earley => exact List.take_length
  | leftCorner => exact List.take_length
  | headCorner => rfl

/- A constituent is no demand. -/
theorem not_isGoal_constituent
    (algorithm : Algorithm)
    (r : G.RuleId)
    (span : Span) :
    ¬ (algorithm.constituent r span).IsGoal := by
  rintro ⟨symbol, other, hKey⟩
  cases algorithm with
  | earley => cases hKey
  | leftCorner => cases hKey
  | headCorner => cases hKey

end Algorithm

------------------------------------------------------------
-- Spelling Out a Row
------------------------------------------------------------

/-
  Children that are constituents and were known earlier
  cover, with the words for the terminals, a row of symbols.
-/
def Spelled
    (algorithm : Algorithm)
    (words : List Symbol)
    (earlier : List (Item G))
    (row : List Symbol)
    (children : List (Item G))
    (i j : Nat) : Prop :=
  (∃ parts, G.Tiles words row parts i j ∧
    children.map Item.key =
      parts.map (fun part =>
        algorithm.constituent part.1 part.2)) ∧
    ∀ child ∈ children, child ∈ earlier

/- The children spell out what the item has recognised. -/
def Item.Grounded
    (algorithm : Algorithm)
    (words : List Symbol)
    (earlier : List (Item G))
    (item : Item G) : Prop :=
  Spelled algorithm words earlier item.key.recognised
    item.children item.start item.stop

namespace Spelled

variable {earlier more : List (Item G)}
variable {row : List Symbol}
variable {children others : List (Item G)}
variable {i j k : Nat}

theorem nil
    (i : Nat) :
    Spelled algorithm words earlier [] [] i i :=
  ⟨⟨[], .nil i, rfl⟩, by simp⟩

theorem word
    {a : Symbol}
    (hTerminal : G.isNonterminal a = false)
    (hWord : words[i]? = some a) :
    Spelled algorithm words earlier [a] [] i (i + 1) :=
  ⟨⟨[], .terminal hTerminal hWord, rfl⟩, by simp⟩

theorem child
    {r : G.RuleId}
    {below : List (Item G)}
    (hSpan : i ≤ j)
    (hChild :
      ⟨algorithm.constituent r ⟨i, j⟩, below⟩ ∈ earlier) :
    Spelled algorithm words earlier [(G.rule r).lhs]
      [⟨algorithm.constituent r ⟨i, j⟩, below⟩] i j := by
  refine ⟨⟨[(r, ⟨i, j⟩)], .nonterminal r hSpan, rfl⟩, ?_⟩
  intro child hMember
  rw [List.mem_singleton] at hMember
  exact hMember ▸ hChild

theorem append
    {after : List Symbol}
    (hFirst :
      Spelled algorithm words earlier row children i k)
    (hSecond :
      Spelled algorithm words earlier after others k j) :
    Spelled algorithm words earlier (row ++ after)
      (children ++ others) i j := by
  rcases hFirst with ⟨⟨before, hRow, hChildren⟩, hEarlier⟩
  rcases hSecond with ⟨⟨behind, hAfter, hOthers⟩, hLater⟩
  refine ⟨⟨before ++ behind, hRow.append hAfter, ?_⟩, ?_⟩
  · rw [List.map_append, List.map_append, hChildren, hOthers]
  · intro child hChild
    rcases List.mem_append.mp hChild with hOld | hNew
    · exact hEarlier child hOld
    · exact hLater child hNew

theorem mono
    (hKnown : earlier ⊆ more)
    (hRow :
      Spelled algorithm words earlier row children i j) :
    Spelled algorithm words more row children i j :=
  ⟨hRow.1, fun child hChild => hKnown (hRow.2 child hChild)⟩

/- A row with one symbol more on the right. -/
theorem extend_right
    {left right : Nat}
    {symbol : Symbol}
    (hRow :
      Spelled algorithm words earlier
        (row.extract left right) children i k)
    (hDots : left ≤ right)
    (hNext : row[right]? = some symbol)
    (hSymbol :
      Spelled algorithm words earlier [symbol] others k j) :
    Spelled algorithm words earlier
      (row.extract left (right + 1)) (children ++ others)
      i j := by
  rw [Grammar.extract_succ_right hDots hNext]
  exact hRow.append hSymbol

/- A row with one symbol more on the left. -/
theorem extend_left
    {left right : Nat}
    {symbol : Symbol}
    (hRow :
      Spelled algorithm words earlier
        (row.extract (left + 1) right) children k j)
    (hDots : left + 1 ≤ right)
    (hNext : row[left]? = some symbol)
    (hSymbol :
      Spelled algorithm words earlier [symbol] others i k) :
    Spelled algorithm words earlier
      (row.extract left right) (others ++ children) i j := by
  rw [Grammar.extract_succ_left hDots hNext]
  exact hSymbol.append hRow

/- A complete item with one dot as the only child. -/
theorem child_single
    {b : G.RuleId}
    {below : List (Item G)}
    (hAlgorithm : algorithm ≠ .headCorner)
    (hChild :
      ⟨.single b (G.rule b).length ⟨i, j⟩, below⟩ ∈ earlier)
    (hSpan : i ≤ j) :
    Spelled algorithm words earlier [(G.rule b).lhs]
      [⟨.single b (G.rule b).length ⟨i, j⟩, below⟩] i j := by
  rw [← Algorithm.constituent_of_sweep hAlgorithm]
    at hChild ⊢
  exact child hSpan hChild

/- A completed item as the only child. -/
theorem child_completed
    {b : G.RuleId}
    {below : List (Item G)}
    (hChild : ⟨.completed b ⟨i, j⟩, below⟩ ∈ earlier)
    (hSpan : i ≤ j) :
    Spelled .headCorner words earlier [(G.rule b).lhs]
      [⟨.completed b ⟨i, j⟩, below⟩] i j :=
  @child G .headCorner words earlier i j b below hSpan hChild

end Spelled

------------------------------------------------------------
-- Steps
------------------------------------------------------------

namespace Infers

variable {known : List (Item G)}
variable {step : Step}
variable {item new : Item G}

/-
  Sweeping keeps items grounded: a new rule begins with
  nothing, a word or a complete item, and a moved dot adds a
  word or a complete item on the right.
-/
theorem grounded_of_sweep
    (hAlgorithm : algorithm ≠ .headCorner)
    (hChart : ∀ x ∈ known, x.key.WellFormed)
    (hKnown : ∀ x ∈ known, ¬ x.key.IsGoal →
      x.Grounded algorithm words known)
    (hItem : item ∈ known)
    (hStep : step ≠ .combine)
    (hInfers : Infers words known step item new) :
    new.Grounded algorithm words known := by
  have hSingle :
      ∀ {r : G.RuleId} {dot i j : Nat}
        {children : List (Item G)},
        ⟨.single r dot ⟨i, j⟩, children⟩ ∈ known →
          Spelled algorithm words known
            ((G.rule r).rhs.extract 0 dot) children i j := by
    intro r dot i j children hMember
    have hGrounded := hKnown _ hMember
      (by simp [ItemKey.IsGoal])
    rwa [Item.Grounded, ItemKey.recognised_single]
      at hGrounded
  have hSpan :
      ∀ {r : G.RuleId} {dot i j : Nat}
        {children : List (Item G)},
        ⟨.single r dot ⟨i, j⟩, children⟩ ∈ known → i ≤ j :=
    fun hMember => (hChart _ hMember).start_le_stop
  unfold Item.Grounded
  cases hInfers with
  | predict => exact .nil item.stop
  | scan hNext hTerminal hWord =>
      rw [ItemKey.recognised_single]
      have hAll := (hSingle hItem).extend_right
        (Nat.zero_le _) hNext (.word hTerminal hWord)
      rwa [List.append_nil] at hAll
  | complete hWaiting hNext =>
      rw [ItemKey.recognised_single]
      exact (hSingle hWaiting).extend_right (Nat.zero_le _)
        hNext (.child_single hAlgorithm hItem (hSpan hItem))
  | @leftCornerPredict r b i j _ _ below _ _ _ _ hLeft =>
      rw [Rule.leftmost, List.head?_eq_getElem?] at hLeft
      rw [ItemKey.recognised_single,
        Grammar.extract_succ hLeft]
      exact .child_single hAlgorithm hItem (hSpan hItem)
  | leftCornerWord _ _ hLeft hTerminal hWord =>
      rw [Rule.leftmost, List.head?_eq_getElem?] at hLeft
      rw [ItemKey.recognised_single,
        Grammar.extract_succ hLeft]
      exact .word hTerminal hWord
  | leftCornerEmpty => exact .nil item.stop
  | _ => exact absurd rfl hStep

/-
  Combining keeps items grounded: an item begins with its
  head, and each growth adds a word or a completed item on
  the side where the dot moves.
-/
theorem grounded_of_combine
    (hChart : ∀ x ∈ known, x.key.WellFormed)
    (hKnown : ∀ x ∈ known, ¬ x.key.IsGoal →
      x.Grounded .headCorner words known)
    (hItem : item ∈ known)
    (hGoal : ¬ new.key.IsGoal)
    (hInfers : Infers words known .combine item new) :
    new.Grounded .headCorner words known := by
  have hDouble :
      ∀ {r : G.RuleId} {left right i j : Nat}
        {children : List (Item G)},
        ⟨.double r left right ⟨i, j⟩, children⟩ ∈ known →
          Spelled .headCorner words known
            ((G.rule r).rhs.extract left right) children i
              j ∧
            left ≤ right := by
    intro r left right i j children hMember
    have hDots := hChart _ hMember
    rw [ItemKey.wellFormed_double_iff] at hDots
    exact ⟨hKnown _ hMember (by simp [ItemKey.IsGoal]),
      hDots.2.1⟩
  have hSpan :
      ∀ {b : G.RuleId} {i j : Nat} {below : List (Item G)},
        ⟨.completed b ⟨i, j⟩, below⟩ ∈ known → i ≤ j :=
    fun hMember => (hChart _ hMember).start_le_stop
  unfold Item.Grounded
  cases hInfers with
  | @preComplete r span children =>
      have hAll := (hDouble hItem).1
      have hRhs :
          (G.rule r).rhs.extract 0 (G.rule r).length =
            (G.rule r).rhs := by
        simp [Rule.length]
      rwa [hRhs] at hAll
  | completeLeft _ hSister hFound =>
      rcases hDouble hItem with ⟨hBefore, hDots⟩
      exact hBefore.extend_left hDots hSister
        (.child_completed hFound (hSpan hFound))
  | completeRight _ hSister hFound =>
      rcases hDouble hItem with ⟨hBefore, hDots⟩
      exact hBefore.extend_right hDots hSister
        (.child_completed hFound (hSpan hFound))
  | scanLeft _ hSister hTerminal hWord =>
      rcases hDouble hItem with ⟨hBefore, hDots⟩
      exact hBefore.extend_left hDots hSister
        (.word hTerminal hWord)
  | scanRight _ hSister hTerminal hWord =>
      rcases hDouble hItem with ⟨hBefore, hDots⟩
      have hAll := hBefore.extend_right hDots hSister
        (.word hTerminal hWord)
      rwa [List.append_nil] at hAll
  | scanHead _ _ hDaughter hTerminal hWord =>
      rw [ItemKey.recognised, Grammar.extract_succ hDaughter]
      exact .word hTerminal hWord
  | @scanEmpty r _ _ k _ _ _ hEmpty =>
      rw [ItemKey.recognised, hEmpty]
      exact .nil k
  | projectInside hFound _ _ hDaughter =>
      rw [ItemKey.recognised, Grammar.extract_succ hDaughter]
      exact .child_completed hFound (hSpan hFound)
  | projectUp _ _ _ hDaughter =>
      rw [ItemKey.recognised, Grammar.extract_succ hDaughter]
      exact .child_completed hItem (hSpan hItem)
  | _ => exact absurd ⟨_, _, rfl⟩ hGoal

/- From grounded items only grounded items follow. -/
theorem grounded
    (hChart : ∀ x ∈ known, x.key.WellFormed)
    (hKnown : ∀ x ∈ known, ¬ x.key.IsGoal →
      x.Grounded algorithm words known)
    (hItem : item ∈ known)
    (hStep : step ∈ algorithm.steps)
    (hGoal : ¬ new.key.IsGoal)
    (hInfers : Infers words known step item new) :
    new.Grounded algorithm words known := by
  have hKind := algorithm.eq_headCorner_iff hStep
  by_cases hAlgorithm : algorithm = .headCorner
  · have hCombine := hKind.mp hAlgorithm
    subst hAlgorithm
    subst hCombine
    exact hInfers.grounded_of_combine hChart hKnown hItem
      hGoal
  · have hSweeps := (not_congr hKind).mp hAlgorithm
    exact hInfers.grounded_of_sweep hAlgorithm hChart hKnown
      hItem hSweeps

end Infers

------------------------------------------------------------
-- Deductions
------------------------------------------------------------

/- The children of a row are constituents. -/
theorem Spelled.exists_constituent
    {earlier children : List (Item G)}
    {row : List Symbol}
    {i j : Nat}
    (hRow : Spelled algorithm words earlier row children i j)
    {child : Item G}
    (hChild : child ∈ children) :
    ∃ r span, child.key = algorithm.constituent r span := by
  rcases hRow with ⟨⟨parts, _, hKeys⟩, _⟩
  have hKey : child.key ∈ children.map Item.key :=
    List.mem_map_of_mem hChild
  rw [hKeys] at hKey
  rcases List.mem_map.mp hKey with ⟨part, _, hSame⟩
  exact ⟨part.1, part.2, hSame.symm⟩

/-
  What holds of each item after the items before it holds
  when one more item is put behind them.
-/
theorem forall_getElem?_snoc
    {P : List (Item G) → Item G → Prop}
    {items : List (Item G)}
    {last : Item G}
    (hItems : ∀ (n : Nat) (x : Item G),
      items[n]? = some x → P (items.take n) x)
    (hLast : P items last) :
    ∀ (n : Nat) (x : Item G),
      (items ++ [last])[n]? = some x →
        P ((items ++ [last]).take n) x := by
  intro n x hx
  rcases Nat.lt_trichotomy n items.length with
    hBefore | rfl | hBehind
  · rw [List.getElem?_append_left hBefore] at hx
    rw [List.take_append_of_le_length (Nat.le_of_lt hBefore)]
    exact hItems n x hx
  · rw [List.getElem?_concat_length, Option.some.injEq] at hx
    subst hx
    rwa [List.take_left]
  · rw [List.getElem?_append_right (Nat.le_of_lt hBehind)]
      at hx
    have hBound := (List.getElem?_eq_some_iff.mp hx).1
    rw [List.length_singleton] at hBound
    omega

namespace Deduction

variable {start : Symbol}
variable {items : List (Item G)}

/- Each item is grounded in the items before it. -/
theorem grounded
    (hItems :
      Deduction words algorithm.steps
        (algorithm.seeds G start words) items) :
    ∀ (n : Nat) (x : Item G), items[n]? = some x →
      ¬ x.key.IsGoal →
        x.Grounded algorithm words (items.take n) := by
  induction hItems with
  | nil =>
      intro n x hx
      cases hx
  | @seed items first _ hSeed ih =>
      refine @forall_getElem?_snoc G
        (fun earlier x => ¬ x.key.IsGoal →
          x.Grounded algorithm words earlier) _ _ ih ?_
      intro hGoal
      by_cases hAlgorithm : algorithm = .headCorner
      · subst hAlgorithm
        have hOnly := List.mem_singleton.mp hSeed
        subst hOnly
        exact absurd ⟨_, _, rfl⟩ hGoal
      · rw [Grammar.seeds_eq_sweep hAlgorithm] at hSeed
        rcases Sweep.mem_seeds_iff.mp hSeed with
          ⟨r, _, rfl⟩
        exact Spelled.nil 0
  | @infer items step item new hItems hStep hItem hInfers
      ih =>
      refine @forall_getElem?_snoc G
        (fun earlier x => ¬ x.key.IsGoal →
          x.Grounded algorithm words earlier) _ _ ih ?_
      intro hGoal
      have hChart :=
        hItems.wellFormed Algorithm.wellFormed_seeds
      have hKnown :
          ∀ x ∈ items, ¬ x.key.IsGoal →
            x.Grounded algorithm words items := by
        intro x hx hOther
        rcases List.mem_iff_getElem?.mp hx with ⟨n, hn⟩
        exact (ih n x hn hOther).mono
          (List.take_subset n items)
      exact hInfers.grounded hChart hKnown hItem hStep hGoal

/-
  Induction from children to items: the children of an item
  come before it, so none of them depends on it.
-/
theorem children_induction
    {P : Item G → Prop}
    (hItems :
      Deduction words algorithm.steps
        (algorithm.seeds G start words) items)
    (hStep : ∀ x ∈ items,
      x.Grounded algorithm words items →
        (∀ child ∈ x.children, P child) → P x) :
    ∀ x ∈ items, ¬ x.key.IsGoal → P x := by
  have hAll :
      ∀ (n : Nat) (x : Item G), items[n]? = some x →
        ¬ x.key.IsGoal → P x := by
    intro n
    induction n using Nat.strongRecOn with
    | ind n ih =>
        intro x hx hGoal
        have hGrounded := hItems.grounded n x hx hGoal
        apply hStep x (List.mem_of_getElem? hx)
        · exact hGrounded.mono (List.take_subset n items)
        · intro child hChild
          have hEarlier := hGrounded.2 child hChild
          rcases List.mem_iff_getElem?.mp hEarlier with
            ⟨m, hm⟩
          rcases hGrounded.exists_constituent hChild with
            ⟨r, span, hKey⟩
          have hBound := (List.getElem?_eq_some_iff.mp hm).1
          rw [List.length_take] at hBound
          rw [List.getElem?_take_of_lt (by omega)] at hm
          apply ih m (by omega) child hm
          rw [hKey]
          exact algorithm.not_isGoal_constituent r span
  intro x hx
  rcases List.mem_iff_getElem?.mp hx with ⟨n, hn⟩
  exact hAll n x hn

/- What an item has recognised yields the words over it. -/
theorem yieldsOver
    (hItems :
      Deduction words algorithm.steps
        (algorithm.seeds G start words) items) :
    ∀ x ∈ items, ¬ x.key.IsGoal →
      G.YieldsOver words x.key.recognised x.start x.stop := by
  refine @children_induction G _ _ _ _
    (fun x =>
      G.YieldsOver words x.key.recognised x.start x.stop)
    hItems ?_
  intro x _ hGrounded hChildren
  rcases hGrounded with ⟨⟨parts, hTiles, hKeys⟩, _⟩
  apply hTiles.yieldsOver
  intro part hPart
  have hKey :
      algorithm.constituent part.1 part.2 ∈
        x.children.map Item.key := by
    rw [hKeys]
    exact List.mem_map_of_mem hPart
  rcases List.mem_map.mp hKey with ⟨child, hChild, hSame⟩
  have hYields := hChildren child hChild
  rwa [Item.start, Item.stop, hSame,
    Algorithm.recognised_constituent,
    Algorithm.span_constituent] at hYields

end Deduction

end Constituency
