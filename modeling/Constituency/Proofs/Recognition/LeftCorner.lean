import Constituency.Proofs.Recognition.TopDown

/-
  This file shows what left-corner recognition finds: of the
  items of Earley's algorithm those that have moved their
  dot, those of empty rules, and the seeds.

  Key definitions include:
    * `ItemKey.IsStarted`
    * `Awaited`

  Main declarations:
    * `Deduction.started`
    * `Closure.started_of_awaited`
    * `Closure.awaited`
    * `Closure.mem_leftCorner_iff`
    * `Grammar.leftCorner_refines_earley`
-/

namespace Constituency

variable {G : Grammar}
variable {start : Symbol}
variable {words : List Symbol}
variable {items : List (Item G)}

/-
  The item has a moved dot, belongs to an empty rule or is a
  seed.
-/
def ItemKey.IsStarted
    (start : Symbol)
    (key : ItemKey G) : Prop :=
  ∃ r dot span, key = .single r dot span ∧
    (1 ≤ dot ∨ (G.rule r).rhs = [] ∨
      (dot = 0 ∧ span = ⟨0, 0⟩ ∧ (G.rule r).lhs = start))

/- Left-corner steps start rules from their first daughter. -/
theorem Deduction.started
    (hItems :
      Deduction words Algorithm.leftCorner.steps
        (Sweep.seeds G start) items) :
    ∀ x ∈ items, x.key.IsStarted start := by
  refine @Deduction.forall_mem G _ _ _ _
    (fun x => x.key.IsStarted start) ?_ ?_ hItems
  · intro first hFirst
    rcases Sweep.mem_seeds_iff.mp hFirst with
      ⟨r, hLhs, rfl⟩
    exact ⟨r, 0, ⟨0, 0⟩, rfl, Or.inr (Or.inr
      ⟨rfl, rfl, hLhs⟩)⟩
  · intro known step item new _ hStep _ hInfers
    cases hInfers with
    | predict =>
        simp [Algorithm.steps, Algorithm.sweepSteps] at hStep
    | @scan r dot =>
        exact ⟨r, dot + 1, _, rfl,
          Or.inl (Nat.le_add_left 1 dot)⟩
    | @complete r b dot =>
        exact ⟨r, dot + 1, _, rfl,
          Or.inl (Nat.le_add_left 1 dot)⟩
    | @leftCornerPredict r =>
        exact ⟨r, 1, _, rfl, Or.inl (Nat.le_refl 1)⟩
    | @leftCornerWord _ r =>
        exact ⟨r, 1, _, rfl, Or.inl (Nat.le_refl 1)⟩
    | @leftCornerEmpty _ r _ _ _ hEmpty =>
        exact ⟨r, 0, _, rfl, Or.inr (Or.inl hEmpty)⟩
    | _ =>
        simp [Algorithm.steps, Algorithm.sweepSteps] at hStep

------------------------------------------------------------
-- Awaited Symbols
------------------------------------------------------------

/-
  A symbol is awaited at a position: it is the start symbol
  at the first one, or a left corner of what an item there
  waits for.
-/
def Awaited
    (start : Symbol)
    (items : List (Item G))
    (A : Symbol)
    (i : Nat) : Prop :=
  (A = start ∧ i = 0) ∨
    ∃ q dot h wanted,
      ItemKey.single q dot ⟨h, i⟩ ∈ items.map Item.key ∧
        (G.rule q).rhs[dot]? = some wanted ∧
          G.IsLeftCorner A wanted

/- What an item waits for is awaited. -/
theorem Awaited.of_waiting
    {q : G.RuleId}
    {dot h i : Nat}
    {A : Symbol}
    (hKey : .single q dot ⟨h, i⟩ ∈ items.map Item.key)
    (hNext : (G.rule q).rhs[dot]? = some A) :
    Awaited start items A i :=
  Or.inr ⟨q, dot, h, A, hKey, hNext, .refl⟩

namespace Closure

variable
  (hClosure :
    Closure words Algorithm.leftCorner.steps
      (Sweep.seeds G start) items)

include hClosure

/- The rules for the start symbol are there as seeds. -/
theorem seed_mem
    {r : G.RuleId}
    (hLhs : (G.rule r).lhs = start) :
    .single r 0 ⟨0, 0⟩ ∈ items.map Item.key :=
  hClosure.seeded ⟨.single r 0 ⟨0, 0⟩, []⟩
    (Sweep.mem_seeds_iff.mpr ⟨r, hLhs, rfl⟩)

/- With a rule its first daughter is awaited. -/
theorem awaited_leftmost
    {r : G.RuleId}
    {i : Nat}
    {A : Symbol}
    (hAwaited : Awaited start items (G.rule r).lhs i)
    (hLeftmost : (G.rule r).leftmost = some A) :
    Awaited start items A i := by
  rcases hAwaited with
    ⟨hLhs, rfl⟩ | ⟨q, dot, h, wanted, hKey, hNext, hCorner⟩
  · rw [Rule.leftmost, List.head?_eq_getElem?] at hLeftmost
    exact .of_waiting (hClosure.seed_mem hLhs) hLeftmost
  · exact Or.inr ⟨q, dot, h, wanted, hKey, hNext,
      hCorner.tail ⟨r, rfl, hLeftmost⟩⟩

/- An awaited empty rule is found. -/
theorem mem_of_awaited_empty
    {r : G.RuleId}
    {i : Nat}
    (hAwaited : Awaited start items (G.rule r).lhs i)
    (hEmpty : (G.rule r).rhs = []) :
    .single r 0 ⟨i, i⟩ ∈ items.map Item.key := by
  rcases hAwaited with
    ⟨hLhs, rfl⟩ | ⟨q, dot, h, wanted, hKey, hNext, hCorner⟩
  · exact hClosure.seed_mem hLhs
  · exact hClosure.leftCornerEmpty (by decide) hKey hNext
      (G.isLeftCornerOf_iff.mpr hCorner) hEmpty

/- An awaited rule is started from a word. -/
theorem mem_of_awaited_word
    {r : G.RuleId}
    {i : Nat}
    {a : Symbol}
    (hAwaited : Awaited start items (G.rule r).lhs i)
    (hLeftmost : (G.rule r).leftmost = some a)
    (hTerminal : G.isNonterminal a = false)
    (hWord : words[i]? = some a) :
    .single r 1 ⟨i, i + 1⟩ ∈ items.map Item.key := by
  rcases hAwaited with
    ⟨hLhs, rfl⟩ | ⟨q, dot, h, wanted, hKey, hNext, hCorner⟩
  · rw [Rule.leftmost, List.head?_eq_getElem?] at hLeftmost
    exact hClosure.scan (by decide) (hClosure.seed_mem hLhs)
      hLeftmost hTerminal hWord
  · exact hClosure.leftCornerWord (by decide) hKey hNext
      (G.isLeftCornerOf_iff.mpr hCorner) hLeftmost hTerminal
      hWord

/- An awaited rule is started from a constituent. -/
theorem mem_of_awaited_constituent
    {r b : G.RuleId}
    {i j : Nat}
    (hAwaited : Awaited start items (G.rule r).lhs i)
    (hLeftmost :
      (G.rule r).leftmost = some (G.rule b).lhs)
    (hFound :
      .single b (G.rule b).length ⟨i, j⟩ ∈
        items.map Item.key) :
    .single r 1 ⟨i, j⟩ ∈ items.map Item.key := by
  rcases hAwaited with
    ⟨hLhs, rfl⟩ | ⟨q, dot, h, wanted, hKey, hNext, hCorner⟩
  · rw [Rule.leftmost, List.head?_eq_getElem?] at hLeftmost
    exact hClosure.complete (by decide)
      (hClosure.seed_mem hLhs) hLeftmost hFound
  · exact hClosure.leftCornerPredict (by decide) hKey hNext
      (G.isLeftCornerOf_iff.mpr hCorner) hLeftmost hFound

------------------------------------------------------------
-- Completeness
------------------------------------------------------------

/-
  Dots move over whatever the daughters behind them yield,
  and awaited rules are started over what their first
  daughters yield. Both are proved together by induction on
  the derivation: moving over a constituent needs its rule
  to be started, and starting a rule leaves the other
  daughters to be moved over.
-/
theorem advance_and_start
    {row : List Symbol}
    {i j : Nat}
    (hRow : G.YieldsOver words row i j) :
    (∀ {r : G.RuleId} {dot h : Nat} {rest : List Symbol},
      .single r dot ⟨h, i⟩ ∈ items.map Item.key →
        (G.rule r).rhs.drop dot = row ++ rest →
          .single r (dot + row.length) ⟨h, j⟩ ∈
            items.map Item.key) ∧
      ∀ {r : G.RuleId} {rest : List Symbol},
        Awaited start items (G.rule r).lhs i →
          (G.rule r).rhs = row ++ rest →
            (row = [] → (G.rule r).rhs = []) →
              .single r row.length ⟨i, j⟩ ∈
                items.map Item.key := by
  induction hRow with
  | nil i =>
      constructor
      · intro r dot h rest hKey _
        exact hKey
      · intro r rest hAwaited _ hEmpty
        exact hClosure.mem_of_awaited_empty hAwaited
          (hEmpty rfl)
  | @word a row i j hTerminal hWord _ ih =>
      rcases ih with ⟨ihAdvance, _⟩
      constructor
      · intro r dot h rest hKey hDrop
        rcases Grammar.getElem?_of_drop_eq_cons hDrop with
          ⟨hNext, hLater⟩
        have hScan := hClosure.scan (by decide) hKey hNext
          hTerminal hWord
        have hAll := ihAdvance hScan hLater
        rwa [Nat.add_assoc, Nat.add_comm 1] at hAll
      · intro r rest hAwaited hRhs _
        have hLeftmost : (G.rule r).leftmost = some a := by
          rw [Rule.leftmost, hRhs]
          rfl
        have hFirst := hClosure.mem_of_awaited_word hAwaited
          hLeftmost hTerminal hWord
        have hLater : (G.rule r).rhs.drop 1 = row ++ rest := by
          rw [hRhs]
          rfl
        have hAll := ihAdvance hFirst hLater
        rwa [Nat.add_comm 1] at hAll
  | @rule b row i k j hDaughters _ ihDaughters ihRow =>
      rcases ihDaughters with ⟨_, ihStart⟩
      rcases ihRow with ⟨ihAdvance, _⟩
      have hFound :
          Awaited start items (G.rule b).lhs i →
            .single b (G.rule b).length ⟨i, k⟩ ∈
              items.map Item.key :=
        fun hAwaited => ihStart hAwaited
          (List.append_nil _).symm (fun hNone => hNone)
      constructor
      · intro r dot h rest hKey hDrop
        rcases Grammar.getElem?_of_drop_eq_cons hDrop with
          ⟨hNext, hLater⟩
        have hComplete := hClosure.complete (by decide) hKey
          hNext (hFound (.of_waiting hKey hNext))
        have hAll := ihAdvance hComplete hLater
        rwa [Nat.add_assoc, Nat.add_comm 1] at hAll
      · intro r rest hAwaited hRhs _
        have hLeftmost :
            (G.rule r).leftmost = some (G.rule b).lhs := by
          rw [Rule.leftmost, hRhs]
          rfl
        have hFirst :=
          hClosure.mem_of_awaited_constituent hAwaited
            hLeftmost
            (hFound
              (hClosure.awaited_leftmost hAwaited hLeftmost))
        have hLater : (G.rule r).rhs.drop 1 = row ++ rest := by
          rw [hRhs]
          rfl
        have hAll := ihAdvance hFirst hLater
        rwa [Nat.add_comm 1] at hAll

/- An awaited rule has all items with a moved dot. -/
theorem mem_of_awaited
    {r : G.RuleId}
    {dot i j : Nat}
    (hAwaited : Awaited start items (G.rule r).lhs i)
    (hDot : dot ≤ (G.rule r).length)
    (hMoved : dot = 0 → (G.rule r).rhs = [])
    (hBefore :
      G.YieldsOver words ((G.rule r).rhs.take dot) i j) :
    .single r dot ⟨i, j⟩ ∈ items.map Item.key := by
  have hLength : ((G.rule r).rhs.take dot).length = dot := by
    rw [List.length_take]
    exact Nat.min_eq_left hDot
  have hAll := (hClosure.advance_and_start hBefore).2 hAwaited
    (List.take_append_drop dot (G.rule r).rhs).symm
  rw [hLength] at hAll
  apply hAll
  intro hNone
  apply hMoved
  rw [← hLength, hNone]
  rfl

/- Whatever comes up from the start symbol is awaited. -/
theorem awaited
    {A : Symbol}
    {i : Nat}
    (hReaches : G.Reaches words start 0 A i) :
    Awaited start items A i := by
  induction hReaches with
  | here => exact Or.inl ⟨rfl, rfl⟩
  | @daughter q dot i j A _ hBefore hNext ih =>
      have hDot : dot ≤ (G.rule q).length :=
        Nat.le_of_lt (List.getElem?_eq_some_iff.mp hNext).1
      cases dot with
      | zero =>
          cases hBefore
          apply hClosure.awaited_leftmost ih
          rw [Rule.leftmost, List.head?_eq_getElem?]
          exact hNext
      | succ dot =>
          have hMoved := hClosure.mem_of_awaited ih hDot
            (fun hZero => absurd hZero (Nat.succ_ne_zero dot))
            hBefore
          exact .of_waiting hMoved hNext

/- Left-corner recognition finds what is foreseen and begun. -/
theorem mem_leftCorner_iff
    {r : G.RuleId}
    {dot i j : Nat} :
    .single r dot ⟨i, j⟩ ∈ items.map Item.key ↔
      (dot ≤ (G.rule r).length ∧
        G.IsForeseen words start r dot ⟨i, j⟩) ∧
        (1 ≤ dot ∨ (G.rule r).rhs = [] ∨
          (dot = 0 ∧ (⟨i, j⟩ : Span) = ⟨0, 0⟩ ∧
            (G.rule r).lhs = start)) := by
  constructor
  · intro hKey
    rcases List.mem_map.mp hKey with ⟨item, hItem, hSame⟩
    have hWellFormed := hClosure.deduction.wellFormed
      Sweep.wellFormed_seeds item hItem
    rw [hSame, ItemKey.wellFormed_single_iff] at hWellFormed
    have hForeseen := hClosure.deduction.foreseen item hItem
      r dot _ hSame
    rcases hClosure.deduction.started item hItem with
      ⟨_, _, _, hOther, hStarted⟩
    rw [hSame] at hOther
    cases hOther
    exact ⟨⟨hWellFormed.2, hForeseen⟩, hStarted⟩
  · rintro ⟨⟨hDot, hReaches, hBefore⟩, hStarted⟩
    have hAwaited := hClosure.awaited hReaches
    rcases hStarted with
      hMoved | hEmpty | ⟨rfl, hSpan, hLhs⟩
    · exact hClosure.mem_of_awaited hAwaited hDot
        (fun hZero => by omega) hBefore
    · exact hClosure.mem_of_awaited hAwaited hDot
        (fun _ => hEmpty) hBefore
    · rw [hSpan]
      exact hClosure.seed_mem hLhs

end Closure

------------------------------------------------------------
-- Two Charts
------------------------------------------------------------

/-
  A closure for left-corner recognition has the keys of the
  closure for Earley's algorithm that are begun.
-/
theorem Closure.mem_keys_leftCorner_iff
    {others : List (Item G)}
    (hClosure :
      Closure words Algorithm.leftCorner.steps
        (Sweep.seeds G start) items)
    (hOther :
      Closure words Algorithm.earley.steps
        (Sweep.seeds G start) others)
    {key : ItemKey G} :
    key ∈ items.map Item.key ↔
      key ∈ others.map Item.key ∧ key.IsStarted start := by
  constructor
  · intro hKey
    rcases List.mem_map.mp hKey with ⟨item, hItem, rfl⟩
    rcases hClosure.deduction.started item hItem with
      ⟨r, dot, ⟨i, j⟩, hSame, hStarted⟩
    refine ⟨?_, ⟨r, dot, ⟨i, j⟩, hSame, hStarted⟩⟩
    rw [hSame] at hKey ⊢
    exact hOther.mem_topDown_iff.mpr
      (hClosure.mem_leftCorner_iff.mp hKey).1
  · rintro ⟨hKey, r, dot, ⟨i, j⟩, rfl, hStarted⟩
    exact hClosure.mem_leftCorner_iff.mpr
      ⟨hOther.mem_topDown_iff.mp hKey, hStarted⟩

/- Complete items are begun. -/
theorem ItemKey.isStarted_constituent
    (start : Symbol)
    (r : G.RuleId)
    (span : Span) :
    (ItemKey.single r (G.rule r).length span).IsStarted
      start := by
  refine ⟨r, (G.rule r).length, span, rfl, ?_⟩
  unfold Rule.length
  cases (G.rule r).rhs with
  | nil => exact Or.inr (Or.inl rfl)
  | cons symbol rest =>
      exact Or.inl (Nat.le_add_left 1 rest.length)

/-
  Without a limit both algorithms give a parse. The chart of
  left-corner recognition has the keys of Earley's chart
  with a moved dot, of an empty rule or of a seed. So both
  have the same complete items, over every span and for the
  start symbol over all words.
-/
theorem Grammar.leftCorner_refines_earley
    (hStart : G.isNonterminal start = true)
    (words : List Symbol) :
    ∃ earley leftCorner,
      (G.parse .earley start none words).result =
          .ok earley ∧
        (G.parse .leftCorner start none words).result =
          .ok leftCorner ∧
        (∀ key,
          key ∈ leftCorner.chart.items.toList.map Item.key ↔
            key ∈ earley.chart.items.toList.map Item.key ∧
              ∃ r dot span, key = .single r dot span ∧
                (1 ≤ dot ∨ (G.rule r).rhs = [] ∨
                  (dot = 0 ∧ span = ⟨0, 0⟩ ∧
                    (G.rule r).lhs = start))) ∧
        (∀ r span,
          .single r (G.rule r).length span ∈
              leftCorner.chart.items.toList.map Item.key ↔
            .single r (G.rule r).length span ∈
              earley.chart.items.toList.map Item.key) ∧
        (leftCorner.completeItems.map Item.key).Perm
          (earley.completeItems.map Item.key) := by
  rcases G.parse_closure .earley hStart words with
    ⟨earley, hEarley, _, hSameStart, hSameWords, hOther⟩
  rcases G.parse_closure .leftCorner hStart words with
    ⟨leftCorner, hLeftCorner, _, rfl, rfl, hClosure⟩
  have hKeys :
      ∀ key,
        key ∈ leftCorner.chart.items.toList.map Item.key ↔
          key ∈ earley.chart.items.toList.map Item.key ∧
            key.IsStarted leftCorner.start :=
    fun key => hClosure.mem_keys_leftCorner_iff hOther
  have hComplete :
      ∀ r span,
        .single r (G.rule r).length span ∈
            leftCorner.chart.items.toList.map Item.key ↔
          .single r (G.rule r).length span ∈
            earley.chart.items.toList.map Item.key := by
    intro r span
    rw [hKeys]
    exact and_iff_left
      (ItemKey.isStarted_constituent _ r span)
  refine ⟨earley, leftCorner, hEarley, hLeftCorner, hKeys,
    hComplete, ?_⟩
  apply (List.perm_ext_iff_of_nodup
    leftCorner.nodup_keys_completeItems
    earley.nodup_keys_completeItems).mpr
  intro key
  rw [Parse.mem_keys_completeItems_iff hClosure.deduction]
  rw [← hSameStart, ← hSameWords] at hOther
  rw [Parse.mem_keys_completeItems_iff hOther.deduction,
    hSameStart, hSameWords]
  apply exists_congr
  intro r
  apply and_congr_right
  intro _
  apply and_congr_right
  rintro rfl
  exact hComplete r _

/- Both find the same of a left-recursive symbol. -/
theorem Grammar.repeated_leftCorner :
    repeated.isNonterminal "S" = true ∧
      ∃ earley leftCorner,
        (repeated.parse .earley "S" none ["b"]).result =
            .ok earley ∧
          (repeated.parse .leftCorner "S" none
              ["b"]).result =
            .ok leftCorner ∧
          (leftCorner.completeItems.map Item.key).Perm
            (earley.completeItems.map Item.key) := by
  have hStart : repeated.isNonterminal "S" = true := by
    decide
  rcases Grammar.leftCorner_refines_earley hStart ["b"] with
    ⟨earley, leftCorner, hEarley, hLeftCorner, _, _, hSame⟩
  exact ⟨hStart, earley, leftCorner, hEarley, hLeftCorner,
    hSame⟩

end Constituency
