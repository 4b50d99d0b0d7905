import Constituency.Chart.Lemmas
import Constituency.Proofs.Inference.Calculus

/-
  This file shows that the steps of the sweeping algorithms
  offer exactly what the calculus infers. On well-formed
  items no offer is an error.

  Main declarations:
    * `Item.mem_predict_iff`
    * `Item.mem_scan_iff`
    * `Item.mem_complete_iff`
    * `Item.mem_leftCornerPredict_iff`
    * `Item.mem_leftCornerScan_iff`
-/

namespace Constituency

namespace Item

variable {G : Grammar}
variable {words : List Symbol}
variable {offer : Except ItemError (Item G)}

/- The items of a chart that end at a position. -/
theorem mem_endingAt_iff
    {C : Chart G}
    {position : Nat}
    {item : Item G} :
    item ∈ C.endingAt position ↔
      item ∈ C.items.toList ∧ item.stop = position := by
  rw [C.endingAt_eq, List.mem_filter, decide_eq_true_eq]

/- A complete single-dotted item has its dot at the end. -/
theorem isComplete_single_iff
    {r : G.RuleId}
    {dot : Nat}
    {span : Span} :
    (ItemKey.single r dot span : ItemKey G).isComplete =
        true ↔
      dot = (G.rule r).length := by
  simp [ItemKey.isComplete]

/- A rule can be begun anywhere. -/
theorem create_begun
    (r : G.RuleId)
    (position : Nat) :
    create (.single r 0 (.point position)) [] =
      .ok ⟨.single r 0 ⟨position, position⟩, []⟩ :=
  create_of_wellFormed (by simp [Span.point]) []

/- A dot before a daughter can be moved. -/
theorem create_moved
    {r : G.RuleId}
    {dot i j : Nat}
    {symbol : Symbol}
    (hNext : (G.rule r).rhs[dot]? = some symbol)
    (hSpan : i ≤ j)
    (children : List (Item G)) :
    create (.single r (dot + 1) ⟨i, j⟩) children =
      .ok ⟨.single r (dot + 1) ⟨i, j⟩, children⟩ := by
  apply create_of_wellFormed
  rw [ItemKey.wellFormed_single_iff]
  exact ⟨hSpan, (List.getElem?_eq_some_iff.mp hNext).1⟩

------------------------------------------------------------
-- Prediction and Scanning
------------------------------------------------------------

theorem mem_predict_iff
    {known : List (Item G)}
    {item : Item G} :
    offer ∈ item.predict ↔
      ∃ new, offer = .ok new ∧
        Infers words known .predict item new := by
  constructor
  · intro hOffer
    unfold predict at hOffer
    split at hOffer
    · cases hOffer
    · rename_i wanted hNext
      rcases List.mem_map.mp hOffer with ⟨r, hRule, rfl⟩
      rw [G.mem_rulesWithLhs_iff] at hRule
      subst hRule
      exact ⟨_, create_begun r item.stop, .predict hNext⟩
  · rintro ⟨new, rfl, hInfers⟩
    cases hInfers with
    | @predict _ r hNext =>
        unfold predict
        rw [hNext]
        refine List.mem_map.mpr ⟨r, ?_, create_begun r item.stop⟩
        exact G.mem_rulesWithLhs_iff.mpr rfl

theorem mem_scan_iff
    {known : List (Item G)}
    {item : Item G}
    (hItem : item.key.WellFormed) :
    offer ∈ item.scan words ↔
      ∃ new, offer = .ok new ∧
        Infers words known .scan item new := by
  constructor
  · intro hOffer
    rcases item with ⟨key, children⟩
    unfold scan at hOffer
    cases key with
    | single r dot span =>
        rcases span with ⟨i, j⟩
        simp only [ItemKey.next] at hOffer
        split at hOffer
        · rename_i wanted word hNext hWord
          split at hOffer
          · rename_i hScans
            rcases hScans with ⟨rfl, hTerminal⟩
            rw [ItemKey.wellFormed_single_iff] at hItem
            rw [List.mem_singleton] at hOffer
            subst hOffer
            exact ⟨_, create_moved hNext
                (Nat.le_succ_of_le hItem.1) _,
              .scan hNext hTerminal hWord⟩
          · cases hOffer
        · cases hOffer
    | double r left right span => cases hOffer
    | goal symbol span => cases hOffer
    | completed r span => cases hOffer
  · rintro ⟨new, rfl, hInfers⟩
    cases hInfers with
    | @scan r dot i j a children hNext hTerminal hWord =>
        rw [ItemKey.wellFormed_single_iff] at hItem
        have hCreate := create_moved hNext
          (Nat.le_succ_of_le hItem.1) children
        simp [scan, ItemKey.next, hNext, hWord, hTerminal,
          hCreate]

------------------------------------------------------------
-- Completion
------------------------------------------------------------

/- A dot that waits for a constituent moves over it. -/
theorem advance_single
    {r b : G.RuleId}
    {dot i j k : Nat}
    {before below : List (Item G)}
    (hWaiting :
      (ItemKey.single r dot ⟨i, j⟩ : ItemKey G).WellFormed)
    (hFound : j ≤ k)
    (hNext :
      (G.rule r).rhs[dot]? = some (G.rule b).lhs) :
    advance ⟨.single r dot ⟨i, j⟩, before⟩
        ⟨.single b (G.rule b).length ⟨j, k⟩, below⟩ =
      some (.ok ⟨.single r (dot + 1) ⟨i, k⟩,
        before ++
          [⟨.single b (G.rule b).length ⟨j, k⟩, below⟩]⟩) := by
  rw [ItemKey.wellFormed_single_iff] at hWaiting
  simp only [advance, ItemKey.next, Item.category,
    ItemKey.category, hNext, if_true, Option.some.injEq]
  exact create_moved hNext
    (Nat.le_trans hWaiting.1 hFound) _

theorem mem_complete_iff
    {C : Chart G}
    (hChart : ∀ x ∈ C.items.toList, x.key.WellFormed)
    {item : Item G}
    (hItem : item.key.WellFormed) :
    offer ∈ item.complete C ↔
      ∃ new, offer = .ok new ∧
        Infers words C.items.toList .complete item new := by
  constructor
  · intro hOffer
    rcases item with ⟨key, below⟩
    unfold complete at hOffer
    cases key with
    | single b last span =>
        rcases span with ⟨j, k⟩
        rw [ItemKey.wellFormed_single_iff] at hItem
        simp only at hOffer
        split at hOffer
        · rename_i hComplete
          rw [isComplete_single_iff] at hComplete
          subst hComplete
          rcases List.mem_filterMap.mp hOffer with
            ⟨waiting, hWaiting, hAdvance⟩
          rw [mem_endingAt_iff] at hWaiting
          rcases hWaiting with ⟨hKnown, hStop⟩
          rcases waiting with ⟨waitingKey, before⟩
          cases waitingKey with
          | single r dot span =>
              rcases span with ⟨i, stop⟩
              simp only [Item.stop, ItemKey.span] at hStop
              subst hStop
              by_cases hNext :
                  (G.rule r).rhs[dot]? = some (G.rule b).lhs
              · rw [advance_single (hChart _ hKnown) hItem.1
                  hNext, Option.some.injEq] at hAdvance
                exact ⟨_, hAdvance.symm,
                  .complete hKnown hNext⟩
              · simp [advance, ItemKey.next, Item.category,
                  ItemKey.category, hNext] at hAdvance
          | double r left right span => cases hAdvance
          | goal symbol span => cases hAdvance
          | completed r span => cases hAdvance
        · cases hOffer
    | double r left right span => cases hOffer
    | goal symbol span => cases hOffer
    | completed r span => cases hOffer
  · rintro ⟨new, rfl, hInfers⟩
    cases hInfers with
    | @complete r b dot i j k before below hWaiting hNext =>
        rw [ItemKey.wellFormed_single_iff] at hItem
        have hComplete :
            (ItemKey.single b (G.rule b).length ⟨j, k⟩ :
              ItemKey G).isComplete = true :=
          isComplete_single_iff.mpr rfl
        unfold complete
        simp only [hComplete, if_true]
        apply List.mem_filterMap.mpr
        exact ⟨_, mem_endingAt_iff.mpr ⟨hWaiting, rfl⟩,
          advance_single (hChart _ hWaiting) hItem.1 hNext⟩

------------------------------------------------------------
-- Left Corners
------------------------------------------------------------

/- Waiting above a rule is wanting a symbol it can start. -/
theorem waitsAbove_iff
    {item : Item G}
    {r : G.RuleId} :
    item.waitsAbove r = true ↔
      ∃ wanted, item.key.next = some wanted ∧
        G.isLeftCornerOf (G.rule r).lhs wanted = true := by
  unfold waitsAbove
  rw [Option.any_eq_true_iff_get]
  constructor
  · rintro ⟨hSome, hCorner⟩
    exact ⟨_, (Option.some_get hSome).symm, hCorner⟩
  · rintro ⟨wanted, hNext, hCorner⟩
    refine ⟨by rw [hNext]; rfl, ?_⟩
    simpa [hNext] using hCorner

/- A rule with a first daughter can have its dot moved. -/
theorem create_first
    {r : G.RuleId}
    {symbol : Symbol}
    (hLeftmost : (G.rule r).leftmost = some symbol)
    {i j : Nat}
    (hSpan : i ≤ j)
    (children : List (Item G)) :
    create (.single r 1 ⟨i, j⟩) children =
      .ok ⟨.single r 1 ⟨i, j⟩, children⟩ := by
  rw [Rule.leftmost, List.head?_eq_getElem?] at hLeftmost
  exact create_moved hLeftmost hSpan children

theorem mem_leftCornerPredict_iff
    {C : Chart G}
    {item : Item G}
    (hItem : item.key.WellFormed) :
    offer ∈ item.leftCornerPredict C ↔
      ∃ new, offer = .ok new ∧
        Infers words C.items.toList .leftCornerPredict item
          new := by
  constructor
  · intro hOffer
    rcases item with ⟨key, below⟩
    unfold leftCornerPredict at hOffer
    cases key with
    | single b last span =>
        rcases span with ⟨i, j⟩
        rw [ItemKey.wellFormed_single_iff] at hItem
        simp only at hOffer
        split at hOffer
        · rename_i hComplete
          rw [isComplete_single_iff] at hComplete
          subst hComplete
          rcases List.mem_flatMap.mp hOffer with
            ⟨r, hRule, hMap⟩
          rcases List.mem_map.mp hMap with
            ⟨waiting, hFilter, rfl⟩
          rcases List.mem_filter.mp hFilter with
            ⟨hEnding, hWaits⟩
          rcases mem_endingAt_iff.mp hEnding with
            ⟨hKnown, hStop⟩
          rcases waitsAbove_iff.mp hWaits with
            ⟨wanted, hNext, hCorner⟩
          have hLeftmost := G.mem_rulesWithLeftmost_iff.mp hRule
          exact ⟨_, create_first hLeftmost hItem.1 _,
            .leftCornerPredict hKnown hStop hNext hCorner
              hLeftmost⟩
        · cases hOffer
    | double r left right span => cases hOffer
    | goal symbol span => cases hOffer
    | completed r span => cases hOffer
  · rintro ⟨new, rfl, hInfers⟩
    cases hInfers with
    | @leftCornerPredict r b i j waiting wanted below hWaiting
        hStop hNext hCorner hLeftmost =>
        rw [ItemKey.wellFormed_single_iff] at hItem
        have hComplete :
            (ItemKey.single b (G.rule b).length ⟨i, j⟩ :
              ItemKey G).isComplete = true :=
          isComplete_single_iff.mpr rfl
        unfold leftCornerPredict
        simp only [hComplete, if_true]
        apply List.mem_flatMap.mpr
        refine
          ⟨r, G.mem_rulesWithLeftmost_iff.mpr hLeftmost, ?_⟩
        apply List.mem_map.mpr
        refine ⟨waiting, ?_, create_first hLeftmost hItem.1 _⟩
        apply List.mem_filter.mpr
        exact ⟨mem_endingAt_iff.mpr ⟨hWaiting, hStop⟩,
          waitsAbove_iff.mpr ⟨wanted, hNext, hCorner⟩⟩

theorem mem_leftCornerScan_iff
    {known : List (Item G)}
    {item : Item G} :
    offer ∈ item.leftCornerScan words ↔
      ∃ new, offer = .ok new ∧
        Infers words known .leftCornerScan item new := by
  constructor
  · intro hOffer
    unfold leftCornerScan at hOffer
    rcases List.mem_append.mp hOffer with hWord | hEmpty
    · unfold leftCornerScanWord at hWord
      split at hWord
      · cases hWord
      · rename_i a hRead
        split at hWord
        · cases hWord
        · rename_i hTerminal
          rcases List.mem_map.mp hWord with ⟨r, hRule, rfl⟩
          rcases List.mem_filter.mp hRule with
            ⟨hFirst, hWaits⟩
          rcases waitsAbove_iff.mp hWaits with
            ⟨wanted, hNext, hCorner⟩
          have hLeftmost :=
            G.mem_rulesWithLeftmost_iff.mp hFirst
          exact ⟨_, create_first hLeftmost (Nat.le_succ _) _,
            .leftCornerWord hNext hCorner hLeftmost
              (Bool.eq_false_iff.mpr hTerminal) hRead⟩
    · rcases List.mem_map.mp hEmpty with ⟨r, hRule, rfl⟩
      rcases List.mem_filter.mp hRule with ⟨hNone, hWaits⟩
      rcases waitsAbove_iff.mp hWaits with
        ⟨wanted, hNext, hCorner⟩
      exact ⟨_, create_begun r item.stop,
        .leftCornerEmpty hNext hCorner
          (G.mem_emptyRules_iff.mp hNone)⟩
  · rintro ⟨new, rfl, hInfers⟩
    unfold leftCornerScan
    apply List.mem_append.mpr
    cases hInfers with
    | @leftCornerWord _ r wanted a hNext hCorner hLeftmost
        hTerminal hWord =>
        left
        unfold leftCornerScanWord
        simp only [hWord, hTerminal, Bool.false_eq_true,
          if_false]
        apply List.mem_map.mpr
        refine
          ⟨r, ?_, create_first hLeftmost (Nat.le_succ _) _⟩
        apply List.mem_filter.mpr
        exact ⟨G.mem_rulesWithLeftmost_iff.mpr hLeftmost,
          waitsAbove_iff.mpr ⟨wanted, hNext, hCorner⟩⟩
    | @leftCornerEmpty _ r wanted hNext hCorner hEmpty =>
        right
        apply List.mem_map.mpr
        refine ⟨r, ?_, create_begun r item.stop⟩
        apply List.mem_filter.mpr
        exact ⟨G.mem_emptyRules_iff.mpr hEmpty,
          waitsAbove_iff.mpr ⟨wanted, hNext, hCorner⟩⟩

end Item

end Constituency
