import Constituency.Proofs.Inference.Sweeping

/-
  This file says what double-dotted items offer: the goals
  and constituents of the chart they look for, and each step
  in terms of these. On well-formed items no offer is an
  error.

  Main declarations:
    * `Item.mem_goalsEndingWith_iff`
    * `Item.mem_goalsStartingWith_iff`
    * `Item.mem_constituents_iff`
    * `Item.mem_preComplete_iff`
    * `Item.mem_predictLeft_iff`
    * `Item.mem_predictRight_iff`
    * `Item.mem_completeLeft_iff`
    * `Item.mem_completeRight_iff`
    * `Item.mem_scanLeft_iff`
    * `Item.mem_scanRight_iff`
-/

namespace Constituency

namespace Item

variable {G : Grammar}
variable {C : Chart G}
variable {words : List Symbol}
variable {offer : Except ItemError (Item G)}

------------------------------------------------------------
-- Partners in a Chart
------------------------------------------------------------

theorem mem_between_iff
    {first last k : Nat} :
    k ∈ between first last ↔ first ≤ k ∧ k ≤ last := by
  unfold between
  rw [List.mem_range'_1]
  omega

theorem mem_startingAt_iff
    {position : Nat}
    {item : Item G} :
    item ∈ C.startingAt position ↔
      item ∈ C.items.toList ∧ item.start = position := by
  rw [C.startingAt_eq, List.mem_filter, decide_eq_true_eq]

theorem goalSpan_eq_some_iff
    {lower : Symbol}
    {item : Item G}
    {span : Span} :
    goalSpan lower item = some span ↔
      ∃ upper, item.key = .goal upper span ∧
        G.isHeadCornerOf lower upper = true := by
  rcases item with ⟨key, children⟩
  cases key with
  | goal upper found =>
      simp only [goalSpan, Option.ite_none_right_eq_some,
        Option.some.injEq, ItemKey.goal.injEq]
      constructor
      · rintro ⟨hCorner, rfl⟩
        exact ⟨upper, ⟨rfl, rfl⟩, hCorner⟩
      · rintro ⟨_, ⟨rfl, rfl⟩, hCorner⟩
        exact ⟨hCorner, rfl⟩
  | single r dot found => simp [goalSpan]
  | double r left right found => simp [goalSpan]
  | completed r found => simp [goalSpan]

/- Goals that stop where an item stops demand it. -/
theorem mem_goalsEndingWith_iff
    {r : G.RuleId}
    {left right : Nat}
    {span goal : Span}
    {children : List (Item G)} :
    goal ∈ goalsEndingWith C
        ⟨.double r left right span, children⟩ ↔
      Demanded C.items.toList r goal ∧
        goal.stop = span.stop := by
  unfold goalsEndingWith Demanded
  rw [List.mem_filterMap]
  constructor
  · rintro ⟨item, hEnding, hGoal⟩
    rcases mem_endingAt_iff.mp hEnding with ⟨hKnown, hStop⟩
    rcases goalSpan_eq_some_iff.mp hGoal with
      ⟨upper, hKey, hCorner⟩
    refine ⟨⟨upper, ?_, hCorner⟩, ?_⟩
    · exact List.mem_map.mpr ⟨item, hKnown, hKey⟩
    · rwa [Item.stop, hKey] at hStop
  · rintro ⟨⟨upper, hKnown, hCorner⟩, hStop⟩
    rcases List.mem_map.mp hKnown with ⟨item, hItem, hKey⟩
    refine ⟨item, mem_endingAt_iff.mpr ⟨hItem, ?_⟩,
      goalSpan_eq_some_iff.mpr ⟨upper, hKey, hCorner⟩⟩
    rw [Item.stop, hKey]
    exact hStop

/- Goals that start where an item starts demand it. -/
theorem mem_goalsStartingWith_iff
    {r : G.RuleId}
    {left right : Nat}
    {span goal : Span}
    {children : List (Item G)} :
    goal ∈ goalsStartingWith C
        ⟨.double r left right span, children⟩ ↔
      Demanded C.items.toList r goal ∧
        goal.start = span.start := by
  unfold goalsStartingWith Demanded
  rw [List.mem_filterMap]
  constructor
  · rintro ⟨item, hStarting, hGoal⟩
    rcases mem_startingAt_iff.mp hStarting with
      ⟨hKnown, hStart⟩
    rcases goalSpan_eq_some_iff.mp hGoal with
      ⟨upper, hKey, hCorner⟩
    refine ⟨⟨upper, ?_, hCorner⟩, ?_⟩
    · exact List.mem_map.mpr ⟨item, hKnown, hKey⟩
    · rwa [Item.start, hKey] at hStart
  · rintro ⟨⟨upper, hKnown, hCorner⟩, hStart⟩
    rcases List.mem_map.mp hKnown with ⟨item, hItem, hKey⟩
    refine ⟨item, mem_startingAt_iff.mpr ⟨hItem, ?_⟩,
      goalSpan_eq_some_iff.mpr ⟨upper, hKey, hCorner⟩⟩
    rw [Item.start, hKey]
    exact hStart

/- Some goal that stops where an item stops. -/
theorem any_goalsEndingWith_iff
    {r : G.RuleId}
    {left right j k : Nat}
    {children : List (Item G)}
    {test : Span → Bool} :
    (goalsEndingWith C
        ⟨.double r left right ⟨j, k⟩, children⟩).any test =
          true ↔
      ∃ h, Demanded C.items.toList r ⟨h, k⟩ ∧
        test ⟨h, k⟩ = true := by
  rw [List.any_eq_true]
  constructor
  · rintro ⟨⟨h, _⟩, hGoal, hTest⟩
    rcases mem_goalsEndingWith_iff.mp hGoal with
      ⟨hDemanded, rfl⟩
    exact ⟨h, hDemanded, hTest⟩
  · rintro ⟨h, hDemanded, hTest⟩
    exact ⟨⟨h, k⟩,
      mem_goalsEndingWith_iff.mpr ⟨hDemanded, rfl⟩, hTest⟩

/- Some goal that starts where an item starts. -/
theorem any_goalsStartingWith_iff
    {r : G.RuleId}
    {left right i j : Nat}
    {children : List (Item G)}
    {test : Span → Bool} :
    (goalsStartingWith C
        ⟨.double r left right ⟨i, j⟩, children⟩).any test =
          true ↔
      ∃ m, Demanded C.items.toList r ⟨i, m⟩ ∧
        test ⟨i, m⟩ = true := by
  rw [List.any_eq_true]
  constructor
  · rintro ⟨⟨_, m⟩, hGoal, hTest⟩
    rcases mem_goalsStartingWith_iff.mp hGoal with
      ⟨hDemanded, rfl⟩
    exact ⟨m, hDemanded, hTest⟩
  · rintro ⟨m, hDemanded, hTest⟩
    exact ⟨⟨i, m⟩,
      mem_goalsStartingWith_iff.mpr ⟨hDemanded, rfl⟩, hTest⟩

/- The completed items for a symbol over a span. -/
theorem mem_constituents_iff
    {symbol : Symbol}
    {span : Span}
    {found : Item G} :
    found ∈ constituents C symbol span ↔
      ∃ b below, found = ⟨.completed b span, below⟩ ∧
        (G.rule b).lhs = symbol ∧
          found ∈ C.items.toList := by
  unfold constituents
  rw [C.spanning_eq, List.mem_filter, List.mem_filter]
  rcases found with ⟨key, below⟩
  cases key with
  | completed b other =>
      constructor
      · rintro ⟨⟨hKnown, hSpan⟩, hLhs⟩
        have hSame : other = span := of_decide_eq_true hSpan
        subst hSame
        exact ⟨b, below, rfl, of_decide_eq_true hLhs, hKnown⟩
      · rintro ⟨_, _, hSame, hLhs, hKnown⟩
        cases hSame
        exact ⟨⟨hKnown, decide_eq_true rfl⟩,
          decide_eq_true hLhs⟩
  | single r dot other => simp
  | double r left right other => simp
  | goal upper other => simp

------------------------------------------------------------
-- Completion and Demand
------------------------------------------------------------

variable {r : G.RuleId}
variable {left right : Nat}
variable {children : List (Item G)}

/- The daughter before the left dot, if there is one. -/
theorem leftSister_eq_some_iff
    {span : Span}
    {wanted : Symbol} :
    (ItemKey.double r left right span :
        ItemKey G).leftSister = some wanted ↔
      ∃ before, left = before + 1 ∧
        (G.rule r).rhs[before]? = some wanted := by
  cases left with
  | zero => simp [ItemKey.leftSister]
  | succ before => simp [ItemKey.leftSister]

theorem mem_preComplete_iff
    {i j : Nat}
    (hSpan : i ≤ j) :
    offer ∈ preComplete
        ⟨.double r left right ⟨i, j⟩, children⟩ ↔
      left = 0 ∧ right = (G.rule r).length ∧
        offer = .ok ⟨.completed r ⟨i, j⟩, children⟩ := by
  have hCreate :
      create (.completed r ⟨i, j⟩) children =
        .ok ⟨.completed r ⟨i, j⟩, children⟩ := by
    apply create_of_wellFormed
    exact ItemKey.wellFormed_completed_iff.mpr hSpan
  unfold preComplete
  simp only [hCreate, ItemKey.isComplete, Bool.and_eq_true,
    beq_iff_eq]
  split
  · rename_i hComplete
    simp [hComplete]
  · rename_i hComplete
    simp only [List.not_mem_nil, false_iff]
    rintro ⟨hLeft, hRight, _⟩
    exact hComplete ⟨hLeft, hRight⟩

/- The goals for a symbol between two positions. -/
theorem mem_demands_iff
    {wanted : Symbol}
    {first last : Nat} :
    offer ∈ (between first last).flatMap (fun i =>
        (between i last).map (fun j =>
          create (.goal wanted ⟨i, j⟩ : ItemKey G) [])) ↔
      ∃ i j, first ≤ i ∧ i ≤ j ∧ j ≤ last ∧
        offer = .ok ⟨.goal wanted ⟨i, j⟩, []⟩ := by
  have hCreate :
      ∀ {i j : Nat}, i ≤ j →
        create (.goal wanted ⟨i, j⟩ : ItemKey G) [] =
          .ok ⟨.goal wanted ⟨i, j⟩, []⟩ :=
    fun hSpan => create_of_wellFormed
      (ItemKey.wellFormed_goal_iff.mpr hSpan) []
  simp only [List.mem_flatMap, List.mem_map, mem_between_iff]
  constructor
  · rintro ⟨i, hFirst, j, hLast, rfl⟩
    exact ⟨i, j, hFirst.1, hLast.1, hLast.2,
      hCreate hLast.1⟩
  · rintro ⟨i, j, hStart, hSpan, hStop, rfl⟩
    exact ⟨i, ⟨hStart, Nat.le_trans hSpan hStop⟩, j,
      ⟨hSpan, hStop⟩, hCreate hSpan⟩

theorem mem_predictLeft_iff
    {j k : Nat} :
    offer ∈ predictLeft C
        ⟨.double r left right ⟨j, k⟩, children⟩ ↔
      ∃ before wanted h i i', left = before + 1 ∧
        (G.rule r).rhs[before]? = some wanted ∧
          Demanded C.items.toList r ⟨h, k⟩ ∧
            h ≤ i ∧ i ≤ i' ∧ i' ≤ j ∧
              offer = .ok ⟨.goal wanted ⟨i, i'⟩, []⟩ := by
  unfold predictLeft
  constructor
  · intro hOffer
    split at hOffer
    · cases hOffer
    · rename_i wanted hSister
      rcases leftSister_eq_some_iff.mp hSister with
        ⟨before, hLeft, hWanted⟩
      rcases List.mem_flatMap.mp hOffer with
        ⟨⟨h, _⟩, hGoal, hInner⟩
      rcases mem_goalsEndingWith_iff.mp hGoal with
        ⟨hDemanded, rfl⟩
      rcases mem_demands_iff.mp hInner with ⟨i, i', hNew⟩
      exact ⟨before, wanted, h, i, i', hLeft, hWanted,
        hDemanded, hNew⟩
  · rintro ⟨before, wanted, h, i, i', rfl, hWanted, hDemanded,
      hNew⟩
    simp only [ItemKey.leftSister, hWanted]
    apply List.mem_flatMap.mpr
    exact ⟨⟨h, k⟩,
      mem_goalsEndingWith_iff.mpr ⟨hDemanded, rfl⟩,
      mem_demands_iff.mpr ⟨i, i', hNew⟩⟩

theorem mem_predictRight_iff
    {i j : Nat} :
    offer ∈ predictRight C
        ⟨.double r left right ⟨i, j⟩, children⟩ ↔
      ∃ wanted m k k',
        (G.rule r).rhs[right]? = some wanted ∧
          Demanded C.items.toList r ⟨i, m⟩ ∧
            j ≤ k ∧ k ≤ k' ∧ k' ≤ m ∧
              offer = .ok ⟨.goal wanted ⟨k, k'⟩, []⟩ := by
  unfold predictRight
  constructor
  · intro hOffer
    split at hOffer
    · cases hOffer
    · rename_i wanted hSister
      rcases List.mem_flatMap.mp hOffer with
        ⟨⟨_, m⟩, hGoal, hInner⟩
      rcases mem_goalsStartingWith_iff.mp hGoal with
        ⟨hDemanded, rfl⟩
      rcases mem_demands_iff.mp hInner with ⟨k, k', hNew⟩
      exact ⟨wanted, m, k, k', hSister, hDemanded, hNew⟩
  · rintro ⟨wanted, m, k, k', hWanted, hDemanded, hNew⟩
    simp only [ItemKey.rightSister, hWanted]
    apply List.mem_flatMap.mpr
    exact ⟨⟨i, m⟩,
      mem_goalsStartingWith_iff.mpr ⟨hDemanded, rfl⟩,
      mem_demands_iff.mpr ⟨k, k', hNew⟩⟩

------------------------------------------------------------
-- Growth
------------------------------------------------------------

theorem mem_completeLeft_iff
    {j k : Nat} :
    offer ∈ completeLeft C
        ⟨.double r left right ⟨j, k⟩, children⟩ ↔
      ∃ before b below i, left = before + 1 ∧
        (G.rule r).rhs[before]? = some (G.rule b).lhs ∧
          Demanded C.items.toList r ⟨i, k⟩ ∧
            ⟨.completed b ⟨i, j⟩, below⟩ ∈ C.items.toList ∧
              offer = .ok ⟨.double r before right ⟨i, k⟩,
                ⟨.completed b ⟨i, j⟩, below⟩ ::
                  children⟩ := by
  unfold completeLeft
  constructor
  · intro hOffer
    split at hOffer
    · rename_i hSister
      rename_i wanted hKey
      cases hKey
      rcases leftSister_eq_some_iff.mp hSister with
        ⟨before, rfl, hWanted⟩
      rcases List.mem_flatMap.mp hOffer with
        ⟨⟨i, _⟩, hGoal, hInner⟩
      rcases mem_goalsEndingWith_iff.mp hGoal with
        ⟨hDemanded, rfl⟩
      rcases List.mem_map.mp hInner with
        ⟨found, hFound, rfl⟩
      rcases mem_constituents_iff.mp hFound with
        ⟨b, below, rfl, rfl, hKnown⟩
      exact ⟨before, b, below, i, rfl, hWanted, hDemanded,
        hKnown, rfl⟩
    · cases hOffer
  · rintro ⟨before, b, below, i, rfl, hWanted, hDemanded,
      hKnown, rfl⟩
    simp only [ItemKey.leftSister, hWanted]
    apply List.mem_flatMap.mpr
    refine ⟨⟨i, k⟩,
      mem_goalsEndingWith_iff.mpr ⟨hDemanded, rfl⟩, ?_⟩
    apply List.mem_map.mpr
    exact ⟨⟨.completed b ⟨i, j⟩, below⟩,
      mem_constituents_iff.mpr ⟨b, below, rfl, rfl, hKnown⟩,
      rfl⟩

theorem mem_completeRight_iff
    {i j : Nat} :
    offer ∈ completeRight C
        ⟨.double r left right ⟨i, j⟩, children⟩ ↔
      ∃ b below m,
        (G.rule r).rhs[right]? = some (G.rule b).lhs ∧
          Demanded C.items.toList r ⟨i, m⟩ ∧
            ⟨.completed b ⟨j, m⟩, below⟩ ∈ C.items.toList ∧
              offer = .ok ⟨.double r left (right + 1) ⟨i, m⟩,
                children ++
                  [⟨.completed b ⟨j, m⟩, below⟩]⟩ := by
  unfold completeRight
  constructor
  · intro hOffer
    split at hOffer
    · rename_i hSister
      rename_i wanted hKey
      cases hKey
      have hDot := (List.getElem?_eq_some_iff.mp hSister).1
      rcases List.mem_flatMap.mp hOffer with
        ⟨⟨_, m⟩, hGoal, hInner⟩
      rcases mem_goalsStartingWith_iff.mp hGoal with
        ⟨hDemanded, rfl⟩
      rcases List.mem_map.mp hInner with
        ⟨found, hFound, rfl⟩
      rcases mem_constituents_iff.mp hFound with
        ⟨b, below, rfl, rfl, hKnown⟩
      exact ⟨b, below, m, hSister, hDemanded, hKnown,
        growRight_of_lt hDot _ _ _ _⟩
    · cases hOffer
  · rintro ⟨b, below, m, hWanted, hDemanded, hKnown, rfl⟩
    have hDot := (List.getElem?_eq_some_iff.mp hWanted).1
    simp only [ItemKey.rightSister, hWanted]
    apply List.mem_flatMap.mpr
    refine ⟨⟨i, m⟩,
      mem_goalsStartingWith_iff.mpr ⟨hDemanded, rfl⟩, ?_⟩
    apply List.mem_map.mpr
    exact ⟨⟨.completed b ⟨j, m⟩, below⟩,
      mem_constituents_iff.mpr ⟨b, below, rfl, rfl, hKnown⟩,
      growRight_of_lt hDot _ _ _ _⟩

/- The left dot moves over a word for some goal. -/
theorem mem_scanLeft_iff
    {j k : Nat}
    (hItem :
      (ItemKey.double r left right ⟨j, k⟩ :
        ItemKey G).WellFormed) :
    offer ∈ scanLeft C words
        ⟨.double r left right ⟨j, k⟩, children⟩ ↔
      ∃ before a h i, left = before + 1 ∧ j = i + 1 ∧
        (G.rule r).rhs[before]? = some a ∧
          Demanded C.items.toList r ⟨h, k⟩ ∧
            G.isNonterminal a = false ∧
              words[i]? = some a ∧ h ≤ i ∧
                offer = .ok
                  ⟨.double r before right ⟨i, k⟩,
                    children⟩ := by
  rw [ItemKey.wellFormed_double_iff] at hItem
  have hCreate :
      ∀ {before i : Nat}, left = before + 1 → j = i + 1 →
        create (.double r before right ⟨i, k⟩) children =
          .ok ⟨.double r before right ⟨i, k⟩, children⟩ := by
    intro before i hLeft hStart
    apply create_of_wellFormed
    rw [ItemKey.wellFormed_double_iff]
    omega
  unfold scanLeft
  constructor
  · intro hOffer
    split at hOffer
    · rename_i hSister
      rename_i i stop wanted hKey
      cases hKey
      rcases leftSister_eq_some_iff.mp hSister with
        ⟨before, rfl, hWanted⟩
      split at hOffer
      · rename_i hScans
        rcases hScans with ⟨hTerminal, hWord, hGoals⟩
        rcases any_goalsEndingWith_iff.mp hGoals with
          ⟨h, hDemanded, hStart⟩
        rw [List.mem_singleton] at hOffer
        subst hOffer
        exact ⟨before, wanted, h, i, rfl, rfl, hWanted,
          hDemanded, hTerminal, hWord,
          of_decide_eq_true hStart, hCreate rfl rfl⟩
      · cases hOffer
    · cases hOffer
  · rintro ⟨before, a, h, i, rfl, rfl, hWanted, hDemanded,
      hTerminal, hWord, hStart, rfl⟩
    have hGoals :
        (goalsEndingWith C
            ⟨.double r (before + 1) right ⟨i + 1, k⟩,
              children⟩).any
          (fun goal => goal.start ≤ i) = true :=
      any_goalsEndingWith_iff.mpr
        ⟨h, hDemanded, decide_eq_true hStart⟩
    simp only [ItemKey.leftSister, hWanted]
    rw [if_pos ⟨hTerminal, hWord, hGoals⟩,
      List.mem_singleton]
    exact (hCreate rfl rfl).symm

/- The right dot moves over a word for some goal. -/
theorem mem_scanRight_iff
    {i j : Nat}
    (hItem :
      (ItemKey.double r left right ⟨i, j⟩ :
        ItemKey G).WellFormed) :
    offer ∈ scanRight C words
        ⟨.double r left right ⟨i, j⟩, children⟩ ↔
      ∃ a m, (G.rule r).rhs[right]? = some a ∧
        Demanded C.items.toList r ⟨i, m⟩ ∧
          G.isNonterminal a = false ∧
            words[j]? = some a ∧ j < m ∧
              offer = .ok
                ⟨.double r left (right + 1) ⟨i, j + 1⟩,
                  children⟩ := by
  rw [ItemKey.wellFormed_double_iff] at hItem
  have hCreate :
      right < (G.rule r).length →
        create (.double r left (right + 1) ⟨i, j + 1⟩)
            children =
          .ok ⟨.double r left (right + 1) ⟨i, j + 1⟩,
            children⟩ := by
    intro hDot
    apply create_of_wellFormed
    rw [ItemKey.wellFormed_double_iff]
    omega
  unfold scanRight
  constructor
  · intro hOffer
    split at hOffer
    · rename_i hSister
      rename_i wanted hKey
      cases hKey
      have hDot := (List.getElem?_eq_some_iff.mp hSister).1
      split at hOffer
      · rename_i hScans
        rcases hScans with ⟨hTerminal, hWord, hGoals⟩
        rcases any_goalsStartingWith_iff.mp hGoals with
          ⟨m, hDemanded, hStop⟩
        rw [List.mem_singleton] at hOffer
        subst hOffer
        exact ⟨wanted, m, hSister, hDemanded, hTerminal,
          hWord, of_decide_eq_true hStop, hCreate hDot⟩
      · cases hOffer
    · cases hOffer
  · rintro ⟨a, m, hWanted, hDemanded, hTerminal, hWord, hStop,
      rfl⟩
    have hDot := (List.getElem?_eq_some_iff.mp hWanted).1
    have hGoals :
        (goalsStartingWith C
            ⟨.double r left right ⟨i, j⟩, children⟩).any
          (fun goal => j < goal.stop) = true :=
      any_goalsStartingWith_iff.mpr
        ⟨m, hDemanded, decide_eq_true hStop⟩
    simp only [ItemKey.rightSister, hWanted]
    rw [if_pos ⟨hTerminal, hWord, hGoals⟩,
      List.mem_singleton]
    exact (hCreate hDot).symm

end Item

end Constituency
