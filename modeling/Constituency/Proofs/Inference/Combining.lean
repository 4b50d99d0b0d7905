import Constituency.Proofs.Chart.Delivery
import Constituency.Proofs.Inference.Growing

/-
  This file says what goals and completed items offer, and
  shows that every step offers exactly what the calculus
  infers. On well-formed items no offer is an error.

  Main declarations:
    * `Item.mem_narrow_iff`
    * `Item.mem_scanHeads_iff`
    * `Item.mem_scanEmpty_iff`
    * `Item.mem_projectInside_iff`
    * `Item.mem_projectUp_iff`
    * `Item.mem_combine_iff`
    * `Step.mem_offers_iff`
    * `Step.infers_of_delivery`
    * `Step.key_mem_of_delivery`
-/

namespace Constituency

variable {G : Grammar}
variable {C : Chart G}
variable {words : List Symbol}
variable {offer : Except ItemError (Item G)}

namespace Item

/- The rules that a head can be projected to for a goal. -/
theorem mem_rulesUpTo_iff
    {head upper : Symbol}
    {r : G.RuleId} :
    r ∈ rulesUpTo G head upper ↔
      (∃ position, (G.rule r).head = some position ∧
        (G.rule r).rhs[position]? = some head) ∧
        G.isHeadCornerOf (G.rule r).lhs upper = true := by
  unfold rulesUpTo
  rw [List.mem_filter, G.mem_rulesWithHead_iff,
    G.headSymbol_eq_some_iff]

------------------------------------------------------------
-- Goals
------------------------------------------------------------

variable {symbol : Symbol}
variable {h m : Nat}
variable {children : List (Item G)}

theorem mem_narrow_iff :
    offer ∈ narrow ⟨.goal symbol ⟨h, m⟩, children⟩ ↔
      ∃ k, h ≤ k ∧ k ≤ m ∧
        (offer = .ok ⟨.goal symbol ⟨h, k⟩, []⟩ ∨
          offer = .ok ⟨.goal symbol ⟨k, m⟩, []⟩) := by
  have hCreate :
      ∀ {i j : Nat}, i ≤ j →
        create (.goal symbol ⟨i, j⟩ : ItemKey G) [] =
          .ok ⟨.goal symbol ⟨i, j⟩, []⟩ :=
    fun hSpan => create_of_wellFormed
      (ItemKey.wellFormed_goal_iff.mpr hSpan) []
  simp only [narrow, List.mem_flatMap, mem_between_iff,
    List.mem_cons, List.not_mem_nil, or_false]
  constructor
  · rintro ⟨k, ⟨hStart, hStop⟩, hOffer⟩
    rw [hCreate hStart, hCreate hStop] at hOffer
    exact ⟨k, hStart, hStop, hOffer⟩
  · rintro ⟨k, hStart, hStop, hOffer⟩
    refine ⟨k, ⟨hStart, hStop⟩, ?_⟩
    rw [hCreate hStart, hCreate hStop]
    exact hOffer

theorem mem_scanHeads_iff :
    offer ∈ scanHeads words
        ⟨.goal symbol ⟨h, m⟩, children⟩ ↔
      ∃ r head a k,
        G.isHeadCornerOf (G.rule r).lhs symbol = true ∧
          (G.rule r).head = some head ∧
            (G.rule r).rhs[head]? = some a ∧
              G.isNonterminal a = false ∧
                words[k]? = some a ∧ h ≤ k ∧ k < m ∧
                  offer = .ok ⟨.double r head (head + 1)
                    ⟨k, k + 1⟩, []⟩ := by
  have hCreate :
      ∀ {r : G.RuleId} {head k : Nat},
        (G.rule r).head = some head →
          create (.double r head (head + 1) ⟨k, k + 1⟩) [] =
            .ok ⟨.double r head (head + 1) ⟨k, k + 1⟩,
              []⟩ := by
    intro r head k hHead
    have hDot := G.head_lt_length hHead
    apply create_of_wellFormed
    rw [ItemKey.wellFormed_double_iff]
    omega
  simp only [scanHeads, List.mem_flatMap,
    List.mem_range'_1]
  constructor
  · rintro ⟨k, ⟨hStart, hStop⟩, hOffer⟩
    split at hOffer
    · cases hOffer
    · rename_i a hWord
      split at hOffer
      · cases hOffer
      · rename_i hTerminal
        rcases List.mem_filterMap.mp hOffer with
          ⟨r, hRule, hMap⟩
        rcases Option.map_eq_some_iff.mp hMap with
          ⟨head, hHead, rfl⟩
        rcases mem_rulesUpTo_iff.mp hRule with
          ⟨⟨position, hPosition, hDaughter⟩, hCorner⟩
        rw [hHead, Option.some.injEq] at hPosition
        subst hPosition
        exact ⟨r, head, a, k, hCorner, hHead, hDaughter,
          Bool.eq_false_iff.mpr hTerminal, hWord, hStart,
          by omega, hCreate hHead⟩
  · rintro ⟨r, head, a, k, hCorner, hHead, hDaughter,
      hTerminal, hWord, hStart, hStop, rfl⟩
    refine ⟨k, ⟨hStart, by omega⟩, ?_⟩
    simp only [hWord, hTerminal, Bool.false_eq_true,
      if_false]
    apply List.mem_filterMap.mpr
    refine ⟨r, mem_rulesUpTo_iff.mpr
      ⟨⟨head, hHead, hDaughter⟩, hCorner⟩, ?_⟩
    rw [hHead, Option.map_some, hCreate hHead]

theorem mem_scanEmpty_iff :
    offer ∈ scanEmpty ⟨.goal symbol ⟨h, m⟩, children⟩ ↔
      ∃ r k,
        G.isHeadCornerOf (G.rule r).lhs symbol = true ∧
          (G.rule r).rhs = [] ∧ h ≤ k ∧ k ≤ m ∧
            offer = .ok ⟨.double r 0 0 ⟨k, k⟩, []⟩ := by
  have hCreate :
      ∀ (r : G.RuleId) (k : Nat),
        create (.double r 0 0 (.point k)) [] =
          .ok ⟨.double r 0 0 ⟨k, k⟩, []⟩ :=
    fun r k => create_of_wellFormed (by simp [Span.point]) []
  simp only [scanEmpty, List.mem_flatMap, List.mem_filter,
    G.mem_emptyRules_iff, List.mem_map, mem_between_iff]
  constructor
  · rintro ⟨r, ⟨hEmpty, hCorner⟩, k, ⟨hStart, hStop⟩, rfl⟩
    exact ⟨r, k, hCorner, hEmpty, hStart, hStop,
      hCreate r k⟩
  · rintro ⟨r, k, hCorner, hEmpty, hStart, hStop, rfl⟩
    exact ⟨r, ⟨hEmpty, hCorner⟩, k, ⟨hStart, hStop⟩,
      hCreate r k⟩

------------------------------------------------------------
-- Projection
------------------------------------------------------------

variable {b : G.RuleId}
variable {i j : Nat}
variable {below : List (Item G)}

/- A constituent is projected to the rules it heads. -/
theorem mem_project_iff :
    offer ∈ project symbol
        ⟨.completed b ⟨i, j⟩, below⟩ ↔
      ∃ r head,
        G.isHeadCornerOf (G.rule r).lhs symbol = true ∧
          (G.rule r).head = some head ∧
            (G.rule r).rhs[head]? = some (G.rule b).lhs ∧
              offer = .ok
                ⟨.double r head (head + 1) ⟨i, j⟩,
                  [⟨.completed b ⟨i, j⟩, below⟩]⟩ := by
  have hGrow :
      ∀ {r : G.RuleId} {head : Nat},
        (G.rule r).head = some head →
          growRight r head head (.point i) []
              ⟨.completed b ⟨i, j⟩, below⟩ =
            .ok ⟨.double r head (head + 1) ⟨i, j⟩,
              [⟨.completed b ⟨i, j⟩, below⟩]⟩ :=
    fun hHead =>
      growRight_of_lt (G.head_lt_length hHead) _ _ _ _
  unfold project
  constructor
  · intro hOffer
    rcases List.mem_filterMap.mp hOffer with
      ⟨r, hRule, hMap⟩
    rcases Option.map_eq_some_iff.mp hMap with
      ⟨head, hHead, rfl⟩
    rcases mem_rulesUpTo_iff.mp hRule with
      ⟨⟨position, hPosition, hDaughter⟩, hCorner⟩
    rw [hHead, Option.some.injEq] at hPosition
    subst hPosition
    exact ⟨r, head, hCorner, hHead, hDaughter, hGrow hHead⟩
  · rintro ⟨r, head, hCorner, hHead, hDaughter, rfl⟩
    apply List.mem_filterMap.mpr
    refine ⟨r, mem_rulesUpTo_iff.mpr
      ⟨⟨head, hHead, hDaughter⟩, hCorner⟩, ?_⟩
    rw [hHead, Option.map_some]
    exact congrArg some (hGrow hHead)

/- A span lies around another when it does at both ends. -/
theorem covers_iff
    {outer inner : Span} :
    outer.covers inner = true ↔
      outer.start ≤ inner.start ∧
        inner.stop ≤ outer.stop := by
  simp [Span.covers]

/- The completed items inside a span. -/
theorem isConstituentIn_iff
    {outer : Span}
    {found : Item G} :
    found.isConstituentIn outer = true ↔
      ∃ b i j below,
        found = ⟨.completed b ⟨i, j⟩, below⟩ ∧
          outer.start ≤ i ∧ j ≤ outer.stop := by
  rcases found with ⟨key, below⟩
  cases key with
  | completed b span =>
      rcases span with ⟨i, j⟩
      simp only [isConstituentIn, covers_iff]
      constructor
      · rintro ⟨hStart, hStop⟩
        exact ⟨b, i, j, below, rfl, hStart, hStop⟩
      · rintro ⟨_, _, _, _, hSame, hStart, hStop⟩
        cases hSame
        exact ⟨hStart, hStop⟩
  | single r dot span => simp [isConstituentIn]
  | double r left right span => simp [isConstituentIn]
  | goal upper span => simp [isConstituentIn]

theorem mem_projectInside_iff
    (hChart : ∀ x ∈ C.items.toList, x.key.WellFormed) :
    offer ∈ projectInside C
        ⟨.goal symbol ⟨h, m⟩, children⟩ ↔
      ∃ b i j below,
        ⟨.completed b ⟨i, j⟩, below⟩ ∈ C.items.toList ∧
          h ≤ i ∧ j ≤ m ∧
            offer ∈ project symbol
              ⟨.completed b ⟨i, j⟩, below⟩ := by
  simp only [projectInside, List.mem_flatMap,
    List.mem_filter, mem_between_iff, mem_startingAt_iff,
    isConstituentIn_iff]
  constructor
  · rintro ⟨_, _, _, ⟨⟨hKnown, _⟩, b, i, j, below, rfl,
      hStart, hStop⟩, hOffer⟩
    exact ⟨b, i, j, below, hKnown, hStart, hStop, hOffer⟩
  · rintro ⟨b, i, j, below, hKnown, hStart, hStop, hOffer⟩
    have hSpan : i ≤ j :=
      ItemKey.wellFormed_completed_iff.mp (hChart _ hKnown)
    exact ⟨i, ⟨hStart, Nat.le_trans hSpan hStop⟩,
      ⟨.completed b ⟨i, j⟩, below⟩,
      ⟨⟨hKnown, rfl⟩, b, i, j, below, rfl, hStart, hStop⟩,
      hOffer⟩

/- The symbols of the goals around a span. -/
theorem goalAround_eq_some_iff
    {inner : Span}
    {goal : Item G} :
    goal.goalAround inner = some symbol ↔
      ∃ h m, goal.key = .goal symbol ⟨h, m⟩ ∧
        h ≤ inner.start ∧ inner.stop ≤ m := by
  rcases goal with ⟨key, below⟩
  cases key with
  | goal upper span =>
      rcases span with ⟨h, m⟩
      simp only [goalAround, Option.ite_none_right_eq_some,
        covers_iff, Option.some.injEq, ItemKey.goal.injEq,
        Span.mk.injEq]
      constructor
      · rintro ⟨⟨hStart, hStop⟩, rfl⟩
        exact ⟨h, m, ⟨rfl, rfl, rfl⟩, hStart, hStop⟩
      · rintro ⟨_, _, ⟨rfl, rfl, rfl⟩, hStart, hStop⟩
        exact ⟨⟨hStart, hStop⟩, rfl⟩
  | single r dot span => simp [goalAround]
  | double r left right span => simp [goalAround]
  | completed r span => simp [goalAround]

theorem mem_projectUp_iff :
    offer ∈ projectUp C ⟨.completed b ⟨i, j⟩, below⟩ ↔
      ∃ symbol h m,
        ItemKey.goal symbol ⟨h, m⟩ ∈
            C.items.toList.map Item.key ∧
          h ≤ i ∧ j ≤ m ∧
            offer ∈ project symbol
              ⟨.completed b ⟨i, j⟩, below⟩ := by
  simp only [projectUp, List.mem_flatMap,
    List.mem_filterMap, mem_between_iff, mem_startingAt_iff,
    goalAround_eq_some_iff]
  constructor
  · rintro ⟨_, _, symbol,
      ⟨goal, ⟨hKnown, _⟩, h, m, hKey, hStart, hStop⟩, hOffer⟩
    exact ⟨symbol, h, m,
      List.mem_map.mpr ⟨goal, hKnown, hKey⟩, hStart, hStop,
      hOffer⟩
  · rintro ⟨symbol, h, m, hGoal, hStart, hStop, hOffer⟩
    rcases List.mem_map.mp hGoal with ⟨goal, hKnown, hKey⟩
    refine ⟨h, ⟨Nat.zero_le _, hStart⟩, symbol,
      ⟨goal, ⟨hKnown, ?_⟩, h, m, hKey, hStart, hStop⟩,
      hOffer⟩
    rw [Item.start, hKey]
    rfl

------------------------------------------------------------
-- All Steps Together
------------------------------------------------------------

/- The ways in which a double-dotted item sets off others. -/
theorem mem_combine_double_iff
    {r : G.RuleId}
    {left right : Nat}
    {span : Span} :
    offer ∈ combine C words
        ⟨.double r left right span, children⟩ ↔
      offer ∈ preComplete
          ⟨.double r left right span, children⟩ ∨
        offer ∈ predictLeft C
          ⟨.double r left right span, children⟩ ∨
        offer ∈ predictRight C
          ⟨.double r left right span, children⟩ ∨
        offer ∈ completeLeft C
          ⟨.double r left right span, children⟩ ∨
        offer ∈ completeRight C
          ⟨.double r left right span, children⟩ ∨
        offer ∈ scanLeft C words
          ⟨.double r left right span, children⟩ ∨
        offer ∈ scanRight C words
          ⟨.double r left right span, children⟩ := by
  simp only [combine, growInChart, growOverWords,
    List.mem_append, or_assoc]

/- The ways in which a goal sets off other items. -/
theorem mem_combine_goal_iff
    {span : Span} :
    offer ∈ combine C words
        ⟨.goal symbol span, children⟩ ↔
      offer ∈ scanHeads words
          ⟨.goal symbol span, children⟩ ∨
        offer ∈ scanEmpty ⟨.goal symbol span, children⟩ ∨
        offer ∈ projectInside C
          ⟨.goal symbol span, children⟩ ∨
        offer ∈ narrow ⟨.goal symbol span, children⟩ := by
  simp only [combine, seek, List.mem_append, or_assoc]

/- What a double-dotted item offers follows from it. -/
theorem infers_of_mem_grow
    {r : G.RuleId}
    {left right : Nat}
    (hItem :
      (ItemKey.double r left right ⟨i, j⟩ :
        ItemKey G).WellFormed)
    (hOffer :
      offer ∈ combine C words
        ⟨.double r left right ⟨i, j⟩, children⟩) :
    ∃ new, offer = .ok new ∧
      Infers words C.items.toList .combine
        ⟨.double r left right ⟨i, j⟩, children⟩ new := by
  have hSpan := hItem.start_le_stop
  rcases mem_combine_double_iff.mp hOffer with
    hOffer | hOffer | hOffer | hOffer | hOffer | hOffer |
      hOffer
  · rcases (mem_preComplete_iff hSpan).mp hOffer with
      ⟨rfl, rfl, rfl⟩
    exact ⟨_, rfl, .preComplete⟩
  · rcases mem_predictLeft_iff.mp hOffer with
      ⟨before, wanted, h, i, i', rfl, hSister, hDemanded,
        hStart, hSpan, hStop, rfl⟩
    exact ⟨_, rfl,
      .predictLeft hDemanded hSister hStart hSpan hStop⟩
  · rcases mem_predictRight_iff.mp hOffer with
      ⟨wanted, m, k, k', hSister, hDemanded, hStart, hSpan,
        hStop, rfl⟩
    exact ⟨_, rfl,
      .predictRight hDemanded hSister hStart hSpan hStop⟩
  · rcases mem_completeLeft_iff.mp hOffer with
      ⟨before, b, below, i, rfl, hSister, hDemanded, hFound,
        rfl⟩
    exact ⟨_, rfl, .completeLeft hDemanded hSister hFound⟩
  · rcases mem_completeRight_iff.mp hOffer with
      ⟨b, below, m, hSister, hDemanded, hFound, rfl⟩
    exact ⟨_, rfl, .completeRight hDemanded hSister hFound⟩
  · rcases (mem_scanLeft_iff hItem).mp hOffer with
      ⟨before, a, h, i, rfl, rfl, hSister, hDemanded,
        hTerminal, hWord, hStart, rfl⟩
    exact ⟨_, rfl,
      .scanLeft hDemanded hSister hTerminal hWord hStart⟩
  · rcases (mem_scanRight_iff hItem).mp hOffer with
      ⟨a, m, hSister, hDemanded, hTerminal, hWord, hStop,
        rfl⟩
    exact ⟨_, rfl,
      .scanRight hDemanded hSister hTerminal hWord hStop⟩

/- What a goal offers follows from it. -/
theorem infers_of_mem_seek
    (hChart : ∀ x ∈ C.items.toList, x.key.WellFormed)
    (hOffer :
      offer ∈ combine C words
        ⟨.goal symbol ⟨h, m⟩, children⟩) :
    ∃ new, offer = .ok new ∧
      Infers words C.items.toList .combine
        ⟨.goal symbol ⟨h, m⟩, children⟩ new := by
  rcases mem_combine_goal_iff.mp hOffer with
    hOffer | hOffer | hOffer | hOffer
  · rcases mem_scanHeads_iff.mp hOffer with
      ⟨r, head, a, k, hCorner, hHead, hDaughter, hTerminal,
        hWord, hStart, hStop, rfl⟩
    exact ⟨_, rfl,
      .scanHead hCorner hHead hDaughter hTerminal hWord
        hStart hStop⟩
  · rcases mem_scanEmpty_iff.mp hOffer with
      ⟨r, k, hCorner, hEmpty, hStart, hStop, rfl⟩
    exact ⟨_, rfl, .scanEmpty hCorner hEmpty hStart hStop⟩
  · rcases (mem_projectInside_iff hChart).mp hOffer with
      ⟨b, i, j, below, hFound, hStart, hStop, hProject⟩
    rcases mem_project_iff.mp hProject with
      ⟨r, head, hCorner, hHead, hDaughter, rfl⟩
    exact ⟨_, rfl,
      .projectInside hFound hCorner hHead hDaughter hStart
        hStop⟩
  · rcases mem_narrow_iff.mp hOffer with
      ⟨k, hStart, hStop, rfl | rfl⟩
    · exact ⟨_, rfl, .narrowFirst hStart hStop⟩
    · exact ⟨_, rfl, .narrowLast hStart hStop⟩

/- What a completed item offers follows from it. -/
theorem infers_of_mem_projectUp
    (hOffer :
      offer ∈ combine C words
        ⟨.completed b ⟨i, j⟩, below⟩) :
    ∃ new, offer = .ok new ∧
      Infers words C.items.toList .combine
        ⟨.completed b ⟨i, j⟩, below⟩ new := by
  rcases mem_projectUp_iff.mp hOffer with
    ⟨symbol, h, m, hGoal, hStart, hStop, hProject⟩
  rcases mem_project_iff.mp hProject with
    ⟨r, head, hCorner, hHead, hDaughter, rfl⟩
  exact ⟨_, rfl,
    .projectUp hGoal hCorner hHead hDaughter hStart hStop⟩

/- What follows from an item is offered by it. -/
theorem mem_combine_of_infers
    (hChart : ∀ x ∈ C.items.toList, x.key.WellFormed)
    {item new : Item G}
    (hItem : item.key.WellFormed)
    (hInfers :
      Infers words C.items.toList .combine item new) :
    .ok new ∈ item.combine C words := by
  cases hInfers with
  | preComplete =>
      have hSpan := hItem.start_le_stop
      apply mem_combine_double_iff.mpr
      left
      exact (mem_preComplete_iff hSpan).mpr ⟨rfl, rfl, rfl⟩
  | predictLeft hDemanded hSister hStart hSpan hStop =>
      apply mem_combine_double_iff.mpr
      right; left
      exact mem_predictLeft_iff.mpr
        ⟨_, _, _, _, _, rfl, hSister, hDemanded, hStart,
          hSpan, hStop, rfl⟩
  | predictRight hDemanded hSister hStart hSpan hStop =>
      apply mem_combine_double_iff.mpr
      right; right; left
      exact mem_predictRight_iff.mpr
        ⟨_, _, _, _, hSister, hDemanded, hStart, hSpan,
          hStop, rfl⟩
  | completeLeft hDemanded hSister hFound =>
      apply mem_combine_double_iff.mpr
      right; right; right; left
      exact mem_completeLeft_iff.mpr
        ⟨_, _, _, _, rfl, hSister, hDemanded, hFound, rfl⟩
  | completeRight hDemanded hSister hFound =>
      apply mem_combine_double_iff.mpr
      right; right; right; right; left
      exact mem_completeRight_iff.mpr
        ⟨_, _, _, hSister, hDemanded, hFound, rfl⟩
  | scanLeft hDemanded hSister hTerminal hWord hStart =>
      apply mem_combine_double_iff.mpr
      right; right; right; right; right; left
      exact (mem_scanLeft_iff hItem).mpr
        ⟨_, _, _, _, rfl, rfl, hSister, hDemanded, hTerminal,
          hWord, hStart, rfl⟩
  | scanRight hDemanded hSister hTerminal hWord hStop =>
      apply mem_combine_double_iff.mpr
      right; right; right; right; right; right
      exact (mem_scanRight_iff hItem).mpr
        ⟨_, _, hSister, hDemanded, hTerminal, hWord, hStop,
          rfl⟩
  | narrowFirst hStart hStop =>
      apply mem_combine_goal_iff.mpr
      right; right; right
      exact mem_narrow_iff.mpr
        ⟨_, hStart, hStop, Or.inl rfl⟩
  | narrowLast hStart hStop =>
      apply mem_combine_goal_iff.mpr
      right; right; right
      exact mem_narrow_iff.mpr
        ⟨_, hStart, hStop, Or.inr rfl⟩
  | scanHead hCorner hHead hDaughter hTerminal hWord hStart
      hStop =>
      apply mem_combine_goal_iff.mpr
      left
      exact mem_scanHeads_iff.mpr
        ⟨_, _, _, _, hCorner, hHead, hDaughter, hTerminal,
          hWord, hStart, hStop, rfl⟩
  | scanEmpty hCorner hEmpty hStart hStop =>
      apply mem_combine_goal_iff.mpr
      right; left
      exact mem_scanEmpty_iff.mpr
        ⟨_, _, hCorner, hEmpty, hStart, hStop, rfl⟩
  | projectInside hFound hCorner hHead hDaughter hStart
      hStop =>
      apply mem_combine_goal_iff.mpr
      right; right; left
      apply (mem_projectInside_iff hChart).mpr
      exact ⟨_, _, _, _, hFound, hStart, hStop,
        mem_project_iff.mpr
          ⟨_, _, hCorner, hHead, hDaughter, rfl⟩⟩
  | projectUp hGoal hCorner hHead hDaughter hStart hStop =>
      apply mem_projectUp_iff.mpr
      exact ⟨_, _, _, hGoal, hStart, hStop,
        mem_project_iff.mpr
          ⟨_, _, hCorner, hHead, hDaughter, rfl⟩⟩

theorem mem_combine_iff
    (hChart : ∀ x ∈ C.items.toList, x.key.WellFormed)
    {item : Item G}
    (hItem : item.key.WellFormed) :
    offer ∈ item.combine C words ↔
      ∃ new, offer = .ok new ∧
        Infers words C.items.toList .combine item new := by
  constructor
  · intro hOffer
    rcases item with ⟨key, children⟩
    cases key with
    | single r dot span => cases hOffer
    | double r left right span =>
        exact infers_of_mem_grow hItem hOffer
    | goal symbol span =>
        exact infers_of_mem_seek hChart hOffer
    | completed r span =>
        exact infers_of_mem_projectUp hOffer
  · rintro ⟨new, rfl, hInfers⟩
    exact mem_combine_of_infers hChart hItem hInfers

end Item

------------------------------------------------------------
-- Steps
------------------------------------------------------------

namespace Step

variable {item : Item G}
variable {old new : List (Item G)}

/- Every step offers exactly what follows from the item. -/
theorem mem_offers_iff
    (step : Step)
    (hChart : ∀ x ∈ C.items.toList, x.key.WellFormed)
    (hItem : item.key.WellFormed) :
    offer ∈ step.offers C words item ↔
      ∃ new, offer = .ok new ∧
        Infers words C.items.toList step item new := by
  cases step with
  | predict => exact Item.mem_predict_iff
  | leftCornerPredict =>
      exact Item.mem_leftCornerPredict_iff hItem
  | complete => exact Item.mem_complete_iff hChart hItem
  | scan => exact Item.mem_scan_iff hItem
  | leftCornerScan => exact Item.mem_leftCornerScan_iff
  | combine => exact Item.mem_combine_iff hChart hItem

/- What a step offers can be filed. -/
theorem ok_of_mem_offers
    (step : Step)
    (hChart : ∀ x ∈ C.items.toList, x.key.WellFormed)
    (hItem : item.key.WellFormed)
    (hOffer : offer ∈ step.offers C words item) :
    ∃ x, offer = .ok x ∧ x.start ≤ x.stop := by
  rcases (step.mem_offers_iff hChart hItem).mp hOffer with
    ⟨x, rfl, hInfers⟩
  have hKey := hInfers.wellFormed hChart hItem
  exact ⟨x, rfl, hKey.start_le_stop⟩

/- What is new after a step follows from the item. -/
theorem infers_of_delivery
    (step : Step)
    (hChart : ∀ x ∈ C.items.toList, x.key.WellFormed)
    (hItem : item.key.WellFormed)
    (hDelivery :
      Delivery (step.offers C words item) old new) :
    ∀ x ∈ new,
      Infers words C.items.toList step item x := by
  intro x hx
  have hOffer := hDelivery.offered x hx
  rcases (step.mem_offers_iff hChart hItem).mp hOffer with
    ⟨y, hSame, hInfers⟩
  cases hSame
  exact hInfers

/- What follows from the item is known after a step. -/
theorem key_mem_of_delivery
    (step : Step)
    (hChart : ∀ x ∈ C.items.toList, x.key.WellFormed)
    (hItem : item.key.WellFormed)
    (hDelivery :
      Delivery (step.offers C words item) old new)
    {x : Item G}
    (hInfers : Infers words C.items.toList step item x) :
    x.key ∈ (old ++ new).map Item.key := by
  apply hDelivery.known
  apply (step.mem_offers_iff hChart hItem).mpr
  exact ⟨x, rfl, hInfers⟩

end Step

end Constituency
