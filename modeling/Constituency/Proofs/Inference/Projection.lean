import Constituency.Proofs.Chart.Calls
import Constituency.Proofs.Grammar.Closure
import Constituency.Proofs.Inference.Combining

/-
  This file shows that it makes no difference from which
  side a constituent meets a goal. A goal walks through the
  items that start inside its span to find constituents
  there; a constituent walks through the items that start no
  later than itself to find goals around it. Both walks meet
  the same pairs, each of them once, and offer the same
  items for a pair.

  Key definitions include:
    * `Item.IsMade`
    * `Chart.startingWithin`
    * `Item.constituentsInside`
    * `Item.goalsAround`
    * `Item.shareInside`
    * `Item.shareUp`

  Main declarations:
    * `Item.projectInside_eq`
    * `Item.projectUp_eq`
    * `Item.mem_constituentsInside_iff`
    * `Item.mem_goalsAround_iff`
    * `Item.shareInside_eq`
    * `Item.shareUp_eq`
    * `Grammar.projection_agrees`
    * `Grammar.crossed_projection`
-/

namespace Constituency

variable {G : Grammar}
variable {C : Chart G}

------------------------------------------------------------
-- Items That Can Be Made
------------------------------------------------------------

/-
  An item comes about by being created with its key, or when
  a double-dotted item grows over a constituent. Only what
  has grown may have a reversed span.
-/
inductive Item.IsMade : Item G → Prop where
  | create
      {key : ItemKey G}
      {children : List (Item G)}
      {item : Item G}
      (hCreate : Item.create key children = .ok item) :
      IsMade item
  | growLeft
      {r : G.RuleId}
      {left right : Nat}
      {span : Span}
      {children : List (Item G)}
      {found item : Item G}
      (hGrow :
        Item.growLeft r left right span children found =
          .ok item) :
      IsMade item
  | growRight
      {r : G.RuleId}
      {left right : Nat}
      {span : Span}
      {children : List (Item G)}
      {found item : Item G}
      (hGrow :
        Item.growRight r left right span children found =
          .ok item) :
      IsMade item

/- A completed item that can be made has no reversed span. -/
theorem Item.IsMade.start_le_stop
    {item : Item G}
    (hMade : item.IsMade)
    {b : G.RuleId}
    {span : Span}
    (hKey : item.key = .completed b span) :
    span.start ≤ span.stop := by
  cases hMade with
  | create hCreate =>
      rcases create_eq_ok_iff.mp hCreate with ⟨hSound, rfl⟩
      cases hKey
      exact hSound.start_le_stop
  | @growLeft r left right _ children found _ hGrow =>
      cases left with
      | zero => cases hGrow
      | succ left =>
          cases hGrow
          cases hKey
  | growRight hGrow =>
      unfold Item.growRight at hGrow
      split at hGrow
      · cases hGrow
      · cases hGrow
        cases hKey

------------------------------------------------------------
-- Walks Through a Chart
------------------------------------------------------------

namespace Chart

/- The items that start at some positions in a row. -/
def startingWithin
    (C : Chart G)
    (first last : Nat) : List (Item G) :=
  (between first last).flatMap C.startingAt

theorem mem_startingWithin_iff
    {first last : Nat}
    {item : Item G} :
    item ∈ C.startingWithin first last ↔
      item ∈ C.items.toList ∧ first ≤ item.start ∧
        item.start ≤ last := by
  simp only [startingWithin, List.mem_flatMap,
    Item.mem_between_iff, Item.mem_startingAt_iff]
  constructor
  · rintro ⟨_, hBetween, hKnown, rfl⟩
    exact ⟨hKnown, hBetween⟩
  · rintro ⟨hKnown, hBetween⟩
    exact ⟨item.start, hBetween, hKnown, rfl⟩

/- A walk meets no item twice. -/
theorem nodup_startingWithin
    (C : Chart G)
    (first last : Nat) :
    (C.startingWithin first last).Nodup := by
  unfold startingWithin
  rw [List.nodup_flatMap]
  constructor
  · intro position _
    rw [C.startingAt_eq]
    exact C.nodup_items.filter _
  · have hPositions : (between first last).Nodup :=
      List.nodup_range'
    apply hPositions.imp
    intro i j hDifferent x hFirst hSecond
    apply hDifferent
    rw [← (Item.mem_startingAt_iff.mp hFirst).2,
      ← (Item.mem_startingAt_iff.mp hSecond).2]

/- Nor does one that passes over some of what it meets. -/
theorem filter_startingWithin
    (C : Chart G)
    (first last : Nat)
    (test : Item G → Bool) :
    ((C.startingWithin first last).filter test).Nodup ∧
      ∀ x ∈ (C.startingWithin first last).filter test,
        x ∈ C.items.toList := by
  refine ⟨(C.nodup_startingWithin first last).filter _, ?_⟩
  intro x hx
  exact (mem_startingWithin_iff.mp
    (List.mem_of_mem_filter hx)).1

end Chart

/-
  The share of a row of partners in what is offered that is
  offered on account of one of them.
-/
def Offers.onAccountOf
    (partner : Item G)
    (row : List (Item G))
    (offers : Item G → Offers G) : Offers G :=
  (row.filter (fun x => x.key = partner.key)).flatMap offers

/-
  On account of an item of the chart is offered what comes
  of it, once, if it is among the partners.
-/
theorem Offers.onAccountOf_eq
    {row : List (Item G)}
    (hNodup : row.Nodup)
    (hRow : ∀ x ∈ row, x ∈ C.items.toList)
    {partner : Item G}
    (hPartner : partner ∈ C.items.toList)
    (offers : Item G → Offers G)
    {met : Bool}
    (hMet : partner ∈ row ↔ met = true) :
    onAccountOf partner row offers =
      if met then offers partner else [] := by
  have hSame :
      ∀ x ∈ row, x.key = partner.key → x = partner :=
    fun x hx hKey =>
      C.eq_of_key_eq (hRow x hx) hPartner hKey
  unfold onAccountOf
  split
  · rename_i hTrue
    have hAlone :
        row.filter (fun x => x.key = partner.key) =
          [partner] := by
      rw [← List.perm_singleton,
        List.perm_ext_iff_of_nodup (hNodup.filter _)
          (List.nodup_singleton partner)]
      intro x
      rw [List.mem_filter, decide_eq_true_eq,
        List.mem_singleton]
      constructor
      · exact fun hBoth => hSame x hBoth.1 hBoth.2
      · rintro rfl
        exact ⟨hMet.mpr hTrue, rfl⟩
    rw [hAlone, List.flatMap_singleton]
  · rename_i hFalse
    have hNone :
        row.filter (fun x => x.key = partner.key) = [] := by
      rw [List.filter_eq_nil_iff]
      intro x hx hKey
      have hEqual := hSame x hx (of_decide_eq_true hKey)
      exact hFalse (hMet.mp (hEqual ▸ hx))
    rw [hNone, List.flatMap_nil]

/- What comes of all partners comes of each one in turn. -/
theorem Offers.flatMap_onAccountOf
    {row : List (Item G)}
    (hNodup : row.Nodup)
    (hRow : ∀ x ∈ row, x ∈ C.items.toList)
    (offers : Item G → Offers G) :
    row.flatMap (fun x => onAccountOf x row offers) =
      row.flatMap offers := by
  apply List.flatMap_congr
  intro x hx
  exact onAccountOf_eq hNodup hRow (hRow x hx) offers
    (iff_of_true hx rfl)

namespace Item

------------------------------------------------------------
-- Partners
------------------------------------------------------------

/- The constituents that a goal meets on its walk. -/
def constituentsInside
    (C : Chart G)
    (goal : Item G) : List (Item G) :=
  match goal.key with
  | .goal _ span =>
      (C.startingWithin span.start span.stop).filter
        (isConstituentIn span)
  | _ => []

/- The goals that a constituent meets on its walk. -/
def goalsAround
    (C : Chart G)
    (found : Item G) : List (Item G) :=
  match found.key with
  | .completed _ span =>
      (C.startingWithin 0 span.start).filter
        (fun goal => (goal.goalAround span).isSome)
  | _ => []

/- A goal offers its projections of what it meets. -/
theorem projectInside_eq
    (C : Chart G)
    (goal : Item G) :
    goal.projectInside C =
      (goal.constituentsInside C).flatMap
        (project goal.category) := by
  unfold projectInside constituentsInside category
  cases goal.key with
  | goal symbol span =>
      simp only [Chart.startingWithin, List.filter_flatMap,
        List.flatMap_assoc]
      rfl
  | _ => rfl

/- The goals around a span, told by their symbols. -/
theorem filterMap_goalAround
    (inner : Span)
    (row : List (Item G)) :
    row.filterMap (goalAround inner) =
      (row.filter (fun goal =>
        (goal.goalAround inner).isSome)).map category := by
  induction row with
  | nil => rfl
  | cons goal row ih =>
      rw [List.filterMap_cons, List.filter_cons]
      cases hGoal : goal.goalAround inner with
      | none => simpa using ih
      | some symbol =>
          rcases goalAround_eq_some_iff.mp hGoal with
            ⟨h, m, hKey, _⟩
          simp [ih, category, hKey, ItemKey.category]

/- A constituent offers its projections to what it meets. -/
theorem projectUp_eq
    (C : Chart G)
    (found : Item G) :
    found.projectUp C =
      (found.goalsAround C).flatMap
        (fun goal => project goal.category found) := by
  unfold projectUp goalsAround
  cases found.key with
  | completed b span =>
      simp only [Chart.startingWithin, List.filter_flatMap,
        List.flatMap_assoc, filterMap_goalAround,
        List.flatMap_map]
  | _ => rfl

variable {goal found : Item G}

/- The goal's span lies around that of the constituent. -/
def LiesAround
    (goal found : Item G) : Prop :=
  ∃ symbol outer b inner,
    goal.key = .goal symbol outer ∧
      found.key = .completed b inner ∧
        outer.covers inner = true

theorem liesAround_iff
    {symbol : Symbol}
    {outer inner : Span}
    {b : G.RuleId}
    (hGoal : goal.key = .goal symbol outer)
    (hFound : found.key = .completed b inner) :
    goal.LiesAround found ↔ outer.covers inner = true := by
  unfold LiesAround
  simp [hGoal, hFound]

/-
  A goal meets the constituents inside its span. One of no
  width at the end of the span is not missed, nor is any
  other: it starts where the walk ends, or before.
-/
theorem mem_constituentsInside_iff
    (hSpans : ∀ x ∈ C.items.toList, ∀ b span,
      x.key = .completed b span → span.start ≤ span.stop) :
    found ∈ goal.constituentsInside C ↔
      found ∈ C.items.toList ∧ goal.LiesAround found := by
  cases hGoal : goal.key with
  | goal symbol outer =>
      cases hFound : found.key with
      | completed b inner =>
          have hStart : found.start = inner.start := by
            rw [start, hFound]
            rfl
          rw [liesAround_iff hGoal hFound]
          simp only [constituentsInside, hGoal,
            List.mem_filter, Chart.mem_startingWithin_iff,
            isConstituentIn, hFound, hStart, covers_iff,
            and_assoc]
          constructor
          · rintro ⟨hKnown, _, _, hCovers⟩
            exact ⟨hKnown, hCovers⟩
          · rintro ⟨hKnown, hFirst, hLast⟩
            have hSpan := hSpans found hKnown b inner hFound
            exact ⟨hKnown, hFirst, by omega, hFirst, hLast⟩
      | _ =>
          simp [constituentsInside, LiesAround, hGoal,
            isConstituentIn, hFound]
  | _ => simp [constituentsInside, LiesAround, hGoal]

/- A constituent meets the goals around its span. -/
theorem mem_goalsAround_iff :
    goal ∈ found.goalsAround C ↔
      goal ∈ C.items.toList ∧ goal.LiesAround found := by
  cases hFound : found.key with
  | completed b inner =>
      cases hGoal : goal.key with
      | goal symbol outer =>
          have hStart : goal.start = outer.start := by
            rw [start, hGoal]
            rfl
          rw [liesAround_iff hGoal hFound]
          simp only [goalsAround, hFound, List.mem_filter,
            Chart.mem_startingWithin_iff, goalAround, hGoal,
            hStart, Option.isSome_ite, covers_iff,
            Nat.zero_le, true_and, and_assoc]
          constructor
          · rintro ⟨hKnown, _, hCovers⟩
            exact ⟨hKnown, hCovers⟩
          · rintro ⟨hKnown, hFirst, hLast⟩
            exact ⟨hKnown, hFirst, hFirst, hLast⟩
      | _ =>
          simp [goalsAround, LiesAround, hFound, goalAround,
            hGoal]
  | _ => simp [goalsAround, LiesAround, hFound]

theorem constituentsInside_spec
    (C : Chart G)
    (goal : Item G) :
    (goal.constituentsInside C).Nodup ∧
      ∀ x ∈ goal.constituentsInside C,
        x ∈ C.items.toList := by
  unfold constituentsInside
  cases goal.key with
  | goal symbol span => exact C.filter_startingWithin _ _ _
  | _ => simp

theorem goalsAround_spec
    (C : Chart G)
    (found : Item G) :
    (found.goalsAround C).Nodup ∧
      ∀ x ∈ found.goalsAround C, x ∈ C.items.toList := by
  unfold goalsAround
  cases found.key with
  | completed b span => exact C.filter_startingWithin _ _ _
  | _ => simp

------------------------------------------------------------
-- Shares
------------------------------------------------------------

/- What a goal offers on account of one constituent. -/
def shareInside
    (C : Chart G)
    (goal found : Item G) : Offers G :=
  Offers.onAccountOf found (goal.constituentsInside C)
    (project goal.category)

/- What a constituent offers on account of one goal. -/
def shareUp
    (C : Chart G)
    (found goal : Item G) : Offers G :=
  Offers.onAccountOf goal (found.goalsAround C)
    (fun x => project x.category found)

variable {symbol : Symbol}
variable {outer inner : Span}
variable {b : G.RuleId}

theorem shareInside_eq
    (hSpans : ∀ x ∈ C.items.toList, ∀ b span,
      x.key = .completed b span → span.start ≤ span.stop)
    (hGoal : goal.key = .goal symbol outer)
    (hFound : found.key = .completed b inner)
    (hKnown : found ∈ C.items.toList) :
    goal.shareInside C found =
      if outer.covers inner then project symbol found
      else [] := by
  rcases goal.constituentsInside_spec C with
    ⟨hNodup, hRow⟩
  have hSymbol : goal.category = symbol := by
    rw [category, hGoal]
    rfl
  rw [← hSymbol]
  apply Offers.onAccountOf_eq hNodup hRow hKnown
  rw [mem_constituentsInside_iff hSpans,
    liesAround_iff hGoal hFound]
  exact and_iff_right hKnown

theorem shareUp_eq
    (hGoal : goal.key = .goal symbol outer)
    (hFound : found.key = .completed b inner)
    (hKnown : goal ∈ C.items.toList) :
    found.shareUp C goal =
      if outer.covers inner then project symbol found
      else [] := by
  rcases found.goalsAround_spec C with ⟨hNodup, hRow⟩
  have hSymbol : goal.category = symbol := by
    rw [category, hGoal]
    rfl
  rw [← hSymbol]
  apply Offers.onAccountOf_eq hNodup hRow hKnown
    (fun x => project x.category found)
  rw [mem_goalsAround_iff, liesAround_iff hGoal hFound]
  exact and_iff_right hKnown

/-
  What some goal offers is what some constituent offers: it
  comes of a pair of them.
-/
theorem exists_projectInside_iff
    (hSpans : ∀ x ∈ C.items.toList, ∀ b span,
      x.key = .completed b span → span.start ≤ span.stop)
    {offer : Except ItemError (Item G)} :
    (∃ goal ∈ C.items.toList,
        offer ∈ goal.projectInside C) ↔
      ∃ found ∈ C.items.toList,
        offer ∈ found.projectUp C := by
  simp only [projectInside_eq, projectUp_eq,
    List.mem_flatMap, mem_constituentsInside_iff hSpans,
    mem_goalsAround_iff]
  constructor
  · rintro ⟨goal, hGoal, found, ⟨hFound, hAround⟩, hOffer⟩
    exact ⟨found, hFound, goal, ⟨hGoal, hAround⟩, hOffer⟩
  · rintro ⟨found, hFound, goal, ⟨hGoal, hAround⟩, hOffer⟩
    exact ⟨goal, hGoal, found, ⟨hFound, hAround⟩, hOffer⟩

end Item

------------------------------------------------------------
-- Both Sides
------------------------------------------------------------

/- What calls put into a chart is what they offer to it. -/
theorem Chart.Admits.exists_call
    {n : Nat}
    {calls : List (Chart.Call G)}
    {answers : List Bool}
    (hCalls :
      (Chart.new G n).performAll? calls = some (C, answers))
    {item : Item G}
    (hItem : item ∈ C.items.toList) :
    ∃ call ∈ calls, call.item = item := by
  have hC := Chart.Admits.new.performAll? hCalls
  rw [List.nil_append, List.nil_append] at hC
  rw [hC.items] at hItem
  rcases List.mem_map.mp hItem with ⟨⟨x, isNew⟩, hx, rfl⟩
  have hOffered := (List.of_mem_zip (List.mem_of_mem_filter
    hx)).1
  exact List.mem_map.mp hOffered

namespace Grammar

/-
  Goals and constituents meet in a chart, whatever has been
  put into it. A goal offers what it offers on account of
  each constituent in turn, and a constituent likewise; on
  account of each other they offer the same. If the goal's
  span lies around that of the constituent, these are the
  items over the constituent in which it is the head of a
  rule that can lead up to the goal, and else there are
  none. So all goals together offer the same keys as all
  constituents together.
-/
theorem projection_agrees
    {n : Nat}
    {calls : List (Chart.Call G)}
    {C : Chart G}
    {answers : List Bool}
    (hCalls :
      (Chart.new G n).performAll? calls = some (C, answers))
    (hMade : ∀ call ∈ calls, call.item.IsMade) :
    (∀ goal ∈ C.items.toList, ∀ found ∈ C.items.toList,
      goal.projectInside C =
          (goal.constituentsInside C).flatMap
            (goal.shareInside C) ∧
        found.projectUp C =
            (found.goalsAround C).flatMap
              (found.shareUp C) ∧
        ∀ symbol outer b inner,
          goal.key = .goal symbol outer →
          found.key = .completed b inner →
            goal.shareInside C found =
                found.shareUp C goal ∧
              (outer.covers inner = true → ∀ offer,
                offer ∈ goal.shareInside C found ↔
                  ∃ r head,
                    G.isHeadCornerOf (G.rule r).lhs symbol =
                        true ∧
                      (G.rule r).head = some head ∧
                        (G.rule r).rhs[head]? =
                            some (G.rule b).lhs ∧
                          offer = .ok
                            ⟨.double r head (head + 1)
                              inner, [found]⟩) ∧
              (outer.covers inner = false →
                goal.shareInside C found = [])) ∧
      ∀ key,
        (∃ goal ∈ C.items.toList, ∃ x,
            .ok x ∈ goal.projectInside C ∧ x.key = key) ↔
          ∃ found ∈ C.items.toList, ∃ x,
            .ok x ∈ found.projectUp C ∧ x.key = key := by
  have hSpans : ∀ x ∈ C.items.toList, ∀ b span,
      x.key = .completed b span →
        span.start ≤ span.stop := by
    intro x hx b span hKey
    rcases Chart.Admits.exists_call hCalls hx with
      ⟨call, hCall, rfl⟩
    exact (hMade call hCall).start_le_stop hKey
  constructor
  · intro goal hGoal found hFound
    rcases goal.constituentsInside_spec C with
      ⟨hNodup, hRow⟩
    rcases found.goalsAround_spec C with
      ⟨hNodupUp, hRowUp⟩
    refine ⟨?_, ?_, ?_⟩
    · rw [goal.projectInside_eq C]
      exact (Offers.flatMap_onAccountOf hNodup hRow _).symm
    · rw [found.projectUp_eq C]
      exact (Offers.flatMap_onAccountOf hNodupUp hRowUp
        (fun x => Item.project x.category found)).symm
    · intro symbol outer b inner hGoalKey hFoundKey
      have hInside := Item.shareInside_eq hSpans hGoalKey
        hFoundKey hFound
      have hUp := Item.shareUp_eq hGoalKey hFoundKey hGoal
      refine ⟨hInside.trans hUp.symm, ?_, ?_⟩
      · intro hCovers offer
        rw [hInside, hCovers]
        rcases found with ⟨key, below⟩
        cases hFoundKey
        exact Item.mem_project_iff
      · intro hApart
        rw [hInside, hApart]
        rfl
  · intro key
    have hOffers := @Item.exists_projectInside_iff G C hSpans
    constructor
    · rintro ⟨goal, hGoal, x, hOffer, hKey⟩
      rcases hOffers.mp ⟨goal, hGoal, hOffer⟩ with
        ⟨found, hFound, hSame⟩
      exact ⟨found, hFound, x, hSame, hKey⟩
    · rintro ⟨found, hFound, x, hOffer, hKey⟩
      rcases hOffers.mpr ⟨found, hFound, hOffer⟩ with
        ⟨goal, hGoal, hSame⟩
      exact ⟨goal, hGoal, x, hSame, hKey⟩

/-
  An `A` over two words is the head of a `B` for the goal
  around it, but not for a goal that ends before it.
-/
theorem crossed_projection :
    let around : Item crossed := ⟨.goal "B" ⟨0, 3⟩, []⟩
    let short : Item crossed := ⟨.goal "B" ⟨0, 1⟩, []⟩
    let found : Item crossed :=
      ⟨.completed ⟨0, by decide⟩ ⟨0, 2⟩, []⟩
    ∃ C,
      (Chart.new crossed 3).performAll?
          [.insert around, .add short, .insert found] =
        some (C, [true, true, true]) ∧
      around.shareInside C found =
          found.shareUp C around ∧
        .ok ⟨.double ⟨1, by decide⟩ 0 1 ⟨0, 2⟩, [found]⟩ ∈
          around.shareInside C found ∧
        short.shareInside C found = [] := by
  intro around short found
  let calls : List (Chart.Call crossed) :=
    [.insert around, .add short, .insert found]
  have hRun :
      ((Chart.new crossed 3).performAll? calls).map
          (fun result => result.2) =
        some [true, true, true] := by
    decide +kernel
  rcases Option.map_eq_some_iff.mp hRun with
    ⟨⟨C, answers⟩, hCalls, rfl⟩
  have hMade : ∀ call ∈ calls, call.item.IsMade := by
    intro call hCall
    have hCreate :
        Item.create call.item.key [] = .ok call.item := by
      simp only [calls, List.mem_cons, List.not_mem_nil,
        or_false] at hCall
      rcases hCall with rfl | rfl | rfl
      · rfl
      · rfl
      · rfl
    exact .create hCreate
  have hItems : C.items.toList = [around, short, found] := by
    rw [(Chart.Admits.new.performAll? hCalls).items]
    rfl
  have hFound : found ∈ C.items.toList := by simp [hItems]
  have hPairs := (projection_agrees hCalls hMade).1
  rcases (hPairs around (by simp [hItems]) found hFound).2.2
      "B" ⟨0, 3⟩ _ ⟨0, 2⟩ rfl rfl with
    ⟨hSame, hCovered, _⟩
  rcases (hPairs short (by simp [hItems]) found hFound).2.2
      "B" ⟨0, 1⟩ _ ⟨0, 2⟩ rfl rfl with
    ⟨_, _, hApart⟩
  refine ⟨C, hCalls, hSame, ?_, hApart (by decide)⟩
  apply (hCovered (by decide) _).mpr
  exact ⟨⟨1, by decide⟩, 0,
    crossed.isHeadCornerOf_iff.mpr .refl, by decide,
    by decide, rfl⟩

end Grammar

end Constituency
