import Constituency.Proofs.Grammar.Closure
import Constituency.Proofs.Parse.Moments
import Constituency.Proofs.Recognition.Grounding

/-
  This file shows that recognition from heads stays where it
  is asked for: an item with two dots has them around its
  head, and every item that is found lies inside a goal of
  the chart which its rule can lead up to.

  Key definitions include:
    * `ItemKey.Straddles`
    * `ItemKey.Sought`
    * `ItemKey.Anchored`

  Main declarations:
    * `Infers.anchored`
    * `Saturation.anchored_step`
    * `Grammar.headCorner_anchored`
-/

namespace Constituency

variable {G : Grammar}

------------------------------------------------------------
-- Anchored Keys
------------------------------------------------------------

namespace ItemKey

/-
  The head of the rule lies between the two dots. A rule
  without daughters has both dots at its start.
-/
def Straddles : ItemKey G → Prop
  | .double r left right _ =>
      ((G.rule r).rhs = [] ∧ left = 0 ∧ right = 0) ∨
        ∃ head, (G.rule r).head = some head ∧
          left ≤ head ∧ head < right
  | _ => True

/-
  A known goal lies around the item, and the symbol of the
  item is a head corner of the symbol that it asks for.
-/
def Sought
    (known : List (Item G))
    (key : ItemKey G) : Prop :=
  ∃ upper h m,
    ItemKey.goal upper ⟨h, m⟩ ∈ known.map Item.key ∧
      h ≤ key.span.start ∧ key.span.stop ≤ m ∧
        G.IsHeadCorner key.category upper

/- The dots are around the head, and a goal around both. -/
structure Anchored
    (known : List (Item G))
    (key : ItemKey G) : Prop where
  straddles : key.Straddles
  sought : ¬ key.IsGoal → key.Sought known

variable {known more : List (Item G)}

theorem Sought.mono
    (hKnown : known ⊆ more)
    {key : ItemKey G}
    (hSought : key.Sought known) :
    key.Sought more := by
  rcases hSought with
    ⟨upper, h, m, hGoal, hStart, hStop, hCorner⟩
  exact ⟨upper, h, m, List.map_subset _ hKnown hGoal, hStart,
    hStop, hCorner⟩

theorem Anchored.mono
    (hKnown : known ⊆ more)
    {key : ItemKey G}
    (hKey : key.Anchored known) :
    key.Anchored more :=
  ⟨hKey.straddles,
    fun hGoal => (hKey.sought hGoal).mono hKnown⟩

/- A goal stands for itself. -/
theorem anchored_goal
    (known : List (Item G))
    (symbol : Symbol)
    (span : Span) :
    (goal symbol span).Anchored known :=
  ⟨trivial, fun hGoal => absurd ⟨symbol, span, rfl⟩ hGoal⟩

/- A pair of dots around the head stays around it. -/
theorem Straddles.widen
    {r : G.RuleId}
    {left right i j : Nat}
    (hKey : (double r left right ⟨i, j⟩).Straddles)
    {symbol : Symbol}
    {dot : Nat}
    (hDaughter : (G.rule r).rhs[dot]? = some symbol)
    {left' right' i' j' : Nat}
    (hLeft : left' ≤ left)
    (hRight : right ≤ right') :
    (double r left' right' ⟨i', j'⟩).Straddles := by
  rcases hKey with ⟨hEmpty, _⟩ | ⟨head, hHead, hFirst, hLast⟩
  · rw [hEmpty, List.getElem?_nil] at hDaughter
    cases hDaughter
  · exact Or.inr ⟨head, hHead, Nat.le_trans hLeft hFirst,
      Nat.lt_of_lt_of_le hLast hRight⟩

end ItemKey

/- What is demanded over a span is sought inside of it. -/
theorem Demanded.sought
    {known : List (Item G)}
    {r : G.RuleId}
    {h m : Nat}
    (hDemanded : Demanded known r ⟨h, m⟩)
    {left right i j : Nat}
    (hStart : h ≤ i)
    (hStop : j ≤ m) :
    (ItemKey.double r left right ⟨i, j⟩).Sought known := by
  rcases hDemanded with ⟨upper, hGoal, hCorner⟩
  exact ⟨upper, h, m, hGoal, hStart, hStop,
    G.isHeadCornerOf_iff.mp hCorner⟩

/-
  From anchored items only anchored items follow. An item
  that grows has asked for a goal around what it becomes; an
  item that begins does so inside a goal, with its dots
  around the head.
-/
theorem Infers.anchored
    {words : List Symbol}
    {known : List (Item G)}
    {item new : Item G}
    (hItem : item ∈ known)
    (hAnchored : item.key.Anchored known)
    (hInfers : Infers words known .combine item new) :
    new.key.Anchored known := by
  have hStraddles := hAnchored.straddles
  have hHere :
      ∀ {r : G.RuleId} {symbol : Symbol}
        {head h i j m : Nat},
        .goal symbol ⟨h, m⟩ ∈ known.map Item.key →
          G.isHeadCornerOf (G.rule r).lhs symbol = true →
          (G.rule r).head = some head → h ≤ i → j ≤ m →
            (ItemKey.double r head (head + 1)
              ⟨i, j⟩).Anchored known := by
    intro r symbol head h i j m hGoal hCorner hHead hStart
      hStop
    exact ⟨Or.inr ⟨head, hHead, Nat.le_refl _,
        Nat.lt_succ_self _⟩,
      fun _ => Demanded.sought ⟨symbol, hGoal, hCorner⟩
        hStart hStop⟩
  have hKey : item.key ∈ known.map Item.key :=
    List.mem_map_of_mem hItem
  cases hInfers with
  | @preComplete r span children =>
      have hSought := hAnchored.sought
        (by simp [ItemKey.IsGoal])
      exact ⟨trivial, fun _ => hSought⟩
  | predictLeft => exact ItemKey.anchored_goal _ _ _
  | predictRight => exact ItemKey.anchored_goal _ _ _
  | completeLeft hDemanded hSister =>
      exact ⟨hStraddles.widen hSister (Nat.le_succ _)
          (Nat.le_refl _),
        fun _ => hDemanded.sought (Nat.le_refl _)
          (Nat.le_refl _)⟩
  | completeRight hDemanded hSister =>
      exact ⟨hStraddles.widen hSister (Nat.le_refl _)
          (Nat.le_succ _),
        fun _ => hDemanded.sought (Nat.le_refl _)
          (Nat.le_refl _)⟩
  | scanLeft hDemanded hSister _ _ hStart =>
      exact ⟨hStraddles.widen hSister (Nat.le_succ _)
          (Nat.le_refl _),
        fun _ => hDemanded.sought hStart (Nat.le_refl _)⟩
  | scanRight hDemanded hSister _ _ hStop =>
      exact ⟨hStraddles.widen hSister (Nat.le_refl _)
          (Nat.le_succ _),
        fun _ => hDemanded.sought (Nat.le_refl _) hStop⟩
  | narrowFirst => exact ItemKey.anchored_goal _ _ _
  | narrowLast => exact ItemKey.anchored_goal _ _ _
  | scanHead hCorner hHead _ _ _ hStart hStop =>
      exact hHere hKey hCorner hHead hStart hStop
  | scanEmpty hCorner hEmpty hStart hStop =>
      exact ⟨Or.inl ⟨hEmpty, rfl, rfl⟩,
        fun _ => Demanded.sought ⟨_, hKey, hCorner⟩ hStart
          hStop⟩
  | projectInside _ hCorner hHead _ hStart hStop =>
      exact hHere hKey hCorner hHead hStart hStop
  | projectUp hGoal hCorner hHead _ hStart hStop =>
      exact hHere hGoal hCorner hHead hStart hStop

------------------------------------------------------------
-- Every Point of the Work
------------------------------------------------------------

namespace Saturation

variable {plan : Plan}
variable {state : Saturation G}

/-
  Everything known is anchored in the chart alone: the goals
  that wait do not count.
-/
def IsAnchored
    (state : Saturation G) : Prop :=
  ∀ x ∈ state.view,
    x.key.Anchored state.chart.items.toList

/- During a step everything known stays anchored. -/
theorem Moment.anchored
    {C : Chart G}
    {A : Agenda G}
    (hSound : Sound plan state)
    (hState : state.IsAnchored)
    (hMoment : Moment plan state C A) :
    ∀ x ∈ C.items.toList ++ A.queue,
      x.key.Anchored C.items.toList := by
  rcases hMoment.chart_subset hSound with ⟨hOld, hKnown⟩
  have hBefore :
      ∀ x ∈ state.view, x.key.Anchored C.items.toList :=
    fun x hx => (hState x hx).mono hOld
  intro x hx
  rcases List.mem_append.mp hx with hChart | hQueue
  · exact hBefore x (hKnown hChart)
  · rcases hMoment.queue_cases hSound x hQueue with
      hView | ⟨item, hItem, hInfers⟩
    · exact hBefore x hView
    · exact hInfers.anchored hItem
        (hBefore item (hKnown hItem))

/- One step keeps everything anchored. -/
theorem anchored_step
    (hSound : Sound plan state)
    (hState : state.IsAnchored) :
    (step plan state).state.IsAnchored :=
  (moment_step plan state).anchored hSound hState

/- At first only a goal is known. -/
theorem anchored_begin
    (plan : Plan) :
    (begin G plan).IsAnchored := by
  intro x hx
  rw [view_begin, List.mem_singleton] at hx
  subst hx
  exact ItemKey.anchored_goal _ _ _

/- Everything is anchored after any number of steps. -/
theorem anchored_iterate
    (plan : Plan)
    (steps : Nat) :
    (Progress.iterate (step plan) steps
      (begin G plan)).state.IsAnchored := by
  have hBoth :=
    @Progress.iterate_keeps (Saturation G) (step plan)
      (fun state => Sound plan state ∧ state.IsAnchored)
      (fun state hState =>
        ⟨sound_step hState.1,
          anchored_step hState.1 hState.2⟩)
      steps (begin G plan)
      ⟨sound_begin plan, anchored_begin plan⟩
  exact hBoth.2

end Saturation

namespace Grammar

/-
  At every moment of recognition from heads, items with two
  dots have them around the head of their rule, and each
  item that is no goal lies inside a goal which is in the
  chart already and of which its symbol is a head corner.
-/
theorem headCorner_anchored
    (G : Grammar)
    (start : Symbol)
    (limit : Option Nat)
    (words : List Symbol)
    (steps : Nat)
    {C : Chart G}
    {A : Agenda G}
    (hMoment :
      Saturation.Moment ⟨words, start, limit⟩
        (Progress.iterate
          (Saturation.step ⟨words, start, limit⟩) steps
          (Saturation.begin G ⟨words, start, limit⟩)).state
        C A) :
    ∀ x ∈ C.items.toList ++ A.queue,
      x.key.Straddles ∧
        (¬ x.key.IsGoal → x.key.Sought C.items.toList) := by
  intro x hx
  have hKey := hMoment.anchored
    (Saturation.sound_iterate ⟨words, start, limit⟩ steps)
    (Saturation.anchored_iterate ⟨words, start, limit⟩ steps)
    x hx
  exact ⟨hKey.straddles, hKey.sought⟩

/- The first step finds the word `b` as the head of a rule. -/
theorem repeated_anchored :
    ∃ C A,
      Saturation.Moment ⟨["b"], "S", none⟩
          (Progress.iterate
            (Saturation.step ⟨["b"], "S", none⟩) 1
            (Saturation.begin repeated
              ⟨["b"], "S", none⟩)).state C A ∧
        ∃ x ∈ A.queue,
          x.key = .double ⟨0, by decide⟩ 1 2 ⟨0, 1⟩ ∧
            x.key.Straddles ∧
              x.key.Sought C.items.toList := by
  have hKey :
      (.double ⟨0, by decide⟩ 1 2 ⟨0, 1⟩ :
          ItemKey repeated) ∈
        (Progress.iterate (Saturation.step ⟨["b"], "S", none⟩)
          1 (Saturation.begin repeated
            ⟨["b"], "S",
              none⟩)).state.agenda.queue.map Item.key := by
    decide +kernel
  rcases List.mem_map.mp hKey with ⟨x, hx, hSame⟩
  have hBoth := headCorner_anchored repeated "S" none ["b"] 1
    .still x (List.mem_append_right _ hx)
  have hGoal : ¬ x.key.IsGoal := by
    rw [hSame]
    simp [ItemKey.IsGoal]
  exact ⟨_, _, .still, x, hx, hSame, hBoth.1,
    hBoth.2 hGoal⟩

end Grammar

end Constituency
