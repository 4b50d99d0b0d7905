import Constituency.Item.Basic

/-
  This file says which keys items can be made with, and when
  moving a dot makes an item.

  Key definitions include:
    * `ItemKey.WellFormed`

  Main declarations:
    * `ItemKey.wellFormed_single_iff`
    * `ItemKey.wellFormed_double_iff`
    * `Item.create_eq_ok_iff`
    * `Item.growRight_of_lt`
-/

namespace Constituency

variable {G : Grammar}

namespace ItemKey

/- Nothing is wrong with the key. -/
def WellFormed
    (key : ItemKey G) : Prop :=
  key.fault = none

/- The span and the dots are each in order. -/
theorem wellFormed_iff
    {key : ItemKey G} :
    key.WellFormed ↔
      key.span.start ≤ key.span.stop ∧
        key.dotFault = none := by
  unfold WellFormed fault
  split
  · rename_i hReversed
    simp only [reduceCtorEq, false_iff, not_and]
    intro hSpan
    omega
  · rename_i hSpan
    rw [iff_and_self]
    intro _
    omega

/- The span of a well-formed key is not reversed. -/
theorem WellFormed.start_le_stop
    {key : ItemKey G}
    (hKey : key.WellFormed) :
    key.span.start ≤ key.span.stop :=
  (wellFormed_iff.mp hKey).1

@[simp] theorem wellFormed_single_iff
    {r : G.RuleId}
    {dot i j : Nat} :
    (single r dot ⟨i, j⟩ : ItemKey G).WellFormed ↔
      i ≤ j ∧ dot ≤ (G.rule r).length := by
  rw [wellFormed_iff]
  apply and_congr_right
  intro _
  unfold dotFault
  by_cases hDot : (G.rule r).length < dot
  · simp [hDot]
  · simp [hDot, Nat.le_of_not_lt hDot]

@[simp] theorem wellFormed_double_iff
    {r : G.RuleId}
    {left right i j : Nat} :
    (double r left right ⟨i, j⟩ : ItemKey G).WellFormed ↔
      i ≤ j ∧ left ≤ right ∧ right ≤ (G.rule r).length := by
  rw [wellFormed_iff]
  apply and_congr_right
  intro _
  unfold dotFault
  by_cases hRight : (G.rule r).length < right
  · simp [hRight]
  · by_cases hLeft : right < left
    · simp [hRight, hLeft]
    · simp [hRight, hLeft, Nat.le_of_not_lt hRight,
        Nat.le_of_not_lt hLeft]

@[simp] theorem wellFormed_goal_iff
    {symbol : Symbol}
    {i j : Nat} :
    (goal symbol ⟨i, j⟩ : ItemKey G).WellFormed ↔
      i ≤ j := by
  rw [wellFormed_iff]
  simp [dotFault, span]

@[simp] theorem wellFormed_completed_iff
    {r : G.RuleId}
    {i j : Nat} :
    (completed r ⟨i, j⟩ : ItemKey G).WellFormed ↔
      i ≤ j := by
  rw [wellFormed_iff]
  simp [dotFault, span]

end ItemKey

namespace Item

/- An item is made exactly when its key is well-formed. -/
theorem create_eq_ok_iff
    {key : ItemKey G}
    {children : List (Item G)}
    {item : Item G} :
    create key children = .ok item ↔
      key.WellFormed ∧ item = ⟨key, children⟩ := by
  unfold create ItemKey.WellFormed
  cases key.fault with
  | some error => simp
  | none => simp [eq_comm]

theorem create_of_wellFormed
    {key : ItemKey G}
    (hKey : key.WellFormed)
    (children : List (Item G)) :
    create key children = .ok ⟨key, children⟩ :=
  create_eq_ok_iff.mpr ⟨hKey, rfl⟩

/- The right dot moves unless it has reached the end. -/
theorem growRight_of_lt
    {r : G.RuleId}
    {right : Nat}
    (hRight : right < (G.rule r).length)
    (left : Nat)
    (span : Span)
    (children : List (Item G))
    (found : Item G) :
    growRight r left right span children found =
      .ok ⟨.double r left (right + 1)
        ⟨span.start, found.stop⟩, children ++ [found]⟩ := by
  unfold growRight
  rw [if_neg (Nat.ne_of_lt hRight)]

end Item

end Constituency
