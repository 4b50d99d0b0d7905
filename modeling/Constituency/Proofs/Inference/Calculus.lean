import Constituency.Parse.Trace
import Constituency.Proofs.Inference.WellFormed
import Constituency.Proofs.Grammar.Lookup

/-
  This file gives the inference steps as a calculus: which
  items follow from an item and a row of known items. The
  rules are those that the steps are described by, without
  the order in which partners are looked up.

  Key definitions include:
    * `Demanded`
    * `Infers`

  Main declarations:
    * `Infers.mono`
    * `Infers.wellFormed`
    * `Infers.stop_le`
-/

namespace Constituency

variable {G : Grammar}

------------------------------------------------------------
-- Rules of Inference
------------------------------------------------------------

/-
  A known goal over the span asks for a symbol of which the
  rule's left-hand side is a head corner.
-/
def Demanded
    (known : List (Item G))
    (r : G.RuleId)
    (span : Span) : Prop :=
  ∃ upper,
    ItemKey.goal upper span ∈ known.map Item.key ∧
      G.isHeadCornerOf (G.rule r).lhs upper = true

/-
  By one step, the first item gives rise to the second one,
  with partners among the known items.
-/
inductive Infers
    (words : List Symbol)
    (known : List (Item G)) :
    Step → Item G → Item G → Prop where
  | predict
      {item : Item G}
      {r : G.RuleId}
      (hNext : item.key.next = some (G.rule r).lhs) :
      Infers words known .predict item
        ⟨.single r 0 ⟨item.stop, item.stop⟩, []⟩
  | scan
      {r : G.RuleId}
      {dot i j : Nat}
      {a : Symbol}
      {children : List (Item G)}
      (hNext : (G.rule r).rhs[dot]? = some a)
      (hTerminal : G.isNonterminal a = false)
      (hWord : words[j]? = some a) :
      Infers words known .scan
        ⟨.single r dot ⟨i, j⟩, children⟩
        ⟨.single r (dot + 1) ⟨i, j + 1⟩, children⟩
  | complete
      {r b : G.RuleId}
      {dot i j k : Nat}
      {before below : List (Item G)}
      (hWaiting :
        ⟨.single r dot ⟨i, j⟩, before⟩ ∈ known)
      (hNext :
        (G.rule r).rhs[dot]? = some (G.rule b).lhs) :
      Infers words known .complete
        ⟨.single b (G.rule b).length ⟨j, k⟩, below⟩
        ⟨.single r (dot + 1) ⟨i, k⟩,
          before ++
            [⟨.single b (G.rule b).length ⟨j, k⟩, below⟩]⟩
  | leftCornerPredict
      {r b : G.RuleId}
      {i j : Nat}
      {waiting : Item G}
      {wanted : Symbol}
      {below : List (Item G)}
      (hWaiting : waiting ∈ known)
      (hStop : waiting.stop = i)
      (hNext : waiting.key.next = some wanted)
      (hCorner :
        G.isLeftCornerOf (G.rule r).lhs wanted = true)
      (hLeftmost :
        (G.rule r).leftmost = some (G.rule b).lhs) :
      Infers words known .leftCornerPredict
        ⟨.single b (G.rule b).length ⟨i, j⟩, below⟩
        ⟨.single r 1 ⟨i, j⟩,
          [⟨.single b (G.rule b).length ⟨i, j⟩, below⟩]⟩
  | leftCornerWord
      {item : Item G}
      {r : G.RuleId}
      {wanted a : Symbol}
      (hNext : item.key.next = some wanted)
      (hCorner :
        G.isLeftCornerOf (G.rule r).lhs wanted = true)
      (hLeftmost : (G.rule r).leftmost = some a)
      (hTerminal : G.isNonterminal a = false)
      (hWord : words[item.stop]? = some a) :
      Infers words known .leftCornerScan item
        ⟨.single r 1 ⟨item.stop, item.stop + 1⟩, []⟩
  | leftCornerEmpty
      {item : Item G}
      {r : G.RuleId}
      {wanted : Symbol}
      (hNext : item.key.next = some wanted)
      (hCorner :
        G.isLeftCornerOf (G.rule r).lhs wanted = true)
      (hEmpty : (G.rule r).rhs = []) :
      Infers words known .leftCornerScan item
        ⟨.single r 0 ⟨item.stop, item.stop⟩, []⟩
  | preComplete
      {r : G.RuleId}
      {span : Span}
      {children : List (Item G)} :
      Infers words known .combine
        ⟨.double r 0 (G.rule r).length span, children⟩
        ⟨.completed r span, children⟩
  | predictLeft
      {r : G.RuleId}
      {left right h i i' j k : Nat}
      {wanted : Symbol}
      {children : List (Item G)}
      (hDemanded : Demanded known r ⟨h, k⟩)
      (hSister : (G.rule r).rhs[left]? = some wanted)
      (hStart : h ≤ i)
      (hSpan : i ≤ i')
      (hStop : i' ≤ j) :
      Infers words known .combine
        ⟨.double r (left + 1) right ⟨j, k⟩, children⟩
        ⟨.goal wanted ⟨i, i'⟩, []⟩
  | predictRight
      {r : G.RuleId}
      {left right i j k k' m : Nat}
      {wanted : Symbol}
      {children : List (Item G)}
      (hDemanded : Demanded known r ⟨i, m⟩)
      (hSister : (G.rule r).rhs[right]? = some wanted)
      (hStart : j ≤ k)
      (hSpan : k ≤ k')
      (hStop : k' ≤ m) :
      Infers words known .combine
        ⟨.double r left right ⟨i, j⟩, children⟩
        ⟨.goal wanted ⟨k, k'⟩, []⟩
  | completeLeft
      {r b : G.RuleId}
      {left right i j k : Nat}
      {children below : List (Item G)}
      (hDemanded : Demanded known r ⟨i, k⟩)
      (hSister :
        (G.rule r).rhs[left]? = some (G.rule b).lhs)
      (hFound : ⟨.completed b ⟨i, j⟩, below⟩ ∈ known) :
      Infers words known .combine
        ⟨.double r (left + 1) right ⟨j, k⟩, children⟩
        ⟨.double r left right ⟨i, k⟩,
          ⟨.completed b ⟨i, j⟩, below⟩ :: children⟩
  | completeRight
      {r b : G.RuleId}
      {left right i j m : Nat}
      {children below : List (Item G)}
      (hDemanded : Demanded known r ⟨i, m⟩)
      (hSister :
        (G.rule r).rhs[right]? = some (G.rule b).lhs)
      (hFound : ⟨.completed b ⟨j, m⟩, below⟩ ∈ known) :
      Infers words known .combine
        ⟨.double r left right ⟨i, j⟩, children⟩
        ⟨.double r left (right + 1) ⟨i, m⟩,
          children ++ [⟨.completed b ⟨j, m⟩, below⟩]⟩
  | scanLeft
      {r : G.RuleId}
      {left right h j k : Nat}
      {a : Symbol}
      {children : List (Item G)}
      (hDemanded : Demanded known r ⟨h, k⟩)
      (hSister : (G.rule r).rhs[left]? = some a)
      (hTerminal : G.isNonterminal a = false)
      (hWord : words[j]? = some a)
      (hStart : h ≤ j) :
      Infers words known .combine
        ⟨.double r (left + 1) right ⟨j + 1, k⟩, children⟩
        ⟨.double r left right ⟨j, k⟩, children⟩
  | scanRight
      {r : G.RuleId}
      {left right i j m : Nat}
      {a : Symbol}
      {children : List (Item G)}
      (hDemanded : Demanded known r ⟨i, m⟩)
      (hSister : (G.rule r).rhs[right]? = some a)
      (hTerminal : G.isNonterminal a = false)
      (hWord : words[j]? = some a)
      (hStop : j < m) :
      Infers words known .combine
        ⟨.double r left right ⟨i, j⟩, children⟩
        ⟨.double r left (right + 1) ⟨i, j + 1⟩, children⟩
  | narrowFirst
      {symbol : Symbol}
      {h k m : Nat}
      {children : List (Item G)}
      (hStart : h ≤ k)
      (hStop : k ≤ m) :
      Infers words known .combine
        ⟨.goal symbol ⟨h, m⟩, children⟩
        ⟨.goal symbol ⟨h, k⟩, []⟩
  | narrowLast
      {symbol : Symbol}
      {h k m : Nat}
      {children : List (Item G)}
      (hStart : h ≤ k)
      (hStop : k ≤ m) :
      Infers words known .combine
        ⟨.goal symbol ⟨h, m⟩, children⟩
        ⟨.goal symbol ⟨k, m⟩, []⟩
  | scanHead
      {r : G.RuleId}
      {symbol a : Symbol}
      {h k m head : Nat}
      {children : List (Item G)}
      (hCorner :
        G.isHeadCornerOf (G.rule r).lhs symbol = true)
      (hHead : (G.rule r).head = some head)
      (hDaughter : (G.rule r).rhs[head]? = some a)
      (hTerminal : G.isNonterminal a = false)
      (hWord : words[k]? = some a)
      (hStart : h ≤ k)
      (hStop : k < m) :
      Infers words known .combine
        ⟨.goal symbol ⟨h, m⟩, children⟩
        ⟨.double r head (head + 1) ⟨k, k + 1⟩, []⟩
  | scanEmpty
      {r : G.RuleId}
      {symbol : Symbol}
      {h k m : Nat}
      {children : List (Item G)}
      (hCorner :
        G.isHeadCornerOf (G.rule r).lhs symbol = true)
      (hEmpty : (G.rule r).rhs = [])
      (hStart : h ≤ k)
      (hStop : k ≤ m) :
      Infers words known .combine
        ⟨.goal symbol ⟨h, m⟩, children⟩
        ⟨.double r 0 0 ⟨k, k⟩, []⟩
  | projectInside
      {r b : G.RuleId}
      {symbol : Symbol}
      {h i j m head : Nat}
      {children below : List (Item G)}
      (hFound : ⟨.completed b ⟨i, j⟩, below⟩ ∈ known)
      (hCorner :
        G.isHeadCornerOf (G.rule r).lhs symbol = true)
      (hHead : (G.rule r).head = some head)
      (hDaughter :
        (G.rule r).rhs[head]? = some (G.rule b).lhs)
      (hStart : h ≤ i)
      (hStop : j ≤ m) :
      Infers words known .combine
        ⟨.goal symbol ⟨h, m⟩, children⟩
        ⟨.double r head (head + 1) ⟨i, j⟩,
          [⟨.completed b ⟨i, j⟩, below⟩]⟩
  | projectUp
      {r b : G.RuleId}
      {symbol : Symbol}
      {h i j m head : Nat}
      {below : List (Item G)}
      (hGoal :
        ItemKey.goal symbol ⟨h, m⟩ ∈ known.map Item.key)
      (hCorner :
        G.isHeadCornerOf (G.rule r).lhs symbol = true)
      (hHead : (G.rule r).head = some head)
      (hDaughter :
        (G.rule r).rhs[head]? = some (G.rule b).lhs)
      (hStart : h ≤ i)
      (hStop : j ≤ m) :
      Infers words known .combine
        ⟨.completed b ⟨i, j⟩, below⟩
        ⟨.double r head (head + 1) ⟨i, j⟩,
          [⟨.completed b ⟨i, j⟩, below⟩]⟩

variable {words : List Symbol}
variable {known more : List (Item G)}

------------------------------------------------------------
-- More Known Items
------------------------------------------------------------

theorem Demanded.mono
    (hKnown : known ⊆ more)
    {r : G.RuleId}
    {span : Span}
    (hDemanded : Demanded known r span) :
    Demanded more r span := by
  rcases hDemanded with ⟨upper, hGoal, hCorner⟩
  exact ⟨upper, List.map_subset _ hKnown hGoal, hCorner⟩

namespace Infers

variable {step : Step}
variable {item new : Item G}

/- What follows keeps following when more is known. -/
theorem mono
    (hKnown : known ⊆ more)
    (hInfers : Infers words known step item new) :
    Infers words more step item new := by
  cases hInfers with
  | predict hNext => exact .predict hNext
  | scan hNext hTerminal hWord =>
      exact .scan hNext hTerminal hWord
  | complete hWaiting hNext =>
      exact .complete (hKnown hWaiting) hNext
  | leftCornerPredict hWaiting hStop hNext hCorner hLeft =>
      exact .leftCornerPredict (hKnown hWaiting) hStop hNext
        hCorner hLeft
  | leftCornerWord hNext hCorner hLeft hTerminal hWord =>
      exact .leftCornerWord hNext hCorner hLeft hTerminal
        hWord
  | leftCornerEmpty hNext hCorner hEmpty =>
      exact .leftCornerEmpty hNext hCorner hEmpty
  | preComplete => exact .preComplete
  | predictLeft hDemanded hSister hStart hSpan hStop =>
      exact .predictLeft (hDemanded.mono hKnown) hSister
        hStart hSpan hStop
  | predictRight hDemanded hSister hStart hSpan hStop =>
      exact .predictRight (hDemanded.mono hKnown) hSister
        hStart hSpan hStop
  | completeLeft hDemanded hSister hFound =>
      exact .completeLeft (hDemanded.mono hKnown) hSister
        (hKnown hFound)
  | completeRight hDemanded hSister hFound =>
      exact .completeRight (hDemanded.mono hKnown) hSister
        (hKnown hFound)
  | scanLeft hDemanded hSister hTerminal hWord hStart =>
      exact .scanLeft (hDemanded.mono hKnown) hSister
        hTerminal hWord hStart
  | scanRight hDemanded hSister hTerminal hWord hStop =>
      exact .scanRight (hDemanded.mono hKnown) hSister
        hTerminal hWord hStop
  | narrowFirst hStart hStop =>
      exact .narrowFirst hStart hStop
  | narrowLast hStart hStop =>
      exact .narrowLast hStart hStop
  | scanHead hCorner hHead hDaughter hTerminal hWord hStart
      hStop =>
      exact .scanHead hCorner hHead hDaughter hTerminal hWord
        hStart hStop
  | scanEmpty hCorner hEmpty hStart hStop =>
      exact .scanEmpty hCorner hEmpty hStart hStop
  | projectInside hFound hCorner hHead hDaughter hStart
      hStop =>
      exact .projectInside (hKnown hFound) hCorner hHead
        hDaughter hStart hStop
  | projectUp hGoal hCorner hHead hDaughter hStart hStop =>
      exact .projectUp (List.map_subset _ hKnown hGoal)
        hCorner hHead hDaughter hStart hStop

------------------------------------------------------------
-- Well-Formed Items
------------------------------------------------------------

/- A goal that demands is one of the known items. -/
theorem exists_of_demanded
    {r : G.RuleId}
    {i j : Nat}
    (hDemanded : Demanded known r ⟨i, j⟩) :
    ∃ goal ∈ known, ∃ upper,
      goal.key = .goal upper ⟨i, j⟩ := by
  rcases hDemanded with ⟨upper, hGoal, _⟩
  rcases List.mem_map.mp hGoal with ⟨goal, hKnown, hKey⟩
  exact ⟨goal, hKnown, upper, hKey⟩

/- The span of a demand is not reversed. -/
theorem le_of_demanded
    (hWellFormed : ∀ x ∈ known, x.key.WellFormed)
    {r : G.RuleId}
    {i j : Nat}
    (hDemanded : Demanded known r ⟨i, j⟩) :
    i ≤ j := by
  rcases exists_of_demanded hDemanded with
    ⟨goal, hKnown, upper, hKey⟩
  have hGoal := hWellFormed goal hKnown
  rwa [hKey, ItemKey.wellFormed_goal_iff] at hGoal

/- From well-formed items only well-formed items follow. -/
theorem wellFormed
    (hWellFormed : ∀ x ∈ known, x.key.WellFormed)
    (hItem : item.key.WellFormed)
    (hInfers : Infers words known step item new) :
    new.key.WellFormed := by
  have hLookup :
      ∀ (r : G.RuleId) {dot : Nat} {symbol : Symbol},
        (G.rule r).rhs[dot]? = some symbol →
          dot < (G.rule r).length :=
    fun r _ _ hNext => (List.getElem?_eq_some_iff.mp hNext).1
  cases hInfers with
  | predict hNext => simp
  | @scan r dot i j a children hNext hTerminal hWord =>
      have hDot := hLookup r hNext
      simp only [ItemKey.wellFormed_single_iff] at hItem ⊢
      omega
  | @complete r b dot i j k before below hWaiting hNext =>
      have hDot := hLookup r hNext
      have hBefore := hWellFormed _ hWaiting
      simp only [ItemKey.wellFormed_single_iff]
        at hItem hBefore ⊢
      omega
  | @leftCornerPredict r b i j waiting wanted below hWaiting
      hStop hNext hCorner hLeft =>
      have hDot : 0 < (G.rule r).length :=
        hLookup r (by
          rw [← List.head?_eq_getElem?]
          exact hLeft)
      simp only [ItemKey.wellFormed_single_iff] at hItem ⊢
      omega
  | @leftCornerWord item r wanted a hNext hCorner hLeft
      hTerminal hWord =>
      have hDot : 0 < (G.rule r).length :=
        hLookup r (by
          rw [← List.head?_eq_getElem?]
          exact hLeft)
      simp only [ItemKey.wellFormed_single_iff]
      omega
  | leftCornerEmpty hNext hCorner hEmpty => simp
  | @preComplete r span children =>
      exact ItemKey.wellFormed_completed_iff.mpr
        hItem.start_le_stop
  | predictLeft hDemanded hSister hStart hSpan hStop =>
      exact ItemKey.wellFormed_goal_iff.mpr hSpan
  | predictRight hDemanded hSister hStart hSpan hStop =>
      exact ItemKey.wellFormed_goal_iff.mpr hSpan
  | completeLeft hDemanded hSister hFound =>
      have hSpan := le_of_demanded hWellFormed hDemanded
      simp only [ItemKey.wellFormed_double_iff] at hItem ⊢
      omega
  | @completeRight r b left right i j m children below
      hDemanded hSister hFound =>
      have hSpan := le_of_demanded hWellFormed hDemanded
      have hDot := hLookup r hSister
      simp only [ItemKey.wellFormed_double_iff] at hItem ⊢
      omega
  | scanLeft hDemanded hSister hTerminal hWord hStart =>
      simp only [ItemKey.wellFormed_double_iff] at hItem ⊢
      omega
  | @scanRight r left right i j m a children hDemanded
      hSister hTerminal hWord hStop =>
      have hDot := hLookup r hSister
      simp only [ItemKey.wellFormed_double_iff] at hItem ⊢
      omega
  | narrowFirst hStart hStop =>
      exact ItemKey.wellFormed_goal_iff.mpr hStart
  | narrowLast hStart hStop =>
      exact ItemKey.wellFormed_goal_iff.mpr hStop
  | @scanHead r symbol a h k m head children hCorner hHead
      hDaughter hTerminal hWord hStart hStop =>
      have hDot := hLookup r hDaughter
      simp only [ItemKey.wellFormed_double_iff]
      omega
  | scanEmpty hCorner hEmpty hStart hStop => simp
  | @projectInside r b symbol h i j m head children below
      hFound hCorner hHead hDaughter hStart hStop =>
      have hDot := hLookup r hDaughter
      have hSpan := hWellFormed _ hFound
      simp only [ItemKey.wellFormed_completed_iff,
        ItemKey.wellFormed_double_iff] at hSpan ⊢
      omega
  | @projectUp r b symbol h i j m head below hGoal hCorner
      hHead hDaughter hStart hStop =>
      have hDot := hLookup r hDaughter
      simp only [ItemKey.wellFormed_completed_iff,
        ItemKey.wellFormed_double_iff] at hItem ⊢
      omega

------------------------------------------------------------
-- Ends of Items
------------------------------------------------------------

/-
  Nothing that follows ends behind the last word when no item
  does.
-/
theorem stop_le
    (hStops : ∀ x ∈ known, x.stop ≤ words.length)
    (hItem : item.key.WellFormed)
    (hStop : item.stop ≤ words.length)
    (hInfers : Infers words known step item new) :
    new.stop ≤ words.length := by
  have hLookup :
      ∀ {j : Nat} {a : Symbol},
        words[j]? = some a → j < words.length :=
    fun hWord => (List.getElem?_eq_some_iff.mp hWord).1
  have hGoals :
      ∀ (r : G.RuleId) {i j : Nat},
        Demanded known r ⟨i, j⟩ → j ≤ words.length := by
    intro r i j hDemanded
    rcases exists_of_demanded hDemanded with
      ⟨goal, hKnown, upper, hKey⟩
    have hGoal := hStops goal hKnown
    rwa [Item.stop, hKey] at hGoal
  have hStart := hItem.start_le_stop
  cases hInfers with
  | predict => exact hStop
  | scan _ _ hWord => exact hLookup hWord
  | complete => exact hStop
  | leftCornerPredict => exact hStop
  | leftCornerWord _ _ _ _ hWord => exact hLookup hWord
  | leftCornerEmpty => exact hStop
  | preComplete => exact hStop
  | predictLeft _ _ _ _ hBound =>
      simp only [Item.stop, ItemKey.span] at hStart hStop ⊢
      omega
  | @predictRight r _ _ _ _ _ _ _ _ _ hDemanded _ _ _
      hBound =>
      exact Nat.le_trans hBound (hGoals r hDemanded)
  | completeLeft => exact hStop
  | @completeRight r _ _ _ _ _ _ _ _ hDemanded =>
      exact hGoals r hDemanded
  | scanLeft => exact hStop
  | scanRight _ _ _ hWord => exact hLookup hWord
  | narrowFirst _ hBound => exact Nat.le_trans hBound hStop
  | narrowLast => exact hStop
  | scanHead _ _ _ _ hWord => exact hLookup hWord
  | scanEmpty _ _ _ hBound => exact Nat.le_trans hBound hStop
  | projectInside hFound =>
      have hBound := hStops _ hFound
      exact hBound
  | projectUp => exact hStop

/-
  Sweeping steps only find items that end where the first
  item ends, or later.
-/
theorem stop_le_stop
    (hStep : step ≠ .combine)
    (hInfers : Infers words known step item new) :
    item.stop ≤ new.stop := by
  cases hInfers with
  | predict => exact Nat.le_refl _
  | scan => exact Nat.le_succ _
  | complete => exact Nat.le_refl _
  | leftCornerPredict => exact Nat.le_refl _
  | leftCornerWord => exact Nat.le_succ _
  | leftCornerEmpty => exact Nat.le_refl _
  | _ => exact absurd rfl hStep

/-
  A sweeping step finds its partners among the items that end
  where the first item starts, and only complete items look
  for partners.
-/
theorem of_endingAt
    (hStep : step ≠ .combine)
    (hKnown : item.key.isComplete = true →
      ∀ x ∈ more, x.stop = item.start → x ∈ known)
    (hInfers : Infers words more step item new) :
    Infers words known step item new := by
  cases hInfers with
  | predict hNext => exact .predict hNext
  | scan hNext hTerminal hWord =>
      exact .scan hNext hTerminal hWord
  | complete hWaiting hNext =>
      have hComplete := hKnown (by simp [ItemKey.isComplete])
      exact .complete (hComplete _ hWaiting rfl) hNext
  | leftCornerPredict hWaiting hStop hNext hCorner hLeft =>
      have hComplete := hKnown (by simp [ItemKey.isComplete])
      exact .leftCornerPredict (hComplete _ hWaiting hStop)
        hStop hNext hCorner hLeft
  | leftCornerWord hNext hCorner hLeft hTerminal hWord =>
      exact .leftCornerWord hNext hCorner hLeft hTerminal
        hWord
  | leftCornerEmpty hNext hCorner hEmpty =>
      exact .leftCornerEmpty hNext hCorner hEmpty
  | _ => exact absurd rfl hStep

end Infers

end Constituency
