import Constituency.Proofs.Inference.Deduction

/-
  This file gives the inference rules of a closure in terms
  of keys: whenever the premises of a rule are among the
  keys of the closure, so is its conclusion.

  Main declarations:
    * `Closure.predict`
    * `Closure.scan`
    * `Closure.complete`
    * `Closure.leftCornerPredict`
    * `Closure.completeLeft`
    * `Closure.completeRight`
    * `Closure.narrow`
    * `Closure.project`
-/

namespace Constituency

namespace Closure

variable {G : Grammar}
variable {words : List Symbol}
variable {steps : List Step}
variable {seeds items : List (Item G)}

/- Every key belongs to an item. -/
theorem exists_item
    {key : ItemKey G}
    (hKey : key ∈ items.map Item.key) :
    ∃ children, ⟨key, children⟩ ∈ items := by
  rcases List.mem_map.mp hKey with
    ⟨⟨_, children⟩, hItem, rfl⟩
  exact ⟨children, hItem⟩

------------------------------------------------------------
-- Single Dots
------------------------------------------------------------

theorem predict
    (hClosure : Closure words steps seeds items)
    (hStep : Step.predict ∈ steps)
    {r b : G.RuleId}
    {dot i j : Nat}
    (hKey : .single r dot ⟨i, j⟩ ∈ items.map Item.key)
    (hNext : (G.rule r).rhs[dot]? = some (G.rule b).lhs) :
    .single b 0 ⟨j, j⟩ ∈ items.map Item.key := by
  rcases exists_item hKey with ⟨children, hItem⟩
  exact hClosure.key_mem hStep hItem (.predict hNext)

theorem scan
    (hClosure : Closure words steps seeds items)
    (hStep : Step.scan ∈ steps)
    {r : G.RuleId}
    {dot i j : Nat}
    {a : Symbol}
    (hKey : .single r dot ⟨i, j⟩ ∈ items.map Item.key)
    (hNext : (G.rule r).rhs[dot]? = some a)
    (hTerminal : G.isNonterminal a = false)
    (hWord : words[j]? = some a) :
    .single r (dot + 1) ⟨i, j + 1⟩ ∈
      items.map Item.key := by
  rcases exists_item hKey with ⟨children, hItem⟩
  exact hClosure.key_mem hStep hItem
    (.scan hNext hTerminal hWord)

theorem complete
    (hClosure : Closure words steps seeds items)
    (hStep : Step.complete ∈ steps)
    {r b : G.RuleId}
    {dot i j k : Nat}
    (hWaiting : .single r dot ⟨i, j⟩ ∈ items.map Item.key)
    (hNext : (G.rule r).rhs[dot]? = some (G.rule b).lhs)
    (hFound :
      .single b (G.rule b).length ⟨j, k⟩ ∈
        items.map Item.key) :
    .single r (dot + 1) ⟨i, k⟩ ∈ items.map Item.key := by
  rcases exists_item hWaiting with ⟨before, hBefore⟩
  rcases exists_item hFound with ⟨below, hItem⟩
  exact hClosure.key_mem hStep hItem
    (.complete hBefore hNext)

theorem leftCornerPredict
    (hClosure : Closure words steps seeds items)
    (hStep : Step.leftCornerPredict ∈ steps)
    {r b q : G.RuleId}
    {dot h i j : Nat}
    {wanted : Symbol}
    (hWaiting : .single q dot ⟨h, i⟩ ∈ items.map Item.key)
    (hWanted : (G.rule q).rhs[dot]? = some wanted)
    (hCorner : G.isLeftCornerOf (G.rule r).lhs wanted = true)
    (hLeftmost :
      (G.rule r).leftmost = some (G.rule b).lhs)
    (hFound :
      .single b (G.rule b).length ⟨i, j⟩ ∈
        items.map Item.key) :
    .single r 1 ⟨i, j⟩ ∈ items.map Item.key := by
  rcases exists_item hWaiting with ⟨before, hBefore⟩
  rcases exists_item hFound with ⟨below, hItem⟩
  exact hClosure.key_mem hStep hItem
    (.leftCornerPredict hBefore rfl hWanted hCorner
      hLeftmost)

theorem leftCornerWord
    (hClosure : Closure words steps seeds items)
    (hStep : Step.leftCornerScan ∈ steps)
    {r q : G.RuleId}
    {dot h i : Nat}
    {wanted a : Symbol}
    (hWaiting : .single q dot ⟨h, i⟩ ∈ items.map Item.key)
    (hWanted : (G.rule q).rhs[dot]? = some wanted)
    (hCorner : G.isLeftCornerOf (G.rule r).lhs wanted = true)
    (hLeftmost : (G.rule r).leftmost = some a)
    (hTerminal : G.isNonterminal a = false)
    (hWord : words[i]? = some a) :
    .single r 1 ⟨i, i + 1⟩ ∈ items.map Item.key := by
  rcases exists_item hWaiting with ⟨before, hItem⟩
  have hInfers :
      Infers words items .leftCornerScan
        ⟨.single q dot ⟨h, i⟩, before⟩
        ⟨.single r 1 ⟨i, i + 1⟩, []⟩ :=
    .leftCornerWord hWanted hCorner hLeftmost hTerminal hWord
  exact hClosure.key_mem hStep hItem hInfers

theorem leftCornerEmpty
    (hClosure : Closure words steps seeds items)
    (hStep : Step.leftCornerScan ∈ steps)
    {r q : G.RuleId}
    {dot h i : Nat}
    {wanted : Symbol}
    (hWaiting : .single q dot ⟨h, i⟩ ∈ items.map Item.key)
    (hWanted : (G.rule q).rhs[dot]? = some wanted)
    (hCorner : G.isLeftCornerOf (G.rule r).lhs wanted = true)
    (hEmpty : (G.rule r).rhs = []) :
    .single r 0 ⟨i, i⟩ ∈ items.map Item.key := by
  rcases exists_item hWaiting with ⟨before, hItem⟩
  have hInfers :
      Infers words items .leftCornerScan
        ⟨.single q dot ⟨h, i⟩, before⟩
        ⟨.single r 0 ⟨i, i⟩, []⟩ :=
    .leftCornerEmpty hWanted hCorner hEmpty
  exact hClosure.key_mem hStep hItem hInfers

------------------------------------------------------------
-- Growth from Heads
------------------------------------------------------------

variable
  (hClosure : Closure words [.combine] seeds items)

include hClosure

theorem preComplete
    {r : G.RuleId}
    {span : Span}
    (hKey :
      .double r 0 (G.rule r).length span ∈
        items.map Item.key) :
    .completed r span ∈ items.map Item.key := by
  rcases exists_item hKey with ⟨children, hItem⟩
  have hInfers :
      Infers words items .combine
        ⟨.double r 0 (G.rule r).length span, children⟩
        ⟨.completed r span, children⟩ := .preComplete
  exact hClosure.key_mem List.mem_cons_self hItem hInfers

theorem predictLeft
    {r : G.RuleId}
    {left right h i i' j k : Nat}
    {wanted : Symbol}
    (hKey :
      .double r (left + 1) right ⟨j, k⟩ ∈
        items.map Item.key)
    (hDemanded : Demanded items r ⟨h, k⟩)
    (hSister : (G.rule r).rhs[left]? = some wanted)
    (hStart : h ≤ i)
    (hSpan : i ≤ i')
    (hStop : i' ≤ j) :
    .goal wanted ⟨i, i'⟩ ∈ items.map Item.key := by
  rcases exists_item hKey with ⟨children, hItem⟩
  exact hClosure.key_mem List.mem_cons_self hItem
    (.predictLeft hDemanded hSister hStart hSpan hStop)

theorem predictRight
    {r : G.RuleId}
    {left right i j k k' m : Nat}
    {wanted : Symbol}
    (hKey :
      .double r left right ⟨i, j⟩ ∈ items.map Item.key)
    (hDemanded : Demanded items r ⟨i, m⟩)
    (hSister : (G.rule r).rhs[right]? = some wanted)
    (hStart : j ≤ k)
    (hSpan : k ≤ k')
    (hStop : k' ≤ m) :
    .goal wanted ⟨k, k'⟩ ∈ items.map Item.key := by
  rcases exists_item hKey with ⟨children, hItem⟩
  exact hClosure.key_mem List.mem_cons_self hItem
    (.predictRight hDemanded hSister hStart hSpan hStop)

theorem completeLeft
    {r b : G.RuleId}
    {left right i j k : Nat}
    (hKey :
      .double r (left + 1) right ⟨j, k⟩ ∈
        items.map Item.key)
    (hDemanded : Demanded items r ⟨i, k⟩)
    (hSister :
      (G.rule r).rhs[left]? = some (G.rule b).lhs)
    (hFound : .completed b ⟨i, j⟩ ∈ items.map Item.key) :
    .double r left right ⟨i, k⟩ ∈ items.map Item.key := by
  rcases exists_item hKey with ⟨children, hItem⟩
  rcases exists_item hFound with ⟨below, hBelow⟩
  exact hClosure.key_mem List.mem_cons_self hItem
    (.completeLeft hDemanded hSister hBelow)

theorem completeRight
    {r b : G.RuleId}
    {left right i j m : Nat}
    (hKey :
      .double r left right ⟨i, j⟩ ∈ items.map Item.key)
    (hDemanded : Demanded items r ⟨i, m⟩)
    (hSister :
      (G.rule r).rhs[right]? = some (G.rule b).lhs)
    (hFound : .completed b ⟨j, m⟩ ∈ items.map Item.key) :
    .double r left (right + 1) ⟨i, m⟩ ∈
      items.map Item.key := by
  rcases exists_item hKey with ⟨children, hItem⟩
  rcases exists_item hFound with ⟨below, hBelow⟩
  exact hClosure.key_mem List.mem_cons_self hItem
    (.completeRight hDemanded hSister hBelow)

theorem scanLeft
    {r : G.RuleId}
    {left right h j k : Nat}
    {a : Symbol}
    (hKey :
      .double r (left + 1) right ⟨j + 1, k⟩ ∈
        items.map Item.key)
    (hDemanded : Demanded items r ⟨h, k⟩)
    (hSister : (G.rule r).rhs[left]? = some a)
    (hTerminal : G.isNonterminal a = false)
    (hWord : words[j]? = some a)
    (hStart : h ≤ j) :
    .double r left right ⟨j, k⟩ ∈ items.map Item.key := by
  rcases exists_item hKey with ⟨children, hItem⟩
  exact hClosure.key_mem List.mem_cons_self hItem
    (.scanLeft hDemanded hSister hTerminal hWord hStart)

theorem scanRight
    {r : G.RuleId}
    {left right i j m : Nat}
    {a : Symbol}
    (hKey :
      .double r left right ⟨i, j⟩ ∈ items.map Item.key)
    (hDemanded : Demanded items r ⟨i, m⟩)
    (hSister : (G.rule r).rhs[right]? = some a)
    (hTerminal : G.isNonterminal a = false)
    (hWord : words[j]? = some a)
    (hStop : j < m) :
    .double r left (right + 1) ⟨i, j + 1⟩ ∈
      items.map Item.key := by
  rcases exists_item hKey with ⟨children, hItem⟩
  exact hClosure.key_mem List.mem_cons_self hItem
    (.scanRight hDemanded hSister hTerminal hWord hStop)

------------------------------------------------------------
-- Goals
------------------------------------------------------------

/- A goal demands the same over every part of its span. -/
theorem narrow
    {symbol : Symbol}
    {h i j m : Nat}
    (hKey : .goal symbol ⟨h, m⟩ ∈ items.map Item.key)
    (hStart : h ≤ i)
    (hSpan : i ≤ j)
    (hStop : j ≤ m) :
    .goal symbol ⟨i, j⟩ ∈ items.map Item.key := by
  rcases exists_item hKey with ⟨children, hItem⟩
  have hLast :
      .goal symbol ⟨i, m⟩ ∈ items.map Item.key :=
    hClosure.key_mem List.mem_cons_self hItem
      (.narrowLast hStart (Nat.le_trans hSpan hStop))
  rcases exists_item hLast with ⟨others, hOther⟩
  exact hClosure.key_mem List.mem_cons_self hOther
    (.narrowFirst hSpan hStop)

theorem scanHead
    {r : G.RuleId}
    {symbol a : Symbol}
    {h k m head : Nat}
    (hKey : .goal symbol ⟨h, m⟩ ∈ items.map Item.key)
    (hCorner :
      G.isHeadCornerOf (G.rule r).lhs symbol = true)
    (hHead : (G.rule r).head = some head)
    (hDaughter : (G.rule r).rhs[head]? = some a)
    (hTerminal : G.isNonterminal a = false)
    (hWord : words[k]? = some a)
    (hStart : h ≤ k)
    (hStop : k < m) :
    .double r head (head + 1) ⟨k, k + 1⟩ ∈
      items.map Item.key := by
  rcases exists_item hKey with ⟨children, hItem⟩
  exact hClosure.key_mem List.mem_cons_self hItem
    (.scanHead hCorner hHead hDaughter hTerminal hWord
      hStart hStop)

theorem scanEmpty
    {r : G.RuleId}
    {symbol : Symbol}
    {h k m : Nat}
    (hKey : .goal symbol ⟨h, m⟩ ∈ items.map Item.key)
    (hCorner :
      G.isHeadCornerOf (G.rule r).lhs symbol = true)
    (hEmpty : (G.rule r).rhs = [])
    (hStart : h ≤ k)
    (hStop : k ≤ m) :
    .double r 0 0 ⟨k, k⟩ ∈ items.map Item.key := by
  rcases exists_item hKey with ⟨children, hItem⟩
  exact hClosure.key_mem List.mem_cons_self hItem
    (.scanEmpty hCorner hEmpty hStart hStop)

theorem project
    {r b : G.RuleId}
    {symbol : Symbol}
    {h i j m head : Nat}
    (hKey : .goal symbol ⟨h, m⟩ ∈ items.map Item.key)
    (hFound : .completed b ⟨i, j⟩ ∈ items.map Item.key)
    (hCorner :
      G.isHeadCornerOf (G.rule r).lhs symbol = true)
    (hHead : (G.rule r).head = some head)
    (hDaughter :
      (G.rule r).rhs[head]? = some (G.rule b).lhs)
    (hStart : h ≤ i)
    (hStop : j ≤ m) :
    .double r head (head + 1) ⟨i, j⟩ ∈
      items.map Item.key := by
  rcases exists_item hKey with ⟨children, hItem⟩
  rcases exists_item hFound with ⟨below, hBelow⟩
  exact hClosure.key_mem List.mem_cons_self hItem
    (.projectInside hBelow hCorner hHead hDaughter hStart
      hStop)

end Closure

end Constituency
