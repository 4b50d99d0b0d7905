import Constituency.Proofs.Derivation.Reach
import Constituency.Proofs.Grammar.Closure
import Constituency.Proofs.Parse.Sweep

/-
  This file shows that sweeping finds nothing that is not
  foreseen: the left-hand side of an item with one dot comes
  up from the start symbol where the item starts, and the
  daughters before the dot yield the words it lies over.

  Key definitions include:
    * `Grammar.IsForeseen`

  Main declarations:
    * `Grammar.Reaches.leftCorner`
    * `Grammar.isForeseen_iff`
    * `Deduction.foreseen`
-/

namespace Constituency

variable {G : Grammar}
variable {words : List Symbol}
variable {start : Symbol}

namespace Grammar

/-
  The left-hand side comes up at the start of the span, and
  the daughters before the dot yield the words in it.
-/
def IsForeseen
    (G : Grammar)
    (words : List Symbol)
    (start : Symbol)
    (r : G.RuleId)
    (dot : Nat)
    (span : Span) : Prop :=
  G.Reaches words start 0 (G.rule r).lhs span.start ∧
    G.YieldsOver words ((G.rule r).rhs.take dot)
      span.start span.stop

/- Left corners come up where the symbol above them does. -/
theorem Reaches.leftCorner
    {origin i : Nat}
    {lower upper : Symbol}
    (hUpper : G.Reaches words start origin upper i)
    (hCorner : G.IsLeftCorner lower upper) :
    G.Reaches words start origin lower i := by
  induction hCorner with
  | refl => exact hUpper
  | tail _ hDaughter ih =>
      rcases hDaughter with ⟨r, rfl, hLeftmost⟩
      exact ih.leftmost r hLeftmost

namespace IsForeseen

variable {r b : G.RuleId}
variable {dot i j k : Nat}
variable {A : Symbol}

/- What an item waits for comes up where the item ends. -/
theorem reaches
    (hItem : G.IsForeseen words start r dot ⟨i, j⟩)
    (hNext : (G.rule r).rhs[dot]? = some A) :
    G.Reaches words start 0 A j :=
  .daughter r hItem.1 hItem.2 hNext

/- An item before all daughters is foreseen. -/
theorem first
    (hReaches :
      G.Reaches words start 0 (G.rule r).lhs i) :
    G.IsForeseen words start r 0 ⟨i, i⟩ :=
  ⟨hReaches, .nil i⟩

/- The dot moves over what the next daughter yields. -/
theorem next
    (hItem : G.IsForeseen words start r dot ⟨i, j⟩)
    (hNext : (G.rule r).rhs[dot]? = some A)
    (hDaughter : G.YieldsOver words [A] j k) :
    G.IsForeseen words start r (dot + 1) ⟨i, k⟩ :=
  ⟨hItem.1, hItem.2.take_succ hNext hDaughter⟩

/- A complete item yields a constituent. -/
theorem constituent
    (hItem :
      G.IsForeseen words start b (G.rule b).length ⟨i, j⟩) :
    G.YieldsOver words [(G.rule b).lhs] i j := by
  have hAll := hItem.2
  rw [Rule.length, List.take_length] at hAll
  exact .nonterminal b hAll

end IsForeseen

/-
  An item is foreseen when, in some sentential form, its
  left-hand side follows the words before the item, and its
  first daughters yield the words that the item lies over.
-/
theorem isForeseen_iff
    (hStart : G.isNonterminal start = true)
    {r : G.RuleId}
    {dot i j : Nat} :
    G.IsForeseen words start r dot ⟨i, j⟩ ↔
      i ≤ j ∧ j ≤ words.length ∧
        (∃ rest, (G.contextFree start).Generates
          (wordLetters (words.take i) ++
            Symbol.nonterminal (G.rule r).lhs :: rest)) ∧
        G.Yields ((G.rule r).rhs.take dot)
          (words.extract i j) := by
  have hLhs := G.isNonterminal_lhs r
  constructor
  · rintro ⟨hReaches, hBefore⟩
    have hStartsIn := hReaches.le_length (Nat.zero_le _)
    refine ⟨hBefore.le, hBefore.le_length hStartsIn, ?_,
      hBefore.yields⟩
    exact (reaches_iff_generates hStart hLhs hStartsIn).mp
      hReaches
  · rintro ⟨hSpan, hStop, hGenerates, hBefore⟩
    have hStartsIn := Nat.le_trans hSpan hStop
    exact
      ⟨(reaches_iff_generates hStart hLhs hStartsIn).mpr
        hGenerates,
        (yieldsOver_iff_yields hSpan hStop).mpr hBefore⟩

end Grammar

/- Only items with one dot wait for a symbol. -/
theorem ItemKey.exists_of_next
    {key : ItemKey G}
    {wanted : Symbol}
    (hNext : key.next = some wanted) :
    ∃ r dot i j, key = .single r dot ⟨i, j⟩ ∧
      (G.rule r).rhs[dot]? = some wanted := by
  cases key with
  | single r dot span =>
      exact ⟨r, dot, span.start, span.stop, rfl, hNext⟩
  | double r left right span => cases hNext
  | goal symbol span => cases hNext
  | completed r span => cases hNext

/- Every item with one dot in the row is foreseen. -/
def AllForeseen
    (words : List Symbol)
    (start : Symbol)
    (items : List (Item G)) : Prop :=
  ∀ x ∈ items, ∀ r dot span, x.key = .single r dot span →
    G.IsForeseen words start r dot span

namespace Infers

variable {known : List (Item G)}
variable {step : Step}
variable {item new : Item G}

/- What an item waits for comes up where it ends. -/
theorem reaches_of_next
    (hKnown : AllForeseen words start known)
    (hItem : item ∈ known)
    {wanted : Symbol}
    (hNext : item.key.next = some wanted) :
    G.Reaches words start 0 wanted item.stop := by
  rcases ItemKey.exists_of_next hNext with
    ⟨r, dot, i, j, hKey, hWanted⟩
  have hForeseen := hKnown item hItem r dot ⟨i, j⟩ hKey
  rw [Item.stop, hKey]
  exact hForeseen.reaches hWanted

/-
  From foreseen items only foreseen items follow. Prediction
  starts rules where they come up, from above or along left
  corners; the other steps move a dot over a daughter.
-/
theorem foreseen
    (hKnown : AllForeseen words start known)
    (hItem : item ∈ known)
    (hInfers : Infers words known step item new)
    {r : G.RuleId}
    {dot : Nat}
    {span : Span}
    (hKey : new.key = .single r dot span) :
    G.IsForeseen words start r dot span := by
  cases hInfers with
  | predict hNext =>
      cases hKey
      exact .first (reaches_of_next hKnown hItem hNext)
  | scan hNext hTerminal hWord =>
      cases hKey
      have hBefore := hKnown _ hItem _ _ _ rfl
      exact hBefore.next hNext (.terminal hTerminal hWord)
  | complete hWaiting hNext =>
      cases hKey
      have hBefore := hKnown _ hWaiting _ _ _ rfl
      have hFound := hKnown _ hItem _ _ _ rfl
      exact hBefore.next hNext hFound.constituent
  | leftCornerPredict hWaiting hStop hNext hCorner hLeft =>
      cases hKey
      have hAbove := reaches_of_next hKnown hWaiting hNext
      rw [hStop] at hAbove
      have hFound := hKnown _ hItem _ _ _ rfl
      rw [Rule.leftmost, List.head?_eq_getElem?] at hLeft
      exact (Grammar.IsForeseen.first
        (hAbove.leftCorner
          (G.isLeftCornerOf_iff.mp hCorner))).next hLeft
        hFound.constituent
  | leftCornerWord hNext hCorner hLeft hTerminal hWord =>
      cases hKey
      have hAbove := reaches_of_next hKnown hItem hNext
      rw [Rule.leftmost, List.head?_eq_getElem?] at hLeft
      exact (Grammar.IsForeseen.first
        (hAbove.leftCorner
          (G.isLeftCornerOf_iff.mp hCorner))).next hLeft
        (.terminal hTerminal hWord)
  | leftCornerEmpty hNext hCorner hEmpty =>
      cases hKey
      have hAbove := reaches_of_next hKnown hItem hNext
      exact .first
        (hAbove.leftCorner (G.isLeftCornerOf_iff.mp hCorner))
  | _ => cases hKey

end Infers

/- Sweeping finds only items that are foreseen. -/
theorem Deduction.foreseen
    {steps : List Step}
    {items : List (Item G)}
    (hItems :
      Deduction words steps (Sweep.seeds G start) items) :
    AllForeseen words start items := by
  refine @Deduction.forall_mem G _ _ _ _
    (fun x => ∀ r dot span, x.key = .single r dot span →
      G.IsForeseen words start r dot span) ?_ ?_ hItems
  · intro first hFirst r dot span hKey
    rcases Sweep.mem_seeds_iff.mp hFirst with
      ⟨b, rfl, rfl⟩
    cases hKey
    exact .first .here
  · intro known step item new hKnown _ hItem hInfers r dot
      span hKey
    exact hInfers.foreseen hKnown hItem hKey

end Constituency
