import Constituency.Proofs.Inference.Deduction
import Mathlib.Data.List.Perm.Subperm

/-
  This file bounds charts: the keys that the items over an
  input can have are listed, and the lists are as long as
  the capacities say.

  Key definitions include:
    * `spans`
    * `keysOver`
    * `Sweep.shapes`
    * `Saturation.shapes`

  Main declarations:
    * `Sweep.length_le_capacity`
    * `Saturation.length_le_capacity`
-/

namespace Constituency

variable {G : Grammar}

------------------------------------------------------------
-- Spans
------------------------------------------------------------

/- The spans of an input of `n` words. -/
def spans
    (n : Nat) : List Span :=
  (List.range (n + 1)).flatMap
    (fun j => (List.range (j + 1)).map (fun i => ⟨i, j⟩))

theorem mem_spans_iff
    {n : Nat}
    {span : Span} :
    span ∈ spans n ↔
      span.start ≤ span.stop ∧ span.stop ≤ n := by
  rcases span with ⟨i, j⟩
  simp only [spans, List.mem_flatMap, List.mem_map,
    List.mem_range, Span.mk.injEq]
  constructor
  · rintro ⟨_, hStop, _, hStart, rfl, rfl⟩
    omega
  · rintro ⟨hStart, hStop⟩
    exact ⟨j, by omega, i, by omega, rfl, rfl⟩

theorem length_spans
    (n : Nat) :
    (spans n).length = (n + 1) * (n + 2) / 2 := by
  have hDouble :
      ∀ m, 2 * ((List.range m).map
          (fun j => j + 1)).sum = m * (m + 1) := by
    intro m
    induction m with
    | zero => rfl
    | succ m ih =>
        rw [List.range_succ, List.map_append,
          List.sum_append, Nat.mul_add, ih]
        simp only [List.map_singleton, List.sum_singleton]
        rw [← Nat.add_mul]
        exact Nat.mul_comm _ _
  have hLength :
      (spans n).length =
        ((List.range (n + 1)).map (fun j => j + 1)).sum := by
    simp [spans, List.length_flatMap]
  rw [hLength]
  apply Nat.eq_div_of_mul_eq_right (by omega)
  exact hDouble (n + 1)

------------------------------------------------------------
-- Keys
------------------------------------------------------------

/- Keys of some shapes over the spans of an input. -/
def keysOver
    (n : Nat)
    (shapes : List (Span → ItemKey G)) : List (ItemKey G) :=
  shapes.flatMap (fun shape => (spans n).map shape)

theorem mem_keysOver_iff
    {n : Nat}
    {shapes : List (Span → ItemKey G)}
    {key : ItemKey G} :
    key ∈ keysOver n shapes ↔
      ∃ shape ∈ shapes, ∃ span ∈ spans n,
        shape span = key := by
  simp [keysOver]

theorem length_keysOver
    (n : Nat)
    (shapes : List (Span → ItemKey G)) :
    (keysOver n shapes).length =
      (n + 1) * (n + 2) / 2 * shapes.length := by
  simp [keysOver, List.length_flatMap, length_spans,
    Nat.mul_comm]

/-
  Items with distinct keys are no more than the keys they
  can have.
-/
theorem length_le_of_keys
    {items : List (Item G)}
    {n : Nat}
    {shapes : List (Span → ItemKey G)}
    (hNodup : (items.map Item.key).Nodup)
    (hStops : ∀ x ∈ items, x.stop ≤ n)
    (hWellFormed : ∀ x ∈ items, x.key.WellFormed)
    (hShapes : ∀ x ∈ items,
      ∃ shape ∈ shapes, x.key = shape x.key.span) :
    items.length ≤ (n + 1) * (n + 2) / 2 * shapes.length := by
  have hSubset : items.map Item.key ⊆ keysOver n shapes := by
    intro key hKey
    rcases List.mem_map.mp hKey with ⟨x, hx, rfl⟩
    rcases hShapes x hx with ⟨shape, hShape, hSame⟩
    apply mem_keysOver_iff.mpr
    refine ⟨shape, hShape, x.key.span, ?_, hSame.symm⟩
    apply mem_spans_iff.mpr
    exact ⟨(hWellFormed x hx).start_le_stop, hStops x hx⟩
  have hLength :=
    (List.subperm_of_subset hNodup hSubset).length_le
  rwa [List.length_map, length_keysOver] at hLength

/- Counting what is listed for each rule. -/
theorem Grammar.length_flatMap_ruleIds
    {α : Type}
    {list : G.RuleId → List α}
    {size : Rule → Nat}
    (hSize : ∀ r, (list r).length = size (G.rule r)) :
    (G.ruleIds.flatMap list).length = G.total size := by
  have hRules : G.ruleIds.map G.rule = G.rules.toList := by
    apply List.ext_getElem
    · simp [Grammar.ruleIds]
    · intro k _ _
      simp [Grammar.ruleIds, Grammar.rule]
  unfold Grammar.total
  rw [← hRules]
  induction G.ruleIds with
  | nil => rfl
  | cons r rest ih =>
      rw [List.flatMap_cons, List.length_append, ih, hSize,
        List.map_cons, List.foldr_cons]

------------------------------------------------------------
-- Sweeps
------------------------------------------------------------

namespace Sweep

/- A rule with a dot. -/
def shapes
    (G : Grammar) : List (Span → ItemKey G) :=
  G.ruleIds.flatMap (fun r =>
    (List.range ((G.rule r).length + 1)).map
      (fun dot => ItemKey.single r dot))

theorem length_shapes :
    (shapes G).length =
      G.total (fun rule => rule.length + 1) := by
  unfold shapes
  apply Grammar.length_flatMap_ruleIds
  intro r
  rw [List.length_map, List.length_range]

/- Single-dotted items fit into the capacity of a sweep. -/
theorem length_le_capacity
    {items : List (Item G)}
    {n : Nat}
    (hNodup : (items.map Item.key).Nodup)
    (hStops : ∀ x ∈ items, x.stop ≤ n)
    (hWellFormed : ∀ x ∈ items, x.key.WellFormed)
    (hSingle : ∀ x ∈ items, x.key.IsSingle) :
    items.length ≤ capacity G n := by
  unfold capacity
  rw [← length_shapes]
  apply length_le_of_keys hNodup hStops hWellFormed
  intro x hx
  rcases hSingle x hx with ⟨r, dot, ⟨i, j⟩, hKey⟩
  have hDot := hWellFormed x hx
  rw [hKey, ItemKey.wellFormed_single_iff] at hDot
  rw [hKey]
  refine ⟨ItemKey.single r dot, ?_, rfl⟩
  apply List.mem_flatMap.mpr
  refine ⟨r, List.mem_finRange r, ?_⟩
  apply List.mem_map.mpr
  exact ⟨dot, List.mem_range.mpr (by omega), rfl⟩

end Sweep

------------------------------------------------------------
-- Saturation
------------------------------------------------------------

namespace Saturation

/-
  A rule with two dots, a completed rule or a demanded
  symbol. The dots are in order like the ends of a span.
-/
def shapes
    (G : Grammar) : List (Span → ItemKey G) :=
  G.ruleIds.flatMap (fun r =>
      (spans (G.rule r).length).map
        (fun dots => ItemKey.double r dots.start dots.stop)) ++
    G.ruleIds.map ItemKey.completed ++
    G.symbols.map ItemKey.goal

theorem length_shapes :
    (shapes G).length =
      G.total (fun rule =>
          (rule.length + 1) * (rule.length + 2) / 2) +
        G.rules.size + G.symbols.length := by
  unfold shapes
  rw [List.length_append, List.length_append,
    List.length_map, List.length_map]
  congr 2
  · apply Grammar.length_flatMap_ruleIds
    intro r
    rw [List.length_map, length_spans]
  · exact List.length_finRange

/- The symbol is known unless it is no goal. -/
def KnownSymbol
    (key : ItemKey G) : Prop :=
  ∀ symbol span, key = .goal symbol span →
    symbol ∈ G.symbols

/- Items without a single dot fit into the capacity. -/
theorem length_le_capacity
    {items : List (Item G)}
    {n : Nat}
    (hNodup : (items.map Item.key).Nodup)
    (hStops : ∀ x ∈ items, x.stop ≤ n)
    (hWellFormed : ∀ x ∈ items, x.key.WellFormed)
    (hSingle : ∀ x ∈ items, ¬ x.key.IsSingle)
    (hSymbols : ∀ x ∈ items, KnownSymbol x.key) :
    items.length ≤ capacity G n := by
  unfold capacity
  rw [← length_shapes]
  apply length_le_of_keys hNodup hStops hWellFormed
  intro x hx
  have hKey := hWellFormed x hx
  have hGoal := hSymbols x hx
  simp only [shapes, List.mem_append]
  cases hShape : x.key with
  | single r dot span =>
      exact absurd ⟨r, dot, span, hShape⟩ (hSingle x hx)
  | double r left right span =>
      rcases span with ⟨i, j⟩
      rw [hShape, ItemKey.wellFormed_double_iff] at hKey
      refine ⟨ItemKey.double r left right,
        Or.inl (Or.inl ?_), rfl⟩
      apply List.mem_flatMap.mpr
      refine ⟨r, List.mem_finRange r, ?_⟩
      apply List.mem_map.mpr
      exact ⟨⟨left, right⟩, mem_spans_iff.mpr hKey.2, rfl⟩
  | goal symbol span =>
      refine ⟨ItemKey.goal symbol, Or.inr ?_, rfl⟩
      exact List.mem_map_of_mem (hGoal symbol span hShape)
  | completed r span =>
      refine ⟨ItemKey.completed r, Or.inl (Or.inr ?_), rfl⟩
      exact List.mem_map_of_mem (List.mem_finRange r)

end Saturation

end Constituency
