import Constituency.Parse.Basic
import Constituency.Proofs.Derivation.Yield
import Constituency.Proofs.Parse.Saturation
import Constituency.Proofs.Parse.Sweep

/-
  This file says what parsing gives whatever the algorithm:
  a parse whose chart is a deduction, and without a limit a
  parse whose chart is the closure of its seeds. It also
  says which items of such a chart are constituents.

  Key definitions include:
    * `Algorithm.steps`
    * `Algorithm.seeds`
    * `Algorithm.constituent`
    * `Grammar.chartAfter`
    * `Grammar.FinishesWith`
    * `Parse.IsExact`

  Main declarations:
    * `Grammar.chartAfter_deduction`
    * `Grammar.parse_deduction`
    * `Grammar.exists_finishesWith`
    * `Grammar.parse_closure`
    * `Parse.mem_keys_completeItems_iff`
    * `Parse.isExact_of_constituents`
-/

namespace Constituency

variable {G : Grammar}

namespace Algorithm

/- The steps that fill the chart. -/
def steps : Algorithm → List Step
  | .headCorner => [.combine]
  | algorithm => algorithm.sweepSteps

/- The items that the chart is filled from. -/
def seeds
    (G : Grammar)
    (start : Symbol)
    (words : List Symbol) : Algorithm → List (Item G)
  | .headCorner => [Saturation.seed G ⟨words, start, none⟩]
  | _ => Sweep.seeds G start

/- The key of a constituent with all its daughters. -/
def constituent
    (r : G.RuleId)
    (span : Span) : Algorithm → ItemKey G
  | .headCorner => .completed r span
  | _ => .single r (G.rule r).length span

/- The constituents of the algorithms that sweep. -/
theorem constituent_of_sweep
    {algorithm : Algorithm}
    (hAlgorithm : algorithm ≠ .headCorner)
    (r : G.RuleId)
    (span : Span) :
    algorithm.constituent r span =
      .single r (G.rule r).length span := by
  cases algorithm with
  | earley => rfl
  | leftCorner => rfl
  | headCorner => exact absurd rfl hAlgorithm

@[simp] theorem span_constituent
    (algorithm : Algorithm)
    (r : G.RuleId)
    (span : Span) :
    (algorithm.constituent r span).span = span := by
  cases algorithm with
  | earley => rfl
  | leftCorner => rfl
  | headCorner => rfl

/- A constituent stands for the left side of its rule. -/
@[simp] theorem category_constituent
    (algorithm : Algorithm)
    (r : G.RuleId)
    (span : Span) :
    (algorithm.constituent r span).category =
      (G.rule r).lhs := by
  cases algorithm with
  | earley => rfl
  | leftCorner => rfl
  | headCorner => rfl

end Algorithm

------------------------------------------------------------
-- Results
------------------------------------------------------------

/- Work that goes on or is finished gives a parse. -/
theorem Outcome.result_ofProgress
    {σ : Type}
    (algorithm : Algorithm)
    (start : Symbol)
    (words : List Symbol)
    (read : σ → Chart G × Nat × Array (Event G))
    (progress : Progress σ) :
    (Outcome.ofProgress algorithm start words read
        progress).result =
      match progress with
      | .failed error _ => .error error
      | _ =>
          .ok ⟨algorithm, start, words,
            (read progress.state).1,
            (read progress.state).2.1⟩ := by
  cases progress with
  | running state => rfl
  | finished state => rfl
  | failed error state => rfl

namespace Grammar

variable {algorithm : Algorithm}
variable {start : Symbol}
variable {words : List Symbol}
variable {limit : Option Nat}

/- A parse shows the chart that was reached. -/
theorem exists_of_result_ofProgress
    {σ : Type}
    {read : σ → Chart G × Nat × Array (Event G)}
    {progress : Progress σ}
    {parse : Parse G}
    (hResult :
      (Outcome.ofProgress algorithm start words read
          progress).result = .ok parse) :
    parse.algorithm = algorithm ∧ parse.start = start ∧
      parse.words = words ∧
        parse.chart = (read progress.state).1 := by
  rw [Outcome.result_ofProgress] at hResult
  cases progress with
  | running state =>
      cases hResult
      exact ⟨rfl, rfl, rfl, rfl⟩
  | finished state =>
      cases hResult
      exact ⟨rfl, rfl, rfl, rfl⟩
  | failed error state => cases hResult

/- Two of the algorithms sweep. -/
theorem parse_eq_sweep
    (hAlgorithm : algorithm ≠ .headCorner) :
    (G.parse algorithm start limit words) =
      Outcome.ofProgress algorithm start words
        (fun state =>
          (state.chart, state.passes, state.events))
        (Sweep.run G
          ⟨words, start, algorithm.steps, limit⟩) := by
  cases algorithm with
  | earley => rfl
  | leftCorner => rfl
  | headCorner => exact absurd rfl hAlgorithm

/- The algorithms that sweep begin with the same seeds. -/
theorem seeds_eq_sweep
    (hAlgorithm : algorithm ≠ .headCorner) :
    algorithm.seeds G start words = Sweep.seeds G start := by
  cases algorithm with
  | earley => rfl
  | leftCorner => rfl
  | headCorner => exact absurd rfl hAlgorithm

theorem combine_not_mem_steps
    (hAlgorithm : algorithm ≠ .headCorner) :
    Step.combine ∉ algorithm.steps := by
  cases algorithm with
  | earley => simp [Algorithm.steps, Algorithm.sweepSteps]
  | leftCorner =>
      simp [Algorithm.steps, Algorithm.sweepSteps]
  | headCorner => exact absurd rfl hAlgorithm

/- The chart after some steps of the work on it. -/
def chartAfter
    (G : Grammar)
    (algorithm : Algorithm)
    (start : Symbol)
    (limit : Option Nat)
    (words : List Symbol)
    (steps : Nat) : Chart G :=
  match algorithm with
  | .headCorner =>
      (Progress.iterate
        (Saturation.step ⟨words, start, limit⟩) steps
        (Saturation.begin G ⟨words, start, limit⟩)).state.chart
  | _ =>
      (Progress.iterate
        (Sweep.step ⟨words, start, algorithm.steps, limit⟩)
        steps
        (Sweep.begin G
          ⟨words, start, algorithm.steps, limit⟩)).state.chart

/- At any time the chart is a deduction. -/
theorem chartAfter_deduction
    (algorithm : Algorithm)
    (start : Symbol)
    (limit : Option Nat)
    (words : List Symbol)
    (steps : Nat) :
    Deduction words algorithm.steps
      (algorithm.seeds G start words)
      (G.chartAfter algorithm start limit words
        steps).items.toList := by
  have hSweep :
      Deduction words algorithm.steps (Sweep.seeds G start)
        (Progress.iterate
          (Sweep.step ⟨words, start, algorithm.steps, limit⟩)
          steps
          (Sweep.begin G
            ⟨words, start, algorithm.steps,
              limit⟩)).state.chart.items.toList :=
    Sweep.sound_iterate
      ⟨words, start, algorithm.steps, limit⟩ steps
  cases algorithm with
  | headCorner =>
      have hSound := @Saturation.sound_iterate G
        ⟨words, start, limit⟩ steps
      exact hSound.deduction.of_prefix
        (List.prefix_append _ _)
  | earley => exact hSweep
  | leftCorner => exact hSweep

/- A parse shows a chart that the work on it came to. -/
theorem exists_chartAfter_of_parse
    {parse : Parse G}
    (hParse :
      (G.parse algorithm start limit words).result =
        .ok parse) :
    parse.algorithm = algorithm ∧ parse.start = start ∧
      parse.words = words ∧
        ∃ steps, parse.chart =
          G.chartAfter algorithm start limit words steps := by
  cases algorithm with
  | headCorner =>
      rcases exists_of_result_ofProgress hParse with
        ⟨hName, hStart, hWords, hChart⟩
      exact ⟨hName, hStart, hWords, _, hChart⟩
  | earley =>
      rcases exists_of_result_ofProgress hParse with
        ⟨hName, hStart, hWords, hChart⟩
      exact ⟨hName, hStart, hWords, _, hChart⟩
  | leftCorner =>
      rcases exists_of_result_ofProgress hParse with
        ⟨hName, hStart, hWords, hChart⟩
      exact ⟨hName, hStart, hWords, _, hChart⟩

/- The chart of every parse is a deduction. -/
theorem parse_deduction
    {parse : Parse G}
    (hParse :
      (G.parse algorithm start limit words).result =
        .ok parse) :
    parse.algorithm = algorithm ∧ parse.start = start ∧
      parse.words = words ∧
        Deduction words algorithm.steps
          (algorithm.seeds G start words)
          parse.chart.items.toList := by
  rcases exists_chartAfter_of_parse hParse with
    ⟨hName, hStart, hWords, steps, hChart⟩
  refine ⟨hName, hStart, hWords, ?_⟩
  rw [hChart]
  exact chartAfter_deduction algorithm start limit words
    steps

/-
  Without a limit the work on the chart comes to its end,
  and this is the chart and the number of passes then.
-/
def FinishesWith
    (G : Grammar)
    (algorithm : Algorithm)
    (start : Symbol)
    (words : List Symbol)
    (chart : Chart G)
    (passes : Nat) : Prop :=
  match algorithm with
  | .headCorner =>
      ∃ last, Saturation.run G ⟨words, start, none⟩ =
          .finished last ∧
        last.chart = chart ∧ last.passes = passes
  | _ =>
      ∃ last,
        Sweep.run G ⟨words, start, algorithm.steps, none⟩ =
          .finished last ∧
        last.chart = chart ∧ last.passes = passes

/- How the algorithms that sweep come to their end. -/
theorem finishesWith_sweep_iff
    (hAlgorithm : algorithm ≠ .headCorner)
    {chart : Chart G}
    {passes : Nat} :
    G.FinishesWith algorithm start words chart passes ↔
      ∃ last,
        Sweep.run G ⟨words, start, algorithm.steps, none⟩ =
          .finished last ∧
        last.chart = chart ∧ last.passes = passes := by
  cases algorithm with
  | earley => exact Iff.rfl
  | leftCorner => exact Iff.rfl
  | headCorner => exact absurd rfl hAlgorithm

/- What the work ends with is what the parse shows. -/
theorem FinishesWith.result_eq
    {chart : Chart G}
    {passes : Nat}
    (hFinishes :
      G.FinishesWith algorithm start words chart passes) :
    (G.parse algorithm start none words).result =
      .ok ⟨algorithm, start, words, chart, passes⟩ := by
  by_cases hAlgorithm : algorithm = .headCorner
  · subst hAlgorithm
    rcases hFinishes with ⟨last, hRun, hChart, hPasses⟩
    rw [← hChart, ← hPasses]
    simp only [Grammar.parse, hRun]
    rfl
  · rcases (finishesWith_sweep_iff hAlgorithm).mp hFinishes
      with ⟨last, hRun, hChart, hPasses⟩
    rw [← hChart, ← hPasses, parse_eq_sweep hAlgorithm, hRun]
    rfl

/- The work ends, and then the chart is a closure. -/
theorem exists_finishesWith
    (algorithm : Algorithm)
    (hStart : G.isNonterminal start = true)
    (words : List Symbol) :
    ∃ chart passes,
      G.FinishesWith algorithm start words chart passes ∧
        Closure words algorithm.steps
          (algorithm.seeds G start words)
          chart.items.toList := by
  by_cases hAlgorithm : algorithm = .headCorner
  · subst hAlgorithm
    rcases @Saturation.run_finishes G ⟨words, start, none⟩
        hStart rfl with
      ⟨last, hRun, hClosure⟩
    exact ⟨last.chart, last.passes, ⟨last, hRun, rfl, rfl⟩,
      hClosure⟩
  · rcases @Sweep.run_finishes G
        ⟨words, start, algorithm.steps, none⟩
        (combine_not_mem_steps hAlgorithm) rfl with
      ⟨last, hRun, hClosure⟩
    refine ⟨last.chart, last.passes, ?_, ?_⟩
    · exact (finishesWith_sweep_iff hAlgorithm).mpr
        ⟨last, hRun, rfl, rfl⟩
    · rw [seeds_eq_sweep hAlgorithm]
      exact hClosure

/- Without a limit the chart of a parse is a closure. -/
theorem parse_closure
    (algorithm : Algorithm)
    (hStart : G.isNonterminal start = true)
    (words : List Symbol) :
    ∃ parse,
      (G.parse algorithm start none words).result =
          .ok parse ∧
        parse.algorithm = algorithm ∧
        parse.start = start ∧ parse.words = words ∧
          Closure words algorithm.steps
            (algorithm.seeds G start words)
            parse.chart.items.toList := by
  rcases exists_finishesWith algorithm hStart words with
    ⟨chart, passes, hFinishes, hClosure⟩
  exact ⟨_, hFinishes.result_eq, rfl, rfl, rfl, hClosure⟩

end Grammar

------------------------------------------------------------
-- Constituents
------------------------------------------------------------

/- What every algorithm starts from is well-formed. -/
theorem Algorithm.wellFormed_seeds
    {algorithm : Algorithm}
    {start : Symbol}
    {words : List Symbol} :
    ∀ first ∈ algorithm.seeds G start words,
      first.key.WellFormed := by
  cases algorithm with
  | headCorner => exact Saturation.wellFormed_seed _
  | earley => exact Sweep.wellFormed_seeds
  | leftCorner => exact Sweep.wellFormed_seeds

/- What every algorithm starts from lies in the input. -/
theorem Algorithm.stop_seeds
    {algorithm : Algorithm}
    {start : Symbol}
    {words : List Symbol} :
    ∀ first ∈ algorithm.seeds G start words,
      first.stop ≤ words.length := by
  have hSweep :
      ∀ first ∈ Sweep.seeds G start,
        first.stop ≤ words.length := by
    intro first hFirst
    rw [Sweep.stop_seeds first hFirst]
    exact Nat.zero_le _
  cases algorithm with
  | headCorner =>
      exact Saturation.stop_seed ⟨words, start, none⟩
  | earley => exact hSweep
  | leftCorner => exact hSweep

/-
  Of the items that an algorithm finds, those that stand for
  a symbol are its constituents.
-/
theorem Deduction.isConstituentOf_iff
    {algorithm : Algorithm}
    {start symbol : Symbol}
    {words : List Symbol}
    {items : List (Item G)}
    (hItems :
      Deduction words algorithm.steps
        (algorithm.seeds G start words) items)
    {item : Item G}
    (hItem : item ∈ items) :
    item.isConstituentOf symbol = true ↔
      ∃ r, (G.rule r).lhs = symbol ∧
        item.key = algorithm.constituent r item.key.span := by
  have hSingle :
      item.key.IsSingle ↔ algorithm ≠ .headCorner := by
    by_cases hAlgorithm : algorithm = .headCorner
    · subst hAlgorithm
      have hOther := Deduction.not_isSingle
        (Saturation.not_isSingle_seed _) hItems item hItem
      simp [hOther]
    · rw [Grammar.seeds_eq_sweep hAlgorithm] at hItems
      have hOne := hItems.isSingle
        (Grammar.combine_not_mem_steps hAlgorithm)
        Sweep.isSingle_seeds item hItem
      simp [hOne, hAlgorithm]
  rcases item with ⟨key, children⟩
  cases key with
  | single r dot span =>
      have hAlgorithm : algorithm ≠ .headCorner :=
        hSingle.mp ⟨r, dot, span, rfl⟩
      simp only [Item.isConstituentOf, Bool.and_eq_true,
        Item.isComplete_single_iff, decide_eq_true_eq,
        ItemKey.span,
        Algorithm.constituent_of_sweep hAlgorithm,
        ItemKey.single.injEq, and_true]
      constructor
      · rintro ⟨rfl, rfl⟩
        exact ⟨r, rfl, rfl, rfl⟩
      · rintro ⟨_, rfl, rfl, rfl⟩
        exact ⟨rfl, rfl⟩
  | completed r span =>
      have hAlgorithm : algorithm = .headCorner := by
        by_contra hOther
        rcases hSingle.mpr hOther with ⟨_, _, _, hKey⟩
        cases hKey
      subst hAlgorithm
      simp only [Item.isConstituentOf, decide_eq_true_eq,
        Algorithm.constituent, ItemKey.span,
        ItemKey.completed.injEq, and_true]
      constructor
      · rintro rfl
        exact ⟨r, rfl, rfl⟩
      · rintro ⟨_, rfl, rfl⟩
        rfl
  | double r left right span =>
      cases algorithm with
      | earley => simp [Item.isConstituentOf,
          Algorithm.constituent]
      | leftCorner => simp [Item.isConstituentOf,
          Algorithm.constituent]
      | headCorner => simp [Item.isConstituentOf,
          Algorithm.constituent]
  | goal upper span =>
      cases algorithm with
      | earley => simp [Item.isConstituentOf,
          Algorithm.constituent]
      | leftCorner => simp [Item.isConstituentOf,
          Algorithm.constituent]
      | headCorner => simp [Item.isConstituentOf,
          Algorithm.constituent]

namespace Parse

variable {parse : Parse G}
variable {algorithm : Algorithm}

/- Complete items are items of the chart over all words. -/
theorem mem_completeItems_iff
    {item : Item G} :
    item ∈ parse.completeItems ↔
      (item ∈ parse.chart.items.toList ∧
        item.key.span = ⟨0, parse.words.length⟩) ∧
          item.isConstituentOf parse.start = true := by
  unfold completeItems
  rw [List.mem_filter, Chart.spanning_eq, List.mem_filter,
    decide_eq_true_eq]

/- No two complete items have the same key. -/
theorem nodup_keys_completeItems
    (parse : Parse G) :
    (parse.completeItems.map Item.key).Nodup := by
  unfold completeItems
  rw [Chart.spanning_eq, List.filter_filter]
  exact parse.chart.nodup_keys.sublist
    (List.filter_sublist.map _)

/- The keys of the complete items are those of constituents. -/
theorem mem_keys_completeItems_iff
    (hItems :
      Deduction parse.words algorithm.steps
        (algorithm.seeds G parse.start parse.words)
        parse.chart.items.toList)
    {key : ItemKey G} :
    key ∈ parse.completeItems.map Item.key ↔
      ∃ r, (G.rule r).lhs = parse.start ∧
        key = algorithm.constituent r
          ⟨0, parse.words.length⟩ ∧
        key ∈ parse.chart.items.toList.map Item.key := by
  constructor
  · intro hKey
    rcases List.mem_map.mp hKey with ⟨item, hItem, rfl⟩
    rcases mem_completeItems_iff.mp hItem with
      ⟨⟨hKnown, hSpan⟩, hConstituent⟩
    rcases (hItems.isConstituentOf_iff hKnown).mp
        hConstituent with
      ⟨r, hLhs, hSame⟩
    rw [hSpan] at hSame
    exact ⟨r, hLhs, hSame, List.mem_map_of_mem hKnown⟩
  · rintro ⟨r, hLhs, hSame, hKey⟩
    rcases List.mem_map.mp hKey with ⟨item, hKnown, rfl⟩
    have hSpan :
        item.key.span = ⟨0, parse.words.length⟩ := by
      rw [hSame]
      exact algorithm.span_constituent r _
    apply List.mem_map_of_mem
    refine mem_completeItems_iff.mpr ⟨⟨hKnown, hSpan⟩, ?_⟩
    apply (hItems.isConstituentOf_iff hKnown).mpr
    rw [hSpan]
    exact ⟨r, hLhs, hSame⟩

/- Recognition shows in the keys of the complete items. -/
theorem isRecognised_iff
    (parse : Parse G) :
    parse.isRecognised = true ↔
      ∃ key, key ∈ parse.completeItems.map Item.key := by
  unfold isRecognised
  cases parse.completeItems with
  | nil => simp
  | cons item items => simp

/-
  The complete items are one for each rule of the start
  symbol that yields all words, and recognition is what the
  start symbol yields.
-/
structure IsExact
    (parse : Parse G) : Prop where
  nodup : (parse.completeItems.map Item.key).Nodup
  mem_keys_iff : ∀ key,
    key ∈ parse.completeItems.map Item.key ↔
      ∃ r, (G.rule r).lhs = parse.start ∧
        G.Yields (G.rule r).rhs parse.words ∧
          key = parse.algorithm.constituent r
            ⟨0, parse.words.length⟩
  isRecognised_iff :
    parse.isRecognised = true ↔
      G.Yields [parse.start] parse.words

/-
  A parse is exact when the constituents for the start
  symbol in its chart are.
-/
theorem isExact_of_constituents
    (hStart : G.isNonterminal parse.start = true)
    (hItems :
      Deduction parse.words parse.algorithm.steps
        (parse.algorithm.seeds G parse.start parse.words)
        parse.chart.items.toList)
    (hConstituents :
      ∀ r, (G.rule r).lhs = parse.start →
        (parse.algorithm.constituent r
            ⟨0, parse.words.length⟩ ∈
              parse.chart.items.toList.map Item.key ↔
          G.YieldsOver parse.words (G.rule r).rhs 0
            parse.words.length)) :
    parse.IsExact := by
  have hKeys :
      ∀ key, key ∈ parse.completeItems.map Item.key ↔
        ∃ r, (G.rule r).lhs = parse.start ∧
          G.Yields (G.rule r).rhs parse.words ∧
            key = parse.algorithm.constituent r
              ⟨0, parse.words.length⟩ := by
    intro key
    rw [mem_keys_completeItems_iff hItems]
    constructor
    · rintro ⟨r, hLhs, rfl, hKey⟩
      have hYields := (hConstituents r hLhs).mp hKey
      exact ⟨r, hLhs, Grammar.yieldsOver_length_iff.mp hYields,
        rfl⟩
    · rintro ⟨r, hLhs, hYields, rfl⟩
      refine ⟨r, hLhs, rfl, (hConstituents r hLhs).mpr ?_⟩
      exact Grammar.yieldsOver_length_iff.mpr hYields
  refine ⟨parse.nodup_keys_completeItems, hKeys, ?_⟩
  rw [parse.isRecognised_iff,
    Grammar.yields_nonterminal_iff hStart]
  constructor
  · rintro ⟨key, hKey⟩
    rcases (hKeys key).mp hKey with ⟨r, hLhs, hYields, _⟩
    exact ⟨r, hLhs, hYields⟩
  · rintro ⟨r, hLhs, hYields⟩
    exact ⟨_, (hKeys _).mpr ⟨r, hLhs, hYields, rfl⟩⟩

end Parse

end Constituency
