import Constituency.Item.Span
import Mathlib.Data.List.TakeWhile

/-
  This file is about runs: stretches of a text that hold
  characters of one kind only and cannot be made longer.
  Reading a text from left to right, each run up to its end,
  finds all of them.

  Key definitions include:
    * `Text.isAt`
    * `Text.IsRun`
    * `Text.AreRuns`
    * `Text.runs`

  Main declarations:
    * `Text.isRun_behind_iff`
    * `Text.AreRuns.skip`
    * `Text.AreRuns.run`
    * `Text.exists_areRuns`
-/

namespace Constituency

namespace Text

variable {kind : Char → Bool}

------------------------------------------------------------
-- Runs
------------------------------------------------------------

/- A character of the kind stands at a place of a text. -/
def isAt
    (kind : Char → Bool)
    (text : List Char)
    (place : Nat) : Bool :=
  text[place]?.any kind

/-
  The characters from `start` up to `stop` are of the kind,
  at least one of them, and those on either side are not.
-/
structure IsRun
    (kind : Char → Bool)
    (text : List Char)
    (span : Span) : Prop where
  start_lt_stop : span.start < span.stop
  inside : ∀ place, span.start ≤ place → place < span.stop →
    isAt kind text place = true
  before : ∀ place, place + 1 = span.start →
    isAt kind text place = false
  after : isAt kind text span.stop = false

/- A run begins with a character of the kind. -/
theorem IsRun.isAt_start
    {text : List Char}
    {span : Span}
    (hRun : IsRun kind text span) :
    isAt kind text span.start = true :=
  hRun.inside _ (Nat.le_refl _) hRun.start_lt_stop

/- The runs of a text are listed from left to right. -/
structure AreRuns
    (kind : Char → Bool)
    (text : List Char)
    (spans : List Span) : Prop where
  ordered : spans.Pairwise
    (fun left right => left.stop < right.start)
  mem_iff : ∀ span, span ∈ spans ↔ IsRun kind text span

------------------------------------------------------------
-- Runs Behind Other Text
------------------------------------------------------------

/- The span, when there is more text before it. -/
def behind
    (more : Nat)
    (span : Span) : Span :=
  ⟨more + span.start, more + span.stop⟩

theorem isAt_append_left
    {front : List Char}
    {place : Nat}
    (hPlace : place < front.length)
    (rest : List Char) :
    isAt kind (front ++ rest) place =
      isAt kind front place := by
  rw [isAt, isAt, List.getElem?_append_left hPlace]

theorem isAt_append_right
    (front rest : List Char)
    (place : Nat) :
    isAt kind (front ++ rest) (front.length + place) =
      isAt kind rest place := by
  rw [isAt, isAt,
    List.getElem?_append_right (Nat.le_add_right _ _),
    Nat.add_sub_cancel_left]

theorem isAt_of_forall
    {text : List Char}
    {place : Nat}
    (hText : ∀ c ∈ text, kind c = true)
    (hPlace : place < text.length) :
    isAt kind text place = true := by
  rw [isAt, List.getElem?_eq_getElem hPlace, Option.any_some]
  exact hText _ (List.getElem_mem hPlace)

theorem not_isAt_of_forall
    {text : List Char}
    (hText : ∀ c ∈ text, kind c = false)
    (place : Nat) :
    isAt kind text place = false := by
  unfold isAt
  cases hFound : text[place]? with
  | none => rfl
  | some c => exact hText c (List.mem_of_getElem? hFound)

/-
  A run stays one behind other text, unless that ends in a
  character of the kind and the run follows at once.
-/
theorem isRun_behind_iff
    (front rest : List Char)
    (hSeam : isAt kind rest 0 = true →
      ∀ place, place + 1 = front.length →
        isAt kind front place = false)
    (span : Span) :
    IsRun kind (front ++ rest)
        (behind front.length span) ↔
      IsRun kind rest span := by
  constructor
  · intro hRun
    refine ⟨?_, ?_, ?_, ?_⟩
    · exact Nat.lt_of_add_lt_add_left hRun.start_lt_stop
    · intro place hStart hStop
      rw [← isAt_append_right front]
      exact hRun.inside _ (Nat.add_le_add_left hStart _)
        (Nat.add_lt_add_left hStop _)
    · intro place hPlace
      rw [← isAt_append_right front]
      apply hRun.before
      rw [behind, ← hPlace, Nat.add_assoc]
    · rw [← isAt_append_right front]
      exact hRun.after
  · intro hRun
    refine ⟨?_, ?_, ?_, ?_⟩
    · exact Nat.add_lt_add_left hRun.start_lt_stop _
    · intro place hStart hStop
      rcases Nat.exists_eq_add_of_le
          (Nat.le_of_add_right_le hStart) with ⟨inner, rfl⟩
      rw [isAt_append_right]
      exact hRun.inside _ (Nat.le_of_add_le_add_left hStart)
        (Nat.lt_of_add_lt_add_left hStop)
    · intro place hPlace
      change place + 1 = front.length + span.start at hPlace
      cases hStart : span.start with
      | zero =>
          rw [hStart] at hPlace
          have hFirst := hRun.isAt_start
          rw [hStart] at hFirst
          rw [isAt_append_left (by omega)]
          exact hSeam hFirst place hPlace
      | succ inner =>
          have hInner : place = front.length + inner := by
            omega
          rw [hInner, isAt_append_right]
          exact hRun.before inner hStart.symm
    · exact (isAt_append_right front rest _).trans hRun.after

/- Spans behind other text hold the same characters. -/
theorem map_extract_behind
    (front rest : List Char)
    (spans : List Span) :
    (spans.map (behind front.length)).map
        (fun span =>
          (front ++ rest).extract span.start span.stop) =
      spans.map
        (fun span => rest.extract span.start span.stop) := by
  rw [List.map_map]
  apply List.map_congr_left
  intro span _
  simp [behind, List.extract_eq_take_drop,
    Nat.add_sub_add_left]

/- A place further on is one behind other text. -/
theorem exists_behind
    {more : Nat}
    {span : Span}
    (hStart : more ≤ span.start)
    (hStop : span.start < span.stop) :
    ∃ inner, span = behind more inner := by
  refine ⟨⟨span.start - more, span.stop - more⟩, ?_⟩
  rcases span with ⟨start, stop⟩
  simp only [behind, Span.mk.injEq] at hStart hStop ⊢
  omega

/- Spans behind other text keep their order. -/
theorem ordered_behind
    {spans : List Span}
    (hOrdered : spans.Pairwise
      (fun left right => left.stop < right.start))
    (more : Nat) :
    (spans.map (behind more)).Pairwise
      (fun left right => left.stop < right.start) := by
  rw [List.pairwise_map]
  exact hOrdered.imp (fun hLeft => Nat.add_lt_add_left hLeft _)

/-
  The runs that begin behind other text are those of the
  text itself.
-/
theorem AreRuns.mem_behind_iff
    {rest : List Char}
    {spans : List Span}
    (hRuns : AreRuns kind rest spans)
    (front : List Char)
    (hSeam : isAt kind rest 0 = true →
      ∀ place, place + 1 = front.length →
        isAt kind front place = false)
    {span : Span}
    (hStart : front.length ≤ span.start) :
    span ∈ spans.map (behind front.length) ↔
      IsRun kind (front ++ rest) span := by
  have hBehind := isRun_behind_iff front rest hSeam
  rw [List.mem_map]
  constructor
  · rintro ⟨inner, hInner, rfl⟩
    exact (hBehind inner).mpr ((hRuns.mem_iff inner).mp hInner)
  · intro hRun
    rcases exists_behind hStart hRun.start_lt_stop with
      ⟨inner, rfl⟩
    exact ⟨inner,
      (hRuns.mem_iff inner).mpr ((hBehind inner).mp hRun), rfl⟩

/- No run behind other text begins inside that. -/
theorem le_start_of_mem_behind
    {spans : List Span}
    {more : Nat}
    {span : Span}
    (hSpan : span ∈ spans.map (behind more)) :
    more ≤ span.start := by
  rcases List.mem_map.mp hSpan with ⟨inner, _, rfl⟩
  exact Nat.le_add_right _ _

------------------------------------------------------------
-- Runs One by One
------------------------------------------------------------

theorem areRuns_nil :
    AreRuns kind [] [] := by
  refine ⟨List.Pairwise.nil, ?_⟩
  intro span
  constructor
  · intro hSpan
    cases hSpan
  · intro hRun
    cases hRun.isAt_start

/- A character of another kind is in no run. -/
theorem AreRuns.skip
    {rest : List Char}
    {spans : List Span}
    (hRuns : AreRuns kind rest spans)
    {c : Char}
    (hOther : kind c = false) :
    AreRuns kind (c :: rest) (spans.map (behind 1)) := by
  refine ⟨ordered_behind hRuns.ordered 1, ?_⟩
  intro span
  by_cases hStart : 1 ≤ span.start
  · apply hRuns.mem_behind_iff [c] _ hStart
    intro _ place hPlace
    cases Nat.succ.inj hPlace
    exact hOther
  · constructor
    · intro hSpan
      exact absurd (le_start_of_mem_behind hSpan) hStart
    · intro hRun
      have hFirst := hRun.isAt_start
      rw [Nat.lt_one_iff.mp (Nat.lt_of_not_le hStart), isAt,
        List.getElem?_cons_zero, Option.any_some, hOther]
        at hFirst
      cases hFirst

/- Characters of the kind up to another one are a run. -/
theorem isRun_first_iff
    {word rest : List Char}
    (hWord : ∀ c ∈ word, kind c = true)
    (hRest : isAt kind rest 0 = false)
    {span : Span}
    (hStart : span.start < word.length) :
    IsRun kind (word ++ rest) span ↔
      span = ⟨0, word.length⟩ := by
  have hInside : ∀ place, place < word.length →
      isAt kind (word ++ rest) place = true := by
    intro place hPlace
    rw [isAt_append_left hPlace]
    exact isAt_of_forall hWord hPlace
  have hEnd :
      isAt kind (word ++ rest) word.length = false := by
    rw [← hRest]
    exact isAt_append_right word rest 0
  constructor
  · intro hRun
    rcases span with ⟨start, stop⟩
    have hFirst : start = 0 := by
      cases start with
      | zero => rfl
      | succ place =>
          have hBefore := hRun.before place rfl
          rw [hInside place (Nat.lt_of_succ_lt hStart)]
            at hBefore
          cases hBefore
    have hUpper : stop ≤ word.length := by
      by_contra hLonger
      have hLast := hRun.inside word.length
        (Nat.le_of_lt hStart) (Nat.lt_of_not_le hLonger)
      rw [hEnd] at hLast
      cases hLast
    have hLower : word.length ≤ stop := by
      by_contra hShorter
      have hAfter := hRun.after
      rw [hInside stop (Nat.lt_of_not_le hShorter)] at hAfter
      cases hAfter
    rw [hFirst, Nat.le_antisymm hUpper hLower]
  · rintro rfl
    refine ⟨hStart, ?_, ?_, hEnd⟩
    · intro place _ hPlace
      exact hInside place hPlace
    · intro place hPlace
      cases hPlace

/- It comes before the runs of the text behind it. -/
theorem AreRuns.run
    {word rest : List Char}
    {spans : List Span}
    (hRuns : AreRuns kind rest spans)
    (hSome : word ≠ [])
    (hWord : ∀ c ∈ word, kind c = true)
    (hRest : isAt kind rest 0 = false) :
    AreRuns kind (word ++ rest)
      (⟨0, word.length⟩ ::
        spans.map (behind word.length)) := by
  have hLength : 0 < word.length :=
    List.length_pos_iff.mpr hSome
  refine ⟨?_, ?_⟩
  · refine List.pairwise_cons.mpr
      ⟨?_, ordered_behind hRuns.ordered _⟩
    intro span hSpan
    rcases List.mem_map.mp hSpan with ⟨inner, hInner, rfl⟩
    have hRun := (hRuns.mem_iff inner).mp hInner
    apply Nat.lt_add_of_pos_right
    apply Nat.pos_of_ne_zero
    intro hZero
    have hFirst := hRun.isAt_start
    rw [hZero, hRest] at hFirst
    cases hFirst
  · intro span
    rw [List.mem_cons]
    by_cases hStart : word.length ≤ span.start
    · rw [← hRuns.mem_behind_iff word _ hStart]
      · apply or_iff_right
        rintro rfl
        exact absurd hLength (Nat.not_lt.mpr hStart)
      · intro hFirst
        rw [hRest] at hFirst
        cases hFirst
    · rw [isRun_first_iff hWord hRest
        (Nat.lt_of_not_le hStart)]
      apply or_iff_left
      intro hSpan
      exact hStart (le_start_of_mem_behind hSpan)

------------------------------------------------------------
-- Reading Runs
------------------------------------------------------------

/- The runs of a text, read from left to right. -/
def runs
    (kind : Char → Bool)
    (text : List Char) : List (List Char) :=
  match text with
  | [] => []
  | c :: rest =>
      if kind c then
        (c :: rest.takeWhile kind) ::
          runs kind (rest.dropWhile kind)
      else
        runs kind rest
termination_by text.length
decreasing_by
  · exact Nat.lt_succ_of_le
      (List.dropWhile_sublist kind).length_le
  · exact Nat.lt_succ_self _

/- What is left behind a run begins with another kind. -/
theorem isAt_dropWhile
    (text : List Char) :
    isAt kind (text.dropWhile kind) 0 = false := by
  rw [isAt, ← List.head?_eq_getElem?]
  have hHead := List.head?_dropWhile_not kind text
  cases hFirst : (text.dropWhile kind).head? with
  | none => rfl
  | some c =>
      rw [hFirst] at hHead
      simpa using hHead

/- Reading a text finds all of its runs. -/
theorem exists_areRuns
    (kind : Char → Bool)
    (text : List Char) :
    ∃ spans, AreRuns kind text spans ∧
      runs kind text =
        spans.map (fun span =>
          text.extract span.start span.stop) := by
  induction text using runs.induct kind with
  | case1 => exact ⟨[], areRuns_nil, by rw [runs]; rfl⟩
  | case2 c rest hFirst ih =>
      rcases ih with ⟨spans, hRuns, hTexts⟩
      have hWord : ∀ d ∈ c :: rest.takeWhile kind,
          kind d = true := by
        intro d hd
        rcases List.mem_cons.mp hd with rfl | hd
        · exact hFirst
        · exact List.mem_takeWhile_imp hd
      have hSplit :
          c :: rest =
            (c :: rest.takeWhile kind) ++
              rest.dropWhile kind := by
        rw [List.cons_append, List.takeWhile_append_dropWhile]
      have hFound := hRuns.run (List.cons_ne_nil _ _) hWord
        (isAt_dropWhile rest)
      rw [← hSplit] at hFound
      refine ⟨_, hFound, ?_⟩
      rw [runs, if_pos hFirst, hTexts, hSplit, List.map_cons,
        map_extract_behind, List.extract_eq_take_drop,
        List.drop_zero, Nat.sub_zero, List.take_left]
  | case3 c rest hOther ih =>
      rcases ih with ⟨spans, hRuns, hTexts⟩
      refine ⟨spans.map (behind 1), ?_, ?_⟩
      · exact hRuns.skip (by simpa using hOther)
      · rw [runs, if_neg hOther, hTexts]
        exact (map_extract_behind [c] rest spans).symm

end Text

end Constituency
