import Constituency.Proofs.Text.Runs

/-
  This file is about words with gaps around them: the words
  are the runs of the text that they make.

  Key definitions include:
    * `Text.IsWord`
    * `Text.Spacing`
    * `Text.Spacing.text`

  Main declarations:
    * `Text.runs_gap_append`
    * `Text.runs_word_append`
    * `Text.Spacing.runs_text`
-/

namespace Constituency

namespace Text

variable {kind : Char → Bool}

------------------------------------------------------------
-- Words and Gaps
------------------------------------------------------------

/- A word has characters, all of them of the kind. -/
def IsWord
    (kind : Char → Bool)
    (word : String) : Prop :=
  word ≠ "" ∧ ∀ c ∈ word.toList, kind c = true

instance
    (word : String) : Decidable (IsWord kind word) :=
  @instDecidableAnd _ _ inferInstance
    (List.decidableBAll (fun c => kind c = true) word.toList)

/- No character of a gap is of the kind. -/
def IsGap
    (kind : Char → Bool)
    (gap : String) : Prop :=
  ∀ c ∈ gap.toList, kind c = false

instance
    (gap : String) : Decidable (IsGap kind gap) :=
  List.decidableBAll (fun c => kind c = false) gap.toList

/-
  What stands around a number of words: a gap before each of
  them and one behind the last. Only the gaps at the ends of
  the text may be empty.
-/
structure Spacing
    (kind : Char → Bool)
    (count : Nat) where
  gaps : List String
  trail : String
  length_gaps : gaps.length = count
  isGap_gaps : ∀ gap ∈ gaps, IsGap kind gap
  isGap_trail : IsGap kind trail
  apart : ∀ gap ∈ gaps.tail, gap ≠ ""

/- Each gap with the word behind it, and the last gap. -/
def spacedText
    (gaps words : List String)
    (trail : String) : String :=
  String.join (List.zipWith (· ++ ·) gaps words) ++ trail

/- The text of words and what stands around them. -/
def Spacing.text
    {count : Nat}
    (spacing : Spacing kind count)
    (words : List String) : String :=
  spacedText spacing.gaps words spacing.trail

------------------------------------------------------------
-- The Runs Among Gaps
------------------------------------------------------------

/- A gap is passed over. -/
theorem runs_gap_append
    {gap : List Char}
    (hGap : ∀ c ∈ gap, kind c = false)
    (rest : List Char) :
    runs kind (gap ++ rest) = runs kind rest := by
  induction gap with
  | nil => rfl
  | cons c gap ih =>
      rw [List.forall_mem_cons] at hGap
      rw [List.cons_append, runs, if_neg (by simp [hGap.1])]
      exact ih hGap.2

/- Text that does not go on with the kind ends a run. -/
theorem takeWhile_of_not_isAt
    {rest : List Char}
    (hRest : isAt kind rest 0 = false) :
    rest.takeWhile kind = [] ∧ rest.dropWhile kind = rest := by
  cases rest with
  | nil => exact ⟨rfl, rfl⟩
  | cons c rest =>
      have hOther : ¬ kind c = true :=
        (Bool.not_eq_true _).mpr hRest
      exact ⟨List.takeWhile_cons_of_neg hOther,
        List.dropWhile_cons_of_neg hOther⟩

/- A word is read up to the gap behind it. -/
theorem runs_word_append
    {word rest : List Char}
    (hSome : word ≠ [])
    (hWord : ∀ c ∈ word, kind c = true)
    (hRest : isAt kind rest 0 = false) :
    runs kind (word ++ rest) = word :: runs kind rest := by
  rcases takeWhile_of_not_isAt hRest with ⟨hTake, hDrop⟩
  cases word with
  | nil => exact absurd rfl hSome
  | cons c letters =>
      rw [List.forall_mem_cons] at hWord
      rw [List.cons_append, runs, if_pos hWord.1,
        List.takeWhile_append_of_pos hWord.2, hTake,
        List.append_nil,
        List.dropWhile_append_of_pos hWord.2, hDrop]

theorem toList_spacedText_cons
    (gap word : String)
    (gaps words : List String)
    (trail : String) :
    (spacedText (gap :: gaps) (word :: words) trail).toList =
      gap.toList ++
        (word.toList ++
          (spacedText gaps words trail).toList) := by
  simp [spacedText, String.toList_join]

/- Behind a word stands a gap or the end of the text. -/
theorem not_isAt_spacedText
    {gaps words : List String}
    {trail : String}
    (hLength : gaps.length = words.length)
    (hGaps : ∀ gap ∈ gaps, IsGap kind gap)
    (hTrail : IsGap kind trail)
    (hApart : ∀ gap ∈ gaps, gap ≠ "") :
    isAt kind (spacedText gaps words trail).toList 0 =
      false := by
  cases gaps with
  | nil =>
      rw [spacedText, List.zipWith_nil_left, String.join_nil,
        String.empty_append]
      exact not_isAt_of_forall hTrail 0
  | cons gap gaps =>
      rcases List.exists_cons_of_length_eq_add_one
          hLength.symm with ⟨word, words, rfl⟩
      rw [List.forall_mem_cons] at hGaps hApart
      have hSome : 0 < gap.toList.length := by
        rw [List.length_pos_iff, Ne, String.toList_eq_nil_iff]
        exact hApart.1
      rw [toList_spacedText_cons, isAt_append_left hSome]
      exact not_isAt_of_forall hGaps.1 0

/- The runs of words with gaps around them are the words. -/
theorem runs_spacedText
    {gaps words : List String}
    {trail : String}
    (hLength : gaps.length = words.length)
    (hWords : ∀ word ∈ words, IsWord kind word)
    (hGaps : ∀ gap ∈ gaps, IsGap kind gap)
    (hTrail : IsGap kind trail)
    (hApart : ∀ gap ∈ gaps.tail, gap ≠ "") :
    runs kind (spacedText gaps words trail).toList =
      words.map String.toList := by
  induction words generalizing gaps with
  | nil =>
      cases List.eq_nil_of_length_eq_zero hLength
      have hOnly := runs_gap_append hTrail []
      rw [List.append_nil] at hOnly
      rw [spacedText, List.zipWith_nil_left, String.join_nil,
        String.empty_append, hOnly, runs]
      rfl
  | cons word words ih =>
      rcases List.exists_cons_of_length_eq_add_one hLength
        with ⟨gap, gaps, rfl⟩
      have hRest := Nat.succ.inj hLength
      rw [List.forall_mem_cons] at hWords hGaps
      have hLetters : word.toList ≠ [] :=
        mt String.toList_eq_nil_iff.mp hWords.1.1
      have hBehind :=
        not_isAt_spacedText hRest hGaps.2 hTrail hApart
      rw [toList_spacedText_cons, runs_gap_append hGaps.1,
        runs_word_append hLetters hWords.1.2 hBehind,
        ih hRest hWords.2 hGaps.2 ?_, List.map_cons]
      intro other hOther
      exact hApart other (List.mem_of_mem_tail hOther)

/- Words are found whatever stands around them. -/
theorem Spacing.runs_text
    {words : List String}
    (spacing : Spacing kind words.length)
    (hWords : ∀ word ∈ words, IsWord kind word) :
    runs kind (spacing.text words).toList =
      words.map String.toList :=
  runs_spacedText spacing.length_gaps hWords
    spacing.isGap_gaps spacing.isGap_trail spacing.apart

end Text

end Constituency
