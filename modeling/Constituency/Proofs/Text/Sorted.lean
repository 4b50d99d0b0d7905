import Constituency.Text.Sorted

/-
  This file shows that a sorted listing is in increasing
  order. So it has every text once, and there is only one
  such listing of a single text.

  Main declarations:
    * `Text.pairwise_sortDistinct`
    * `Text.nodup_sortDistinct`
    * `Text.sortDistinct_eq_singleton`
-/

namespace Constituency

namespace Text

/- Of two different texts the greater one is the other. -/
theorem lt_of_not_lt_of_ne
    {text other : String}
    (hLess : ¬ text < other)
    (hOther : text ≠ other) :
    other < text := by
  apply Classical.byContradiction
  intro hGreater
  exact hOther (String.le_antisymm (String.not_lt.mp hGreater)
    (String.not_lt.mp hLess))

/- Inserting a text keeps a listing in increasing order. -/
theorem pairwise_insertSorted
    (text : String)
    {texts : List String}
    (hTexts : texts.Pairwise (· < ·)) :
    (insertSorted text texts).Pairwise (· < ·) := by
  induction texts with
  | nil => exact List.pairwise_singleton _ _
  | cons first rest ih =>
      rcases List.pairwise_cons.mp hTexts with
        ⟨hFirst, hRest⟩
      unfold insertSorted
      split
      · rename_i hLess
        refine List.pairwise_cons.mpr ⟨?_, hTexts⟩
        intro other hMember
        rcases List.mem_cons.mp hMember with hSame | hLater
        · rw [hSame]
          exact hLess
        · exact String.lt_trans hLess (hFirst other hLater)
      · rename_i hLess
        split
        · exact hTexts
        · rename_i hOther
          refine List.pairwise_cons.mpr ⟨?_, ih hRest⟩
          intro other hMember
          rcases mem_insertSorted_iff.mp hMember with
            hSame | hLater
          · rw [hSame]
            exact lt_of_not_lt_of_ne hLess hOther
          · exact hFirst other hLater

/- A sorted listing is in increasing order. -/
theorem pairwise_sortDistinct
    (texts : List String) :
    (sortDistinct texts).Pairwise (· < ·) := by
  unfold sortDistinct
  induction texts with
  | nil => exact List.Pairwise.nil
  | cons first rest ih =>
      exact pairwise_insertSorted first ih

/- A sorted listing has every text once. -/
theorem nodup_sortDistinct
    (texts : List String) :
    (sortDistinct texts).Nodup := by
  apply (pairwise_sortDistinct texts).imp
  intro text other hLess hSame
  rw [hSame] at hLess
  exact String.lt_irrefl other hLess

/- The listing of one text, however often it is given. -/
theorem sortDistinct_eq_singleton
    {texts : List String}
    {text : String}
    (hText : text ∈ texts)
    (hOnly : ∀ other ∈ texts, other = text) :
    sortDistinct texts = [text] := by
  apply List.perm_singleton.mp
  apply (List.perm_ext_iff_of_nodup
    (nodup_sortDistinct texts) (by simp)).mpr
  intro other
  rw [mem_sortDistinct_iff, List.mem_singleton]
  constructor
  · exact hOnly other
  · intro hSame
    rw [hSame]
    exact hText

end Text

end Constituency
