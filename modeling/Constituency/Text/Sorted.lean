/-
  This file defines the sorted listing of a collection of
  texts, in which every text occurs once. Texts are compared
  character by character, by code point.

  Key definitions include:
    * `Text.insertSorted`
    * `Text.sortDistinct`
-/

namespace Constituency

namespace Text

/- Insert a text into a sorted list unless it is there. -/
def insertSorted
    (text : String) :
    List String → List String
  | [] => [text]
  | first :: rest =>
      if text < first then
        text :: first :: rest
      else if text = first then
        first :: rest
      else
        first :: insertSorted text rest

/- The distinct texts of a list in increasing order. -/
def sortDistinct
    (texts : List String) : List String :=
  texts.foldr insertSorted []

/- Inserting adds one text and loses none. -/
theorem mem_insertSorted_iff
    {text other : String}
    {texts : List String} :
    other ∈ insertSorted text texts ↔
      other = text ∨ other ∈ texts := by
  induction texts with
  | nil => simp [insertSorted]
  | cons first rest ih =>
      by_cases hLess : text < first
      · simp [insertSorted, hLess]
      · by_cases hSame : text = first
        · simp [insertSorted, hSame]
        · rw [insertSorted, if_neg hLess, if_neg hSame,
            List.mem_cons, List.mem_cons, ih]
          exact or_left_comm

/- Sorting keeps exactly the texts that were given. -/
theorem mem_sortDistinct_iff
    {text : String}
    {texts : List String} :
    text ∈ sortDistinct texts ↔ text ∈ texts := by
  induction texts with
  | nil => simp [sortDistinct]
  | cons first rest ih =>
      unfold sortDistinct at ih ⊢
      simp [mem_insertSorted_iff, ih]

end Text

end Constituency
