import Constituency.Chart.Buckets

/-
  This file defines how things are filed. Things are kept in
  one array and known by their places in it; a table lists
  the places of the things that belong together, in the
  order of the array.

  Key definitions include:
    * `placesOf`
    * `Buckets.Files`
    * `Buckets.FilesUnder`
-/

namespace Constituency

variable {α : Type}

------------------------------------------------------------
-- Places
------------------------------------------------------------

/- The places of the things that pass a test, in order. -/
def placesOf
    (things : Array α)
    (test : α → Bool) : List Nat :=
  (things.toList.zipIdx.filter
      (fun entry => test entry.1)).map Prod.snd

@[simp] theorem placesOf_empty
    (test : α → Bool) :
    placesOf #[] test = [] :=
  rfl

/- A last thing has the last place. -/
theorem placesOf_push
    (things : Array α)
    (last : α)
    (test : α → Bool) :
    placesOf (things.push last) test =
      if test last then
        placesOf things test ++ [things.size]
      else
        placesOf things test := by
  cases hTest : test last with
  | true =>
      simp [placesOf, List.zipIdx_append, hTest]
  | false =>
      simp [placesOf, List.zipIdx_append, hTest]

/- At the places are the things that pass the test. -/
theorem map_placesOf
    (things : Array α)
    (test : α → Bool) :
    (placesOf things test).map (things[·]?) =
      (things.toList.filter test).map some := by
  have hThere :
      ∀ entry ∈ things.toList.zipIdx,
        things[entry.2]? = some entry.1 := by
    intro entry hEntry
    rw [← Array.getElem?_toList]
    exact List.mem_zipIdx_iff_getElem?.mp hEntry
  have hThings :
      things.toList.filter test =
        (things.toList.zipIdx.filter
          (fun entry => test entry.1)).map Prod.fst := by
    conv =>
      lhs
      rw [← List.zipIdx_map_fst 0 things.toList]
    rw [List.filter_map]
    rfl
  rw [hThings, placesOf, List.map_map, List.map_map]
  apply List.map_congr_left
  intro entry hEntry
  exact hThere entry (List.mem_filter.mp hEntry).1

------------------------------------------------------------
-- Tables of Places
------------------------------------------------------------

namespace Buckets

/-
  Each row lists the places of the things that have its
  number.
-/
def Files
    (rows : Buckets Nat)
    (things : Array α)
    (number : α → Nat) : Prop :=
  ∀ n, (rows.row n).toList =
    placesOf things (fun thing => number thing = n)

/-
  Each row lists the places of the things that have its
  number, and labels them.
-/
def FilesUnder
    {κ : Type}
    [DecidableEq κ]
    (rows : Buckets (κ × Nat))
    (things : Array α)
    (number : α → Nat)
    (label : α → κ) : Prop :=
  ∀ n l, rows.under n l =
    placesOf things
      (fun thing => number thing = n ∧ label thing = l)

theorem files_empty
    (size : Nat)
    (number : α → Nat) :
    (empty size).Files #[] number := by
  intro n
  simp

/- Filing the next place keeps a table right. -/
theorem Files.push
    {rows : Buckets Nat}
    {things : Array α}
    {number : α → Nat}
    (hFiles : rows.Files things number)
    {size : Nat}
    {last : α}
    (hThere : number last < (rows.extend size).size) :
    ((rows.extend size).file (number last)
      things.size).Files (things.push last) number := by
  intro n
  rw [row_file _ hThere, placesOf_push, row_extend]
  by_cases hNumber : n = number last
  · simp [hNumber, hFiles (number last)]
  · have hDistinct : ¬ number last = n :=
      fun hSame => hNumber hSame.symm
    simp [hNumber, hDistinct, hFiles n]

section

variable {κ : Type}
variable [DecidableEq κ]

theorem filesUnder_empty
    (size : Nat)
    (number : α → Nat)
    (label : α → κ) :
    (empty size).FilesUnder #[] number label := by
  intro n l
  simp

/- Filing the next place under its label keeps it right. -/
theorem FilesUnder.push
    {rows : Buckets (κ × Nat)}
    {things : Array α}
    {number : α → Nat}
    {label : α → κ}
    (hFiles : rows.FilesUnder things number label)
    {size : Nat}
    {last : α}
    (hThere : number last < (rows.extend size).size) :
    ((rows.extend size).file (number last)
      (label last, things.size)).FilesUnder
        (things.push last) number label := by
  intro n l
  have hOld := hFiles n l
  rw [under_file _ hThere, placesOf_push, under_extend, hOld]
  by_cases hBoth : n = number last ∧ l = label last
  · rw [if_pos hBoth]
    simp [hBoth.1, hBoth.2]
  · have hDistinct :
        ¬ (number last = n ∧ label last = l) :=
      fun hSame => hBoth ⟨hSame.1.symm, hSame.2.symm⟩
    rw [if_neg hBoth]
    simp [hDistinct]

end

end Buckets

end Constituency
