/-
  This file defines numbered buckets: rows of values, one
  row for each number below a size that can grow.

  Key definitions include:
    * `Buckets`
    * `Buckets.size`
    * `Buckets.row`
    * `Buckets.under`
    * `Buckets.empty`
    * `Buckets.file`
-/

namespace Constituency

/- Rows of values numbered from zero. -/
structure Buckets (α : Type) where
  rows : Array (Array α)

namespace Buckets

variable {α : Type}

/- How many rows there are. -/
def size
    (buckets : Buckets α) : Nat :=
  buckets.rows.size

/- The row with a number; beyond the size it is empty. -/
def row
    (buckets : Buckets α)
    (number : Nat) : Array α :=
  buckets.rows.getD number #[]

/- The values of a row that carry a label, in order. -/
def under
    {κ : Type}
    [DecidableEq κ]
    (buckets : Buckets (κ × α))
    (number : Nat)
    (label : κ) : List α :=
  ((buckets.row number).toList.filter
      (fun entry => entry.1 = label)).map Prod.snd

/- A number of empty rows. -/
def empty
    (size : Nat) : Buckets α :=
  ⟨Array.replicate size #[]⟩

/- At least a number of rows, new ones being empty. -/
def extend
    (buckets : Buckets α)
    (size : Nat) : Buckets α :=
  ⟨buckets.rows ++
    Array.replicate (size - buckets.rows.size) #[]⟩

/- Put a value at the end of a row that is there. -/
def file
    (buckets : Buckets α)
    (number : Nat)
    (value : α) : Buckets α :=
  ⟨buckets.rows.modify number (fun row => row.push value)⟩

------------------------------------------------------------
-- Sizes and Rows
------------------------------------------------------------

@[simp] theorem size_empty
    (size : Nat) :
    (empty size : Buckets α).size = size := by
  simp [empty, Buckets.size]

@[simp] theorem row_empty
    (size number : Nat) :
    (empty size : Buckets α).row number = #[] := by
  simp only [empty, row, Array.getD_eq_getD_getElem?,
    Array.getElem?_replicate]
  split <;> rfl

@[simp] theorem size_extend
    (buckets : Buckets α)
    (size : Nat) :
    (buckets.extend size).size = max buckets.size size := by
  simp only [extend, Buckets.size, Array.size_append,
    Array.size_replicate]
  omega

/- A row is there once there are enough rows. -/
theorem lt_size_extend
    (buckets : Buckets α)
    (number : Nat) :
    number < (buckets.extend (number + 1)).size := by
  rw [size_extend]
  exact Nat.lt_of_lt_of_le (Nat.lt_succ_self number)
    (Nat.le_max_right _ _)

@[simp] theorem row_extend
    (buckets : Buckets α)
    (size number : Nat) :
    (buckets.extend size).row number =
      buckets.row number := by
  simp only [extend, row, Array.getD_eq_getD_getElem?,
    Array.getElem?_append, Array.getElem?_replicate]
  split
  · rfl
  · rename_i hBeyond
    rw [Array.getElem?_eq_none (by omega)]
    split <;> rfl

@[simp] theorem size_file
    (buckets : Buckets α)
    (number : Nat)
    (value : α) :
    (buckets.file number value).size = buckets.size := by
  simp [file, Buckets.size]

theorem row_file
    (buckets : Buckets α)
    {number : Nat}
    (hThere : number < buckets.size)
    (value : α)
    (other : Nat) :
    (buckets.file number value).row other =
      if other = number then
        (buckets.row other).push value
      else
        buckets.row other := by
  unfold Buckets.size at hThere
  simp only [file, row, Array.getD_eq_getD_getElem?,
    Array.getElem?_modify]
  by_cases hSame : number = other
  · subst hSame
    simp [hThere]
  · have hDistinct : ¬ other = number :=
      fun hEqual => hSame hEqual.symm
    simp [hSame, hDistinct]

/- Rows beyond the size hold nothing. -/
theorem row_of_size_le
    (buckets : Buckets α)
    {number : Nat}
    (hBeyond : buckets.size ≤ number) :
    buckets.row number = #[] := by
  unfold Buckets.size at hBeyond
  simp [row, Array.getD_eq_getD_getElem?, hBeyond]

------------------------------------------------------------
-- Labelled Values
------------------------------------------------------------

section

variable {κ : Type}
variable [DecidableEq κ]

@[simp] theorem under_empty
    (size number : Nat)
    (label : κ) :
    (empty size : Buckets (κ × α)).under number label = [] := by
  simp [under]

@[simp] theorem under_extend
    (buckets : Buckets (κ × α))
    (size number : Nat)
    (label : κ) :
    (buckets.extend size).under number label =
      buckets.under number label := by
  simp [under]

/- A labelled value is found in its row under its label. -/
theorem under_file
    (buckets : Buckets (κ × α))
    {number : Nat}
    (hThere : number < buckets.size)
    (label : κ)
    (value : α)
    (other : Nat)
    (name : κ) :
    (buckets.file number (label, value)).under other name =
      if other = number ∧ name = label then
        buckets.under other name ++ [value]
      else
        buckets.under other name := by
  unfold under
  rw [row_file buckets hThere]
  by_cases hRow : other = number
  · by_cases hLabel : name = label
    · simp [hRow, hLabel]
    · have hDistinct : ¬ label = name :=
        fun hSame => hLabel hSame.symm
      simp [hRow, hLabel, hDistinct]
  · simp [hRow]

end

end Buckets

end Constituency
