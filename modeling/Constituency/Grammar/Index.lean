import Constituency.Grammar.Rule

/-
  This file defines an index: values filed under symbols,
  the values of one symbol in the order in which they were
  filed.

  Key definitions include:
    * `Index`
    * `Index.groupOf`
    * `Index.find`
    * `Index.hasKey`
    * `Index.file`
    * `Index.fileUnder`
-/

namespace Constituency

/- Values filed under symbols, one group for each symbol. -/
structure Index (α : Type) where
  groups : List (Symbol × List α)

namespace Index

variable {α : Type}

/- The index that files nothing. -/
def empty : Index α :=
  ⟨[]⟩

/- The group of a symbol, if there is one. -/
def groupOf
    (symbol : Symbol) :
    List (Symbol × List α) → Option (List α)
  | [] => none
  | (key, values) :: groups =>
      if symbol = key then
        some values
      else
        groupOf symbol groups

/- The values filed under a symbol. -/
def find
    (index : Index α)
    (symbol : Symbol) : List α :=
  (groupOf symbol index.groups).getD []

/- Something was filed under the symbol. -/
def hasKey
    (index : Index α)
    (symbol : Symbol) : Bool :=
  (groupOf symbol index.groups).isSome

/- Add one value at the end of its symbol's group. -/
def fileIn
    (symbol : Symbol)
    (value : α) :
    List (Symbol × List α) → List (Symbol × List α)
  | [] => [(symbol, [value])]
  | (key, values) :: groups =>
      if symbol = key then
        (key, values ++ [value]) :: groups
      else
        (key, values) :: fileIn symbol value groups

/- File one value under a symbol. -/
def file
    (index : Index α)
    (symbol : Symbol)
    (value : α) : Index α :=
  ⟨fileIn symbol value index.groups⟩

/- File one value under its key, if it has one. -/
def fileUnder
    (index : Index α)
    (key : Option Symbol)
    (value : α) : Index α :=
  match key with
  | none => index
  | some symbol => index.file symbol value

------------------------------------------------------------
-- Looking Up Filed Values
------------------------------------------------------------

theorem groupOf_fileIn
    (symbol other : Symbol)
    (value : α)
    (groups : List (Symbol × List α)) :
    groupOf other (fileIn symbol value groups) =
      if other = symbol then
        some ((groupOf symbol groups).getD [] ++ [value])
      else
        groupOf other groups := by
  induction groups with
  | nil => simp [fileIn, groupOf]
  | cons first groups ih =>
      obtain ⟨key, values⟩ := first
      by_cases hKey : symbol = key
      · subst hKey
        by_cases hOther : other = symbol <;>
          simp [fileIn, groupOf, hOther]
      · by_cases hOther : other = key
        · have hDistinct : ¬ key = symbol :=
            fun hSame => hKey hSame.symm
          simp [fileIn, groupOf, hKey, hOther, hDistinct]
        · simp [fileIn, groupOf, hKey, hOther, ih]

theorem find_file
    (index : Index α)
    (symbol other : Symbol)
    (value : α) :
    (index.file symbol value).find other =
      if other = symbol then
        index.find other ++ [value]
      else
        index.find other := by
  by_cases hOther : other = symbol <;>
    simp [find, file, groupOf_fileIn, hOther]

theorem hasKey_file
    (index : Index α)
    (symbol other : Symbol)
    (value : α) :
    (index.file symbol value).hasKey other =
      (decide (other = symbol) || index.hasKey other) := by
  by_cases hOther : other = symbol <;>
    simp [hasKey, file, groupOf_fileIn, hOther]

/- A value filed under its key comes after the others. -/
theorem find_fileUnder
    (index : Index α)
    (key : Option Symbol)
    (value : α)
    (symbol : Symbol) :
    (index.fileUnder key value).find symbol =
      if key = some symbol then
        index.find symbol ++ [value]
      else
        index.find symbol := by
  cases key with
  | none => simp [fileUnder]
  | some other => simp [fileUnder, find_file, eq_comm]

end Index

end Constituency
