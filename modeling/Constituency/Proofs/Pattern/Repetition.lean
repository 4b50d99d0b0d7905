import Constituency.Pattern.Words
import Constituency.Proofs.Text.Runs

/-
  This file follows a program for one or more characters of
  a class. At each place two threads are alive: one that
  reads on and, after it, one that accepts; so a match goes
  on as long as it can. The words of a text are its runs of
  characters of the class.

  Key definitions include:
    * `Expr.oneOrMore`

  Main declarations:
    * `Program.matchFrom_cons`
    * `Program.matchFrom_oneOrMore`
    * `Program.matchLength_of_contains`
    * `Program.matchLength_of_not_isAt`
    * `Program.wordsFrom_oneOrMore`
-/

namespace Constituency

/- Characters of a class, one or more, as many as can be. -/
def Expr.oneOrMore
    (set : CharClass) : Expr :=
  .repetition (.chars set) 1 none true

namespace Program

variable (set : CharClass)

/- The first character is read; the fork leads back to it. -/
theorem ofExpr_oneOrMore :
    ofExpr (.oneOrMore set) =
      ⟨#[.accept, .branch 2 0, .read set 1], 2⟩ :=
  rfl

/- A match must begin with a character. -/
theorem reach_entry
    (before after : Option Char) :
    reach (ofExpr (.oneOrMore set)).code before after
        [(ofExpr (.oneOrMore set)).entry] =
      [.read set 1] := by
  rw [ofExpr_oneOrMore]
  rfl

/- Then reading on is preferred to accepting. -/
theorem reach_fork
    (before after : Option Char) :
    reach (ofExpr (.oneOrMore set)).code before after [1] =
      [.read set 1, .accept] := by
  rw [ofExpr_oneOrMore]
  rfl

/-
  A character of the class is read, and any other one ends
  the match with what has been found. At the start nothing
  accepts, and later on all that has been read is found.
-/
theorem matchFrom_cons
    {others : List Instruction}
    {count : Nat}
    {best found : Option Nat}
    (hOthers : others = [] ∧ found = best ∨
      others = [.accept] ∧ found = some count)
    (c : Char)
    (rest : List Char) :
    matchFrom (ofExpr (.oneOrMore set)).code count best
        (.read set 1 :: others) (c :: rest) =
      if set.contains c then
        matchFrom (ofExpr (.oneOrMore set)).code (count + 1)
          found [.read set 1, .accept] rest
      else
        found := by
  rcases hOthers with ⟨rfl, rfl⟩ | ⟨rfl, rfl⟩
  · by_cases hFirst : set.contains c = true <;>
      simp [matchFrom, readOn, hFirst, reach_fork]
  · by_cases hFirst : set.contains c = true <;>
      simp [matchFrom, readOn, hFirst, reach_fork]

/- A match goes on up to a character of another class. -/
theorem matchFrom_oneOrMore
    (text : List Char)
    (count : Nat)
    (best : Option Nat) :
    matchFrom (ofExpr (.oneOrMore set)).code count best
        [.read set 1, .accept] text =
      some (count + (text.takeWhile set.contains).length) := by
  induction text generalizing count best with
  | nil => rfl
  | cons c rest ih =>
      rw [matchFrom_cons set (.inr ⟨rfl, rfl⟩)]
      by_cases hFirst : set.contains c = true
      · rw [if_pos hFirst, ih,
          List.takeWhile_cons_of_pos hFirst, List.length_cons,
          Nat.succ_add_eq_add_succ]
      · rw [if_neg hFirst, List.takeWhile_cons_of_neg hFirst]
        rfl

/- A match is as long as the run at the start of the text. -/
theorem matchLength_of_contains
    {c : Char}
    (hFirst : set.contains c = true)
    (before : Option Char)
    (rest : List Char) :
    (ofExpr (.oneOrMore set)).matchLength before
        (c :: rest) =
      some ((rest.takeWhile set.contains).length + 1) := by
  rw [matchLength, reach_entry,
    matchFrom_cons set (.inl ⟨rfl, rfl⟩), if_pos hFirst,
    matchFrom_oneOrMore, Nat.add_comm]

/- There is no match where no run starts. -/
theorem matchLength_of_not_isAt
    {text : List Char}
    (hText : Text.isAt set.contains text 0 = false)
    (before : Option Char) :
    (ofExpr (.oneOrMore set)).matchLength before text =
      none := by
  rw [matchLength, reach_entry]
  cases text with
  | nil => rfl
  | cons c rest =>
      have hOther : ¬ set.contains c = true :=
        (Bool.not_eq_true _).mpr hText
      rw [matchFrom_cons set (.inl ⟨rfl, rfl⟩),
        if_neg hOther]

------------------------------------------------------------
-- Words
------------------------------------------------------------

/- A match is a word; the search goes on behind it. -/
theorem wordsFrom_of_match
    {program : Program}
    {before : Option Char}
    {c : Char}
    {rest : List Char}
    {n : Nat}
    (hMatch :
      program.matchLength before (c :: rest) = some (n + 1))
    (justMatched : Bool) :
    program.wordsFrom before justMatched (c :: rest) =
      (c :: rest.take n) ::
        program.wordsFrom (c :: rest.take n).getLast? true
          (rest.drop n) := by
  rw [wordsFrom.eq_def, hMatch]

/- Where nothing matches the search moves on. -/
theorem wordsFrom_of_no_match
    {program : Program}
    {before : Option Char}
    {c : Char}
    {rest : List Char}
    (hNone : program.matchLength before (c :: rest) = none)
    (justMatched : Bool) :
    program.wordsFrom before justMatched (c :: rest) =
      program.wordsFrom (some c) false rest := by
  rw [wordsFrom.eq_def, hNone]

/- The words of a text are its runs. -/
theorem wordsFrom_oneOrMore
    (before : Option Char)
    (justMatched : Bool)
    (text : List Char) :
    (ofExpr (.oneOrMore set)).wordsFrom before justMatched
        text =
      Text.runs set.contains text := by
  induction text using Text.runs.induct set.contains
    generalizing before justMatched with
  | case1 =>
      rw [wordsFrom.eq_def, matchLength_of_not_isAt set rfl,
        Text.runs]
  | case2 c rest hFirst ih =>
      have hMatch :=
        matchLength_of_contains set hFirst before rest
      have hTake :
          rest.take (rest.takeWhile set.contains).length =
            rest.takeWhile set.contains :=
        (List.prefix_iff_eq_take.mp
          (List.takeWhile_prefix _)).symm
      have hDrop :
          rest.drop (rest.takeWhile set.contains).length =
            rest.dropWhile set.contains := by
        have hWhole :
            (rest.takeWhile set.contains ++
                rest.dropWhile set.contains).drop
              (rest.takeWhile set.contains).length =
              rest.dropWhile set.contains :=
          List.drop_left
        rwa [List.takeWhile_append_dropWhile] at hWhole
      rw [wordsFrom_of_match hMatch, hTake, hDrop, ih,
        Text.runs, if_pos hFirst]
  | case3 c rest hOther ih =>
      have hText :
          Text.isAt set.contains (c :: rest) 0 = false :=
        (Bool.not_eq_true _).mp hOther
      have hNone := matchLength_of_not_isAt set hText before
      rw [wordsFrom_of_no_match hNone, Text.runs,
        if_neg hOther]
      exact ih _ _

end Program

end Constituency
