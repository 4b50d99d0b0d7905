import Constituency.Pattern.Program

/-
  This file splits texts into words: the matches of a
  program, from left to right, that do not overlap. An empty
  match is a word too, unless a match has just ended there.

  Key definitions include:
    * `Program.wordsFrom`
    * `Program.words`
-/

namespace Constituency

namespace Program

/-
  The words of the rest of a text. `justMatched` says that a
  word ends where the rest begins.
-/
def wordsFrom
    (program : Program)
    (before : Option Char)
    (justMatched : Bool)
    (text : List Char) : List (List Char) :=
  match program.matchLength before text, text with
  | some 0, [] => if justMatched then [] else [[]]
  | _, [] => []
  | some (n + 1), c :: rest =>
      let word := c :: rest.take n
      word ::
        wordsFrom program word.getLast? true (rest.drop n)
  | some 0, c :: rest =>
      if justMatched then
        wordsFrom program (some c) false rest
      else
        [] :: wordsFrom program (some c) false rest
  | none, c :: rest =>
      wordsFrom program (some c) false rest
termination_by text.length
decreasing_by
  all_goals simp only [List.length_cons, List.length_drop]
  all_goals omega

/- The words of a text. -/
def words
    (program : Program)
    (text : String) : List String :=
  (wordsFrom program none false text.toList).map
    String.ofList

end Program

end Constituency
