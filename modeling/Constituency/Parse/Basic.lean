import Constituency.Parse.Config
import Constituency.Parse.Saturation
import Constituency.Parse.Sweep
import Constituency.Text.Sorted

/-
  This file defines parses: the chart that was filled for an
  input, and what it shows to be recognised.

  Key definitions include:
    * `Parse`
    * `Parse.completeItems`
    * `Parse.isRecognised`
    * `Parse.trees`
    * `Outcome`
    * `Grammar.parse`
-/

namespace Constituency

variable {G : Grammar}

------------------------------------------------------------
-- Parses
------------------------------------------------------------

/- A filled chart. -/
structure Parse (G : Grammar) where
  algorithm : Algorithm
  start : Symbol
  words : List Symbol
  chart : Chart G
  passes : Nat

/-
  The item recognises a whole constituent for a symbol.
-/
def Item.isConstituentOf
    (symbol : Symbol)
    (item : Item G) : Bool :=
  match item.key with
  | .single rule _ _ =>
      item.key.isComplete && (G.rule rule).lhs = symbol
  | .completed rule _ => (G.rule rule).lhs = symbol
  | _ => false

namespace Parse

/- The constituents for the start symbol over all words. -/
def completeItems
    (parse : Parse G) : List (Item G) :=
  (parse.chart.spanning ⟨0, parse.words.length⟩).filter
    (Item.isConstituentOf parse.start)

/- The start symbol is recognised over all words. -/
def isRecognised
    (parse : Parse G) : Bool :=
  !parse.completeItems.isEmpty

/- The distinct trees of the recognised constituents. -/
def trees
    (parse : Parse G) : List String :=
  Text.sortDistinct (parse.completeItems.map Item.tree)

/- The event that ends a parse. -/
def finish
    (parse : Parse G) : Event G :=
  .finished parse.chart.size parse.passes
    parse.isRecognised

end Parse

------------------------------------------------------------
-- Parsing
------------------------------------------------------------

/-
  What parsing gives: a parse or the reason why there is
  none, and all that happened up to then.
-/
structure Outcome (G : Grammar) where
  events : List (Event G)
  result : Except ParseError (Parse G)

/-
  The outcome of work on a chart, of which `read` tells the
  chart, the passes and the events.
-/
def Outcome.ofProgress
    {σ : Type}
    (algorithm : Algorithm)
    (start : Symbol)
    (words : List Symbol)
    (read : σ → Chart G × Nat × Array (Event G))
    (progress : Progress σ) : Outcome G :=
  let (chart, passes, events) := read progress.state
  match progress with
  | .failed error _ => ⟨events.toList, .error error⟩
  | _ =>
      let parse : Parse G :=
        ⟨algorithm, start, words, chart, passes⟩
      ⟨events.toList ++ [parse.finish], .ok parse⟩

/- The steps of the algorithms that sweep. -/
def Algorithm.sweepSteps : Algorithm → List Step
  | .leftCorner =>
      [.leftCornerPredict, .leftCornerScan, .scan, .complete]
  | _ => [.predict, .scan, .complete]

/- Parse words from a start symbol. -/
def Grammar.parse
    (G : Grammar)
    (algorithm : Algorithm)
    (start : Symbol)
    (limit : Option Nat)
    (words : List Symbol) : Outcome G :=
  match algorithm with
  | .headCorner =>
      Outcome.ofProgress algorithm start words
        (fun state =>
          (state.chart, state.passes, state.events))
        (Saturation.run G ⟨words, start, limit⟩)
  | _ =>
      Outcome.ofProgress algorithm start words
        (fun state =>
          (state.chart, state.passes, state.events))
        (Sweep.run G
          ⟨words, start, algorithm.sweepSteps, limit⟩)

end Constituency
