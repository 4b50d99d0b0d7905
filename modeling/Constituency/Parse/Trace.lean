import Constituency.Inference.Demand
import Constituency.Inference.LeftCorner
import Constituency.Item.Printer

/-
  This file defines the steps that fill a chart, and the
  events that tell what happened while it was filled.

  Key definitions include:
    * `Step`
    * `Step.name`
    * `Step.offers`
    * `Event`
    * `Event.text`
-/

namespace Constituency

------------------------------------------------------------
-- Steps
------------------------------------------------------------

/- The ways of finding items from an item. -/
inductive Step where
  | predict
  | leftCornerPredict
  | complete
  | scan
  | leftCornerScan
  | combine
deriving DecidableEq

namespace Step

/- The name of a step. -/
def name : Step → String
  | predict => "predict"
  | leftCornerPredict => "lc-predict"
  | complete => "complete"
  | scan => "scan"
  | leftCornerScan => "lc-scan"
  | combine => "combine"

variable {G : Grammar}

/- The items that a step finds from an item. -/
def offers
    (C : Chart G)
    (words : List Symbol)
    (item : Item G) : Step → Offers G
  | predict => item.predict
  | leftCornerPredict => item.leftCornerPredict C
  | complete => item.complete C
  | scan => item.scan words
  | leftCornerScan => item.leftCornerScan words
  | combine => item.combine C words

end Step

------------------------------------------------------------
-- Events
------------------------------------------------------------

/- What can happen while a chart is filled. -/
inductive Event (G : Grammar) where
  /- An item is there from the beginning. -/
  | seeded (item : Item G)
  /- A step found new items from an item. -/
  | applied (step : Step) (item : Item G) (added : Nat)
  /- An item waits for a terminal that is not the next word. -/
  | unmatched (item : Item G) (wanted : Symbol)
      (position : Nat)
  /- The chart is full. -/
  | finished (items passes : Nat) (recognised : Bool)

/- The line that tells of an event. -/
def Event.text
    {G : Grammar} : Event G → String
  | seeded item => "seed " ++ item.text
  | applied step item added =>
      step.name ++ " " ++ item.text ++ " +" ++
        toString added
  | unmatched item wanted position =>
      "unmatched " ++ item.text ++ " wants `" ++ wanted ++
        "` at " ++ toString position
  | finished items passes recognised =>
      "finished items=" ++ toString items ++ " passes=" ++
        toString passes ++ " recognised=" ++
        toString recognised

------------------------------------------------------------
-- Failure
------------------------------------------------------------

/- Why filling a chart was given up. -/
inductive ParseError where
  | itemLimit (limit : Nat)
  | brokenItem (cause : ItemError)
deriving DecidableEq

/- The text of a parse error. -/
def ParseError.message : ParseError → String
  | itemLimit limit =>
      "chart grew past the limit of " ++ toString limit ++
        " items"
  | brokenItem cause => cause.message

/- The error of a chart that holds more items than it may. -/
def Chart.limitError
    {G : Grammar}
    (C : Chart G)
    (limit : Option Nat) : Option ParseError :=
  match limit with
  | none => none
  | some most =>
      if most < C.size then some (.itemLimit most) else none

end Constituency
