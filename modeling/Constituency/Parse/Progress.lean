import Constituency.Parse.Trace

/-
  This file defines step-by-step work on a state, which goes
  on until the state is final or the work is given up.

  Key definitions include:
    * `Progress`
    * `Progress.state`
    * `Progress.iterate`
-/

namespace Constituency

/- How far the work on a state has come. -/
inductive Progress (σ : Type) where
  | running (state : σ)
  | finished (state : σ)
  | failed (error : ParseError) (state : σ)

namespace Progress

variable {σ : Type}

/- The state that has been reached. -/
def state : Progress σ → σ
  | running state => state
  | finished state => state
  | failed _ state => state

/-
  Work on a state for at most `budget` steps.
-/
def iterate
    (step : σ → Progress σ) :
    Nat → σ → Progress σ
  | 0, state => .running state
  | budget + 1, state =>
      match step state with
      | .running next => iterate step budget next
      | .finished last => .finished last
      | .failed error last => .failed error last

end Progress

end Constituency
