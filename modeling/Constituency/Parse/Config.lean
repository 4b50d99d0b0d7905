import Constituency.Grammar.Basic

/-
  This file defines how a parser can be set up.

  Key definitions include:
    * `ConfigError`
    * `Algorithm`
    * `Algorithm.ofName`
    * `Algorithm.name`
    * `Config`
    * `Config.default`
-/

namespace Constituency

/- Why no parser can be built from a configuration. -/
inductive ConfigError where
  | unknownAlgorithm (name : String)
  | unknownStart (symbol : Symbol)
  | badPattern
deriving DecidableEq

/-
  The text of a configuration error. What is wrong with a
  pattern is not told.
-/
def ConfigError.message : ConfigError → String
  | .unknownAlgorithm name =>
      "unknown parsing algorithm `" ++ name ++ "`"
  | .unknownStart symbol =>
      "start symbol `" ++ symbol ++ "` has no rules"
  | .badPattern => "bad token pattern"

/- The three ways of filling a chart. -/
inductive Algorithm where
  | earley
  | leftCorner
  | headCorner
deriving DecidableEq

namespace Algorithm

/- The algorithm with a given name or short name. -/
def ofName : String → Except ConfigError Algorithm
  | "earley" => .ok .earley
  | "left-corner" | "lc" => .ok .leftCorner
  | "head-corner" | "hc" => .ok .headCorner
  | other => .error (.unknownAlgorithm other)

/- The name of an algorithm. -/
def name : Algorithm → String
  | earley => "earley"
  | leftCorner => "left-corner"
  | headCorner => "head-corner"

/- Every algorithm is found under its own name. -/
theorem ofName_name
    (algorithm : Algorithm) :
    ofName algorithm.name = .ok algorithm := by
  cases algorithm <;> rfl

end Algorithm

/- The choices that a parser is built from. -/
structure Config where
  algorithm : Algorithm
  /- Replaces the start symbol of the grammar. -/
  start : Option Symbol
  /- The chart may hold no more items than this. -/
  itemLimit : Option Nat
  /- Each match of this pattern is one word. -/
  tokenPattern : String
deriving DecidableEq

/-
  Earley's algorithm from the grammar's own start symbol,
  without a limit, on words separated by blanks.
-/
def Config.default : Config :=
  ⟨.earley, none, none, "\\S+"⟩

end Constituency
