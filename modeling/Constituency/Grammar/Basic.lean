import Constituency.Grammar.Corner
import Constituency.Text.Sorted

/-
  This file defines grammars: a nonempty table of rules
  together with the lookup tables that recognition needs.

  Key definitions include:
    * `Tables`
    * `Tables.file`
    * `Tables.ofRules`
    * `Grammar`
    * `Grammar.RuleId`
    * `Grammar.start`
    * `Grammar.rulesWithLhs`
    * `Grammar.rulesWithLeftmost`
    * `Grammar.rulesWithHead`
    * `Grammar.emptyRules`
    * `Grammar.isLeftCornerOf`
    * `Grammar.isHeadCornerOf`
    * `Grammar.total`
    * `Grammar.symbols`
    * `GrammarError`
    * `Grammar.ofSpecs`
-/

namespace Constituency

------------------------------------------------------------
-- Lookup Tables
------------------------------------------------------------

/-
  What is looked up while recognising: rule positions filed
  by left-hand side, by first daughter and by head daughter,
  the empty rules, and the symbols below each symbol along
  first daughters and along head daughters.
-/
structure Tables (n : Nat) where
  byLhs : Index (Fin n)
  byLeftmost : Index (Fin n)
  byHead : Index (Fin n)
  empty : List (Fin n)
  leftCorners : Index Symbol
  headCorners : Index Symbol

namespace Tables

variable {n : Nat}

/- Nothing has been filed. -/
def new
    (n : Nat) : Tables n :=
  ⟨.empty, .empty, .empty, [], .empty, .empty⟩

/-
  File a rule under each of its symbols that rules are
  looked up by. A rule without a head is an empty one.
-/
def file
    (tables : Tables n)
    (rule : Rule)
    (r : Fin n) : Tables n :=
  { tables with
    byLhs := tables.byLhs.file rule.lhs r
    byLeftmost := tables.byLeftmost.fileUnder rule.leftmost r
    byHead := tables.byHead.fileUnder rule.headSymbol r
    empty :=
      match rule.headSymbol with
      | none => tables.empty ++ [r]
      | some _ => tables.empty }

/-
  The lookup tables of a rule table. The rules are filed one
  after the other.
-/
def ofRules
    (rules : Array Rule) : Tables rules.size :=
  let filed :=
    (List.finRange rules.size).foldl
      (fun tables r => tables.file rules[r] r)
      (new rules.size)
  { filed with
    leftCorners := Corner.table Rule.leftmost rules.toList
    headCorners :=
      Corner.table Rule.headSymbol rules.toList }

end Tables

------------------------------------------------------------
-- Grammars
------------------------------------------------------------

/-
  A grammar has at least one rule. Its tables are always
  those of its rules.
-/
structure Grammar where
  rules : Array Rule
  size_pos : 0 < rules.size
  tables : Tables rules.size
  tables_eq : tables = Tables.ofRules rules

namespace Grammar

/- The grammar of a nonempty rule table. -/
def ofRules
    (rules : Array Rule)
    (hPositive : 0 < rules.size) : Grammar :=
  ⟨rules, hPositive, Tables.ofRules rules, rfl⟩

/- A rule is identified by its place in the rule table. -/
abbrev RuleId
    (G : Grammar) : Type :=
  Fin G.rules.size

/- All rules in the order of the rule table. -/
def ruleIds
    (G : Grammar) : List G.RuleId :=
  List.finRange G.rules.size

/- The rule at a place of the rule table. -/
def rule
    (G : Grammar)
    (r : G.RuleId) : Rule :=
  G.rules[r]

/- Recognition starts from the first rule's left-hand side. -/
def start
    (G : Grammar) : Symbol :=
  (G.rule ⟨0, G.size_pos⟩).lhs

/-
  A nonterminal is the left-hand side of some rule. Every
  other symbol is a terminal and stands for itself.
-/
def isNonterminal
    (G : Grammar)
    (symbol : Symbol) : Bool :=
  G.tables.byLhs.hasKey symbol

/- The rules for a nonterminal. -/
def rulesWithLhs
    (G : Grammar)
    (symbol : Symbol) : List G.RuleId :=
  G.tables.byLhs.find symbol

/- The rules whose first daughter is a symbol. -/
def rulesWithLeftmost
    (G : Grammar)
    (symbol : Symbol) : List G.RuleId :=
  G.tables.byLeftmost.find symbol

/- The rules whose head daughter is a symbol. -/
def rulesWithHead
    (G : Grammar)
    (symbol : Symbol) : List G.RuleId :=
  G.tables.byHead.find symbol

/- The rules without daughters. -/
def emptyRules
    (G : Grammar) : List G.RuleId :=
  G.tables.empty

/-
  A symbol is a left corner of itself and of every symbol
  that reaches it along first daughters.
-/
def isLeftCornerOf
    (G : Grammar)
    (lower upper : Symbol) : Bool :=
  lower == upper ||
    (G.tables.leftCorners.find upper).contains lower

/-
  A symbol is a head corner of itself and of every symbol
  that reaches it along head daughters.
-/
def isHeadCornerOf
    (G : Grammar)
    (lower upper : Symbol) : Bool :=
  lower == upper ||
    (G.tables.headCorners.find upper).contains lower

/- The sum of a number over all rules. -/
def total
    (G : Grammar)
    (size : Rule → Nat) : Nat :=
  G.rules.toList.foldr (fun rule n => size rule + n) 0

/- The symbols of the rules, sorted. -/
def symbols
    (G : Grammar) : List Symbol :=
  Text.sortDistinct
    (G.rules.toList.flatMap
      (fun rule => rule.lhs :: rule.rhs))

end Grammar

------------------------------------------------------------
-- Grammars From Written Alternatives
------------------------------------------------------------

/- Why written alternatives do not make a grammar. -/
inductive GrammarError where
  | multipleHeads (lhs : Symbol)
  | noRules
deriving DecidableEq

/- The text of a grammar error. -/
def GrammarError.message : GrammarError → String
  | .multipleHeads lhs =>
      "an alternative of `" ++ lhs ++
        "` marks more than one head"
  | .noRules => "grammar has no rules"

/-
  The grammar with one rule for each alternative, in the
  order in which they are written. The first alternative
  with several head marks is refused, and so is an empty
  list.
-/
def Grammar.ofSpecs
    (specs : List RuleSpec) : Except GrammarError Grammar :=
  match specs.find? (fun spec => 1 < spec.markCount) with
  | some spec => .error (.multipleHeads spec.lhs)
  | none =>
      let rules := (specs.map Rule.ofSpec).toArray
      if hPositive : 0 < rules.size then
        .ok (Grammar.ofRules rules hPositive)
      else
        .error .noRules

end Constituency
