import Constituency.Grammar.Basic

/-
  This file writes rules and rule tables in the rule
  notation.

  Key definitions include:
    * `Rule.daughterText`
    * `Rule.text`
    * `Rule.daughtersText`
    * `Grammar.text`
    * `Grammar.idText`
-/

namespace Constituency

/-
  One daughter, marked when it is the head and has sisters.
-/
def Rule.daughterText
    (rule : Rule)
    (position : Nat)
    (symbol : Symbol) : String :=
  if rule.head = some position ∧ 1 < rule.length then
    " " ++ symbol ++ "*"
  else
    " " ++ symbol

/- A rule as it is written: `A -> X Y* Z`. -/
def Rule.text
    (rule : Rule) : String :=
  rule.lhs ++ " ->" ++
    String.join
      (rule.rhs.mapIdx (fun i s => rule.daughterText i s))

/- The bare daughters of a rule: `X,Y,Z`. -/
def Rule.daughtersText
    (rule : Rule) : String :=
  ",".intercalate rule.rhs

namespace Grammar

/- A rule table as it is written, rules separated by `; `. -/
def text
    (G : Grammar) : String :=
  "; ".intercalate (G.rules.toList.map Rule.text)

/- The name of a place in the rule table: `r0`, `r1`, … -/
def idText
    {G : Grammar}
    (r : G.RuleId) : String :=
  "r" ++ toString r.val

end Grammar

end Constituency
