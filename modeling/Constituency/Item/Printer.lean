import Constituency.Grammar.Printer
import Constituency.Item.Basic

/-
  This file writes items, and the trees that their children
  spell out.

  Key definitions include:
    * `Rule.dottedText`
    * `ItemKey.text`
    * `Item.text`
    * `Item.tree`
-/

namespace Constituency

/- One ` .` for each dot at a position. -/
def dotsAt
    (dots : List Nat)
    (position : Nat) : String :=
  String.join
    (List.replicate (dots.count position) " .")

/- A rule with dots before some of its positions. -/
def Rule.dottedText
    (rule : Rule)
    (dots : List Nat) : String :=
  rule.lhs ++ " ->" ++
    String.join
      (rule.rhs.mapIdx
        (fun i s => dotsAt dots i ++ " " ++ s)) ++
    dotsAt dots rule.length

variable {G : Grammar}

/-
  A key as it is written: `A -> X . Y [i,j)`,
  `A -> X . Y . Z [i,j)`, `?A [i,j)` or `<A -> X* Y> [i,j)`.
-/
def ItemKey.text : ItemKey G → String
  | .single rule dot span =>
      (G.rule rule).dottedText [dot] ++ " " ++ span.text
  | .double rule left right span =>
      (G.rule rule).dottedText [left, right] ++ " " ++
        span.text
  | .goal symbol span => "?" ++ symbol ++ " " ++ span.text
  | .completed rule span =>
      "<" ++ (G.rule rule).text ++ "> " ++ span.text

namespace Item

/- An item is written as its key. -/
def text
    (item : Item G) : String :=
  item.key.text

/-
  One node of a tree: the left-hand side around the trees
  of the children, or around the daughters themselves when
  there are no children.
-/
def nodeText
    (rule : Rule)
    (subtrees : List String) : String :=
  if subtrees = [] then
    rule.lhs ++ "(" ++ rule.daughtersText ++ ")"
  else
    rule.lhs ++ "(" ++ ",".intercalate subtrees ++ ")"

mutual

/- The tree below an item; a goal has no tree yet. -/
def tree : Item G → String
  | ⟨.goal symbol _, _⟩ => symbol
  | ⟨.single rule _ _, children⟩ =>
      nodeText (G.rule rule) (trees children)
  | ⟨.double rule _ _ _, children⟩ =>
      nodeText (G.rule rule) (trees children)
  | ⟨.completed rule _, children⟩ =>
      nodeText (G.rule rule) (trees children)

/- The trees below a row of items. -/
def trees : List (Item G) → List String
  | [] => []
  | item :: items => item.tree :: trees items

end

end Item

end Constituency
