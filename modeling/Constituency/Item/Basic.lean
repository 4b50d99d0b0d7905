import Constituency.Grammar.Basic
import Constituency.Item.Span

/-
  This file defines chart items. Four kinds of item share
  one chart:
    * single-dotted items `A -> α . β`, of which `α` has
      been recognised;
    * double-dotted items `A -> α . β . γ`, of which `β` has
      been recognised, growing outward from a head;
    * goals `?A`, the demand for an `A`;
    * completed items `<A -> α>`, recognised constituents.

  The key of an item says what it is and where; its children
  say how it was found. Items with one key are the same item
  to a chart.

  Key definitions include:
    * `ItemKey`
    * `ItemKey.span`
    * `ItemKey.category`
    * `ItemKey.next`
    * `ItemKey.leftSister`
    * `ItemKey.rightSister`
    * `ItemKey.isComplete`
    * `Item`
    * `ItemError`
    * `ItemKey.fault`
    * `Item.create`
    * `Item.growLeft`
    * `Item.growRight`
-/

namespace Constituency

------------------------------------------------------------
-- Keys
------------------------------------------------------------

/-
  What an item is and where. A dot is counted in daughters
  from the start of the right-hand side.
-/
inductive ItemKey (G : Grammar) where
  | single (rule : G.RuleId) (dot : Nat) (span : Span)
  | double (rule : G.RuleId) (left right : Nat)
      (span : Span)
  | goal (symbol : Symbol) (span : Span)
  | completed (rule : G.RuleId) (span : Span)
deriving DecidableEq

namespace ItemKey

variable {G : Grammar}

/- Where the item lies. -/
def span : ItemKey G → Span
  | single _ _ span => span
  | double _ _ _ span => span
  | goal _ span => span
  | completed _ span => span

/-
  The symbol the item stands for: the left-hand side of its
  rule, or the symbol that is demanded.
-/
def category : ItemKey G → Symbol
  | single rule _ _ => (G.rule rule).lhs
  | double rule _ _ _ => (G.rule rule).lhs
  | goal symbol _ => symbol
  | completed rule _ => (G.rule rule).lhs

/- The daughter right of a single dot. -/
def next : ItemKey G → Option Symbol
  | single rule dot _ => (G.rule rule).rhs[dot]?
  | _ => none

/- The daughter just left of a pair of dots. -/
def leftSister : ItemKey G → Option Symbol
  | double rule (left + 1) _ _ => (G.rule rule).rhs[left]?
  | _ => none

/- The daughter just right of a pair of dots. -/
def rightSister : ItemKey G → Option Symbol
  | double rule _ right _ => (G.rule rule).rhs[right]?
  | _ => none

/-
  All daughters have been recognised. A goal recognises
  nothing.
-/
def isComplete : ItemKey G → Bool
  | single rule dot _ => dot == (G.rule rule).length
  | double rule left right _ =>
      left == 0 && right == (G.rule rule).length
  | goal _ _ => false
  | completed _ _ => true

end ItemKey

------------------------------------------------------------
-- Items
------------------------------------------------------------

/-
  A key together with the constituents found for those
  recognised daughters that are nonterminals.
-/
structure Item (G : Grammar) where
  key : ItemKey G
  children : List (Item G)

namespace Item

variable {G : Grammar}

/- Where the item starts. -/
def start
    (item : Item G) : Nat :=
  item.key.span.start

/- Where the item stops. -/
def stop
    (item : Item G) : Nat :=
  item.key.span.stop

/- The symbol the item stands for. -/
def category
    (item : Item G) : Symbol :=
  item.key.category

end Item

------------------------------------------------------------
-- Making Items
------------------------------------------------------------

/- Why there is no such item. -/
inductive ItemError where
  | dotOutOfRange (lhs : Symbol) (dot length : Nat)
  | crossedDots (lhs : Symbol) (left right : Nat)
  | reversedSpan (span : Span)
  | leftDotExhausted (lhs : Symbol)
  | rightDotExhausted (lhs : Symbol)
deriving DecidableEq

/- The text of an item error. -/
def ItemError.message : ItemError → String
  | dotOutOfRange lhs dot length =>
      "dot " ++ toString dot ++ " lies past the " ++
        toString length ++ " rhs symbols of `" ++ lhs ++ "`"
  | crossedDots lhs left right =>
      "left dot " ++ toString left ++
        " lies right of right dot " ++ toString right ++
        " in `" ++ lhs ++ "`"
  | reversedSpan span =>
      "span " ++ span.text ++ " ends before it starts"
  | leftDotExhausted lhs =>
      "left dot of `" ++ lhs ++
        "` is already at the start of its rhs"
  | rightDotExhausted lhs =>
      "right dot of `" ++ lhs ++
        "` is already at the end of its rhs"

namespace ItemKey

variable {G : Grammar}

/- The first thing that is wrong with the dots of a key. -/
def dotFault : ItemKey G → Option ItemError
  | single rule dot _ =>
      let r := G.rule rule
      if r.length < dot then
        some (.dotOutOfRange r.lhs dot r.length)
      else
        none
  | double rule left right _ =>
      let r := G.rule rule
      if r.length < right then
        some (.dotOutOfRange r.lhs right r.length)
      else if right < left then
        some (.crossedDots r.lhs left right)
      else
        none
  | _ => none

/-
  The first thing that is wrong with a key: a reversed span
  comes before misplaced dots.
-/
def fault
    (key : ItemKey G) : Option ItemError :=
  if key.span.stop < key.span.start then
    some (.reversedSpan key.span)
  else
    key.dotFault

end ItemKey

namespace Item

variable {G : Grammar}

/- The item with a key and children, if the key is sound. -/
def create
    (key : ItemKey G)
    (children : List (Item G)) :
    Except ItemError (Item G) :=
  match key.fault with
  | some error => .error error
  | none => .ok ⟨key, children⟩

/-
  Move the left dot of a double-dotted item over a
  constituent, which becomes its first child. The item then
  starts where the constituent starts.
-/
def growLeft
    (rule : G.RuleId)
    (left right : Nat)
    (span : Span)
    (children : List (Item G))
    (found : Item G) : Except ItemError (Item G) :=
  match left with
  | 0 => .error (.leftDotExhausted (G.rule rule).lhs)
  | left + 1 =>
      .ok ⟨.double rule left right ⟨found.start, span.stop⟩,
        found :: children⟩

/-
  Move the right dot of a double-dotted item over a
  constituent, which becomes its last child. The item then
  stops where the constituent stops.
-/
def growRight
    (rule : G.RuleId)
    (left right : Nat)
    (span : Span)
    (children : List (Item G))
    (found : Item G) : Except ItemError (Item G) :=
  if right = (G.rule rule).length then
    .error (.rightDotExhausted (G.rule rule).lhs)
  else
    .ok ⟨.double rule left (right + 1)
      ⟨span.start, found.stop⟩, children ++ [found]⟩

end Item

end Constituency
