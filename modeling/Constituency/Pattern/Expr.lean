import Constituency.Pattern.CharClass

/-
  This file defines patterns as trees.

  Key definitions include:
    * `Look`
    * `Look.holds`
    * `Expr`
    * `Expr.ofSequence`
    * `Expr.ofChoices`
    * `Expr.weight`
-/

namespace Constituency

------------------------------------------------------------
-- Conditions on a Place
------------------------------------------------------------

/-
  A condition on a place between two characters. The word
  conditions come with the class of the characters that
  words are made of.
-/
inductive Look where
  | textStart
  | textEnd
  | lineStart
  | lineEnd
  /- Lines end in `\r`, `\n` or both. -/
  | anyLineStart
  | anyLineEnd
  | wordEdge (letters : CharClass)
  | noWordEdge (letters : CharClass)
  | wordStart (letters : CharClass)
  | wordEnd (letters : CharClass)
  | noWordBefore (letters : CharClass)
  | noWordAfter (letters : CharClass)
deriving DecidableEq

namespace Look

/- There is a character and it belongs to the class. -/
def isIn
    (letters : CharClass)
    (c : Option Char) : Bool :=
  c.any letters.contains

/-
  The condition holds between a character and the next one,
  either of which is absent at the end of the text.
-/
def holds
    (before after : Option Char) : Look → Bool
  | textStart => before.isNone
  | textEnd => after.isNone
  | lineStart => before.isNone || before == some '\n'
  | lineEnd => after.isNone || after == some '\n'
  | anyLineStart =>
      before.isNone || before == some '\n' ||
        (before == some '\r' && after != some '\n')
  | anyLineEnd =>
      after.isNone || after == some '\r' ||
        (after == some '\n' && before != some '\r')
  | wordEdge letters =>
      isIn letters before != isIn letters after
  | noWordEdge letters =>
      isIn letters before == isIn letters after
  | wordStart letters =>
      !isIn letters before && isIn letters after
  | wordEnd letters =>
      isIn letters before && !isIn letters after
  | noWordBefore letters => !isIn letters before
  | noWordAfter letters => !isIn letters after

end Look

------------------------------------------------------------
-- Patterns
------------------------------------------------------------

/-
  A pattern. Where two ways of matching are possible the
  left one of a choice is preferred, and a repetition goes
  on when it is greedy and stops when it is not.
-/
inductive Expr where
  | empty
  | chars (set : CharClass)
  | look (condition : Look)
  | sequence (first second : Expr)
  | choice (first second : Expr)
  /- `least` times or more, up to `most` times if given. -/
  | repetition (inner : Expr) (least : Nat)
      (most : Option Nat) (greedy : Bool)
deriving DecidableEq

namespace Expr

/- One pattern after the other. -/
def ofSequence : List Expr → Expr
  | [] => empty
  | [only] => only
  | first :: rest => sequence first (ofSequence rest)

/- One pattern or the other, earlier ones preferred. -/
def ofChoices : List Expr → Expr
  | [] => empty
  | [only] => only
  | first :: rest => choice first (ofChoices rest)

/-
  Roughly how many instructions a pattern takes; a
  repetition takes those of its inner pattern for each time
  that it counts.
-/
def weight : Expr → Nat
  | empty => 0
  | chars set => set.weight
  | look _ => 1
  | sequence first second => first.weight + second.weight
  | choice first second => first.weight + second.weight + 1
  | repetition inner least most _ =>
      (inner.weight + 1) * max (max least (most.getD 0)) 1

end Expr

end Constituency
