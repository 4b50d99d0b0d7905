import Constituency.Pattern.Escape

/-
  This file reads character classes in square brackets.
  Classes nest, and `&&`, `--` and `~~` combine what stands
  to the left of them with what stands to the right, the
  leftmost first.

  Key definitions include:
    * `Bracket.Operator`
    * `Bracket.Frame`
    * `Bracket.readOpening?`
    * `Bracket.readNamed?`
    * `Bracket.readRange?`
    * `Bracket.read?`
-/

namespace Constituency

namespace Bracket

------------------------------------------------------------
-- Unfinished Classes
------------------------------------------------------------

/- The ways of combining two classes. -/
inductive Operator where
  | intersection
  | difference
  | symmetricDifference
deriving DecidableEq

/- The class that an operator makes of two. -/
def Operator.combine :
    Operator → CharClass → CharClass → CharClass
  | intersection => .intersection
  | difference => .difference
  | symmetricDifference => .symmetricDifference

/-
  What waits for the class that is being read: a bracket
  with the class before it, or an operator with its left
  operand.
-/
inductive Frame where
  | bracket (negated : Bool) (before : CharClass)
  | operator (operator : Operator) (left : CharClass)
deriving DecidableEq

/-
  Close the operator that waits, if one does. Both operands
  take in both cases before they are combined.
-/
def closeOperator
    (flags : Flags)
    (right : CharClass) :
    List Frame → CharClass × List Frame
  | .operator operator left :: frames =>
      (operator.combine (flags.expand left)
        (flags.expand right), frames)
  | frames => (right, frames)

------------------------------------------------------------
-- Parts of a Class
------------------------------------------------------------

/- Each leading `-` stands for itself. -/
def readHyphens
    (flags : Flags)
    (set : CharClass)
    (text : List Char) : CharClass × List Char :=
  let (hyphens, rest) :=
    flags.takeSkipping (· == '-') text
  (hyphens.foldl (fun set c => .union set (.single c)) set,
    rest)

/-
  Read what follows an opening bracket: a negation, hyphens
  and, when there are none, a closing bracket that stands
  for itself.
-/
def readOpening?
    (flags : Flags)
    (text : List Char) :
    Option (Bool × CharClass × List Char) :=
  let text := flags.skip text
  let negated := text.head? == some '^'
  let text :=
    if negated then flags.skip (text.drop 1) else text
  let (set, rest) := readHyphens flags .none text
  match set, rest with
  | _, [] => none
  | .none, ']' :: rest =>
      match flags.skip rest with
      | [] => none
      | rest => some (negated, .single ']', rest)
  | set, rest => some (negated, set, rest)

/-
  Read the rest of a class such as `[:alpha:]`, of which the
  first bracket has been read. What is no such class may be
  a nested one.
-/
def readNamed?
    (flags : Flags) :
    List Char → Option (CharClass × List Char)
  | ':' :: rest =>
      let negated := rest.head? == some '^'
      let rest := if negated then rest.drop 1 else rest
      let name := rest.takeWhile (· != ':')
      match rest.dropWhile (· != ':') with
      | ':' :: ']' :: rest =>
          (CharClass.named? (String.ofList name)).map
            (fun set =>
              (.negateIf negated (flags.expand set), rest))
      | _ => none
  | _ => none

/- Read one member of a class. -/
def readMember?
    (flags : Flags) :
    List Char → Option (Atom × List Char)
  | [] => none
  | '\\' :: rest => Escape.read? flags rest
  | c :: rest => some (.literal c, rest)

/-
  The class of one member. Conditions have none, and without
  Unicode neither have characters beyond ASCII.
-/
def memberClass?
    (flags : Flags) : Atom → Option CharClass
  | .literal c =>
      if !flags.unicode && 127 < c.toNat then
        none
      else
        some (.single c)
  | .set set => some set
  | .look _ => none

/-
  The character after the first one that is not skipped; a
  comment hides its first sign only.
-/
def peek?
    (flags : Flags)
    (text : List Char) : Option Char :=
  if flags.verbose then
    match text.dropWhile Text.isBlank with
    | [] => text.head?
    | '#' :: rest =>
        match rest.dropWhile Text.isBlank with
        | [] => text.head?
        | c :: _ => some c
    | c :: _ => some c
  else
    text.head?

/-
  Read a member or, when `-` follows and is not the last
  character of the class or half of an operator, a range.
-/
def readRange?
    (flags : Flags)
    (text : List Char) : Option (CharClass × List Char) :=
  match readMember? flags text with
  | none => none
  | some (first, rest) =>
      match flags.skip rest with
      | [] => none
      | '-' :: more =>
          if peek? flags more = some ']' ∨
              peek? flags more = some '-' then
            (memberClass? flags first).map
              (fun set => (set, '-' :: more))
          else
            match readMember? flags (flags.skip more) with
            | none => none
            | some (last, rest) =>
                match first, last with
                | .literal first, .literal last =>
                    if last < first ∨
                        (flags.unicode = false ∧
                          127 < last.toNat) then
                      none
                    else
                      some (.range first last, rest)
                | _, _ => none
      | rest =>
          (memberClass? flags first).map
            (fun set => (set, rest))

------------------------------------------------------------
-- Whole Classes
------------------------------------------------------------

/- The operator that two characters write. -/
def operator? :
    List Char → Option (Operator × List Char)
  | '&' :: '&' :: rest => some (.intersection, rest)
  | '-' :: '-' :: rest => some (.difference, rest)
  | '~' :: '~' :: rest => some (.symmetricDifference, rest)
  | _ => none

/-
  Read the rest of a class, given the members read so far
  and what waits for them. Each round reads a character, so
  `budget` may be the length of the text.
-/
def readOn?
    (flags : Flags) :
    Nat → CharClass → List Frame → List Char →
      Option (CharClass × List Char)
  | 0, _, _, _ => none
  | budget + 1, set, frames, text =>
      match flags.skip text with
      | [] => none
      | '[' :: rest =>
          match readNamed? flags rest with
          | some (named, rest) =>
              readOn? flags budget (.union set named) frames
                rest
          | none =>
              match readOpening? flags rest with
              | none => none
              | some (negated, inner, rest) =>
                  readOn? flags budget inner
                    (.bracket negated set :: frames) rest
      | ']' :: rest =>
          match closeOperator flags set frames with
          | (set, .bracket negated before :: frames) =>
              let closed : CharClass :=
                .negateIf negated (flags.expand set)
              if frames.isEmpty then
                some (closed, rest)
              else
                readOn? flags budget (.union before closed)
                  frames rest
          | _ => none
      | text =>
          match operator? text with
          | some (operator, rest) =>
              let (left, frames) :=
                closeOperator flags set frames
              readOn? flags budget .none
                (.operator operator left :: frames) rest
          | none =>
              match readRange? flags text with
              | none => none
              | some (range, rest) =>
                  readOn? flags budget (.union set range)
                    frames rest

/- Read a class from what follows its opening bracket. -/
def read?
    (flags : Flags)
    (text : List Char) : Option (CharClass × List Char) :=
  match readOpening? flags text with
  | none => none
  | some (negated, set, rest) =>
      readOn? flags (rest.length + 1) set
        [.bracket negated .none] rest

end Bracket

end Constituency
