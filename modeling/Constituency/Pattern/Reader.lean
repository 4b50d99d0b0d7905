import Constituency.Pattern.Bracket
import Constituency.Pattern.Words
import Constituency.Text.Numeric

/-
  This file reads patterns from text, one part at a time.

  A pattern is a choice of sequences separated by `|`. The
  parts of a sequence are characters, `.`, classes in square
  brackets, escapes, the conditions `^` and `$`, groups in
  parentheses, and any of these with `?`, `*`, `+` or a
  count in braces, which are lazy when `?` follows.
  `(?flags)` changes the flags up to the end of the group
  around it, `(?flags:…)` inside one group.

  Key definitions include:
    * `Draft`
    * `Pattern.readCount?`
    * `Pattern.openGroup?`
    * `Pattern.closeGroup?`
    * `Pattern.readPart?`
    * `Pattern.readAll?`
    * `Pattern`
    * `Pattern.ofString?`
    * `Pattern.words`
-/

namespace Constituency

namespace Pattern

------------------------------------------------------------
-- Unfinished Patterns
------------------------------------------------------------

/-
  A choice that is being read: the finished sequences, and
  the parts of the unfinished one, both latest first. A
  change of flags is a part that cannot be repeated.
-/
structure Layer where
  choices : List Expr
  parts : List (Option Expr)
  /- The flags at the opening parenthesis. -/
  outside : Flags

/-
  What has been read: the innermost choice, those around it,
  the flags and the names of groups.
-/
structure Draft where
  flags : Flags
  choices : List Expr
  parts : List (Option Expr)
  layers : List Layer
  names : List (List Char)

/- Nothing has been read. -/
def Draft.empty : Draft :=
  ⟨.default, [], [], [], []⟩

namespace Draft

/- Add a part to the sequence. -/
def add
    (draft : Draft)
    (part : Expr) : Draft :=
  { draft with parts := some part :: draft.parts }

/- The sequence that has been read. -/
def sequence
    (draft : Draft) : Expr :=
  .ofSequence (draft.parts.reverse.filterMap id)

/- The choice that has been read. -/
def choice
    (draft : Draft) : Expr :=
  .ofChoices (draft.choices.reverse ++ [draft.sequence])

/- Begin the next sequence of the choice. -/
def nextChoice
    (draft : Draft) : Draft :=
  { draft with
    choices := draft.sequence :: draft.choices
    parts := [] }

/- Repeat the last part, if there is one to repeat. -/
def repeatLast?
    (draft : Draft)
    (least : Nat)
    (most : Option Nat)
    (lazy : Bool) : Option Draft :=
  match draft.parts with
  | some part :: parts =>
      let greedy := draft.flags.swapGreed == lazy
      some
        { draft with
          parts :=
            some (.repetition part least most greedy) ::
              parts }
  | _ => none

/- Enter a group with some flags. -/
def enter
    (draft : Draft)
    (inside : Flags) : Draft :=
  { draft with
    flags := inside
    choices := []
    parts := []
    layers :=
      ⟨draft.choices, draft.parts, draft.flags⟩ ::
        draft.layers }

end Draft

------------------------------------------------------------
-- Repetitions
------------------------------------------------------------

/- A `?` makes the repetition before it lazy. -/
def readLazy :
    List Char → Bool × List Char
  | '?' :: rest => (true, rest)
  | text => (false, text)

/- Read a number, with blanks around it. -/
def readNumber?
    (flags : Flags)
    (text : List Char) : Option (Nat × List Char) :=
  let (digits, rest) :=
    flags.takeSkipping Char.isDigit
      (text.dropWhile Text.isBlank)
  let (_, rest) := flags.takeSkipping Text.isBlank rest
  let number :=
    digits.foldl
      (fun n d => 10 * n + (d.toNat - '0'.toNat)) 0
  if digits ≠ [] ∧ number < UInt32.size then
    some (number, rest)
  else
    none

/-
  Read a count after `{`: `m}`, `m,}` or `m,n}`, where `n`
  is not less than `m`.
-/
def readCount?
    (flags : Flags)
    (text : List Char) :
    Option (Nat × Option Nat × List Char) :=
  match readNumber? flags (flags.skip text) with
  | some (least, '\x7d' :: rest) =>
      some (least, some least, rest)
  | some (least, ',' :: rest) =>
      match flags.skip rest with
      | '\x7d' :: rest => some (least, none, rest)
      | rest =>
          match readNumber? flags rest with
          | some (most, '\x7d' :: rest) =>
              if least ≤ most then
                some (least, some most, rest)
              else
                none
          | _ => none
  | _ => none

------------------------------------------------------------
-- Groups
------------------------------------------------------------

/-
  The characters form the name of a group: it begins with a
  letter or `_`, and digits, `.` and brackets may follow.
-/
def isGroupName : List Char → Bool
  | [] => false
  | first :: rest =>
      (first == '_' || Text.isAlphabetic first) &&
        rest.all (fun c =>
          c == '_' || c == '.' || c == '[' || c == ']' ||
            Text.isAlphabetic c || Text.isNumeric c)

/- Open the group whose name follows, if the name is new. -/
def openNamed?
    (draft : Draft)
    (text : List Char) : Option (Draft × List Char) :=
  let name := text.takeWhile (· != '>')
  match text.dropWhile (· != '>') with
  | '>' :: rest =>
      if isGroupName name ∧ name ∉ draft.names then
        some
          ({ draft.enter draft.flags with
              names := name :: draft.names }, rest)
      else
        none
  | _ => none

/-
  Read what follows an opening parenthesis: a group, or a
  change of flags. Conditions on the text around a group are
  refused.
-/
def openGroup?
    (draft : Draft)
    (text : List Char) : Option (Draft × List Char) :=
  match draft.flags.skip text with
  | '?' :: 'P' :: '<' :: rest => openNamed? draft rest
  | '?' :: '<' :: '=' :: _ => none
  | '?' :: '<' :: '!' :: _ => none
  | '?' :: '<' :: rest => openNamed? draft rest
  | '?' :: rest =>
      match draft.flags.readChange? rest with
      | none => none
      | some change =>
          if change.opensGroup then
            some (draft.enter change.flags, change.rest)
          else if change.isEmpty then
            none
          else
            some
              ({ draft with
                  flags := change.flags
                  parts := none :: draft.parts },
                change.rest)
  | rest => some (draft.enter draft.flags, rest)

/- Make the innermost choice a part of the one around it. -/
def closeGroup?
    (draft : Draft) : Option Draft :=
  match draft.layers with
  | [] => none
  | layer :: layers =>
      some
        { draft with
          flags := layer.outside
          choices := layer.choices
          parts := some draft.choice :: layer.parts
          layers := layers }

------------------------------------------------------------
-- Parts
------------------------------------------------------------

/- The pattern of an atom. -/
def atomExpr?
    (flags : Flags) : Atom → Option Expr
  | .literal c =>
      if 127 < c.toNat ∧ flags.unicode = false then
        if flags.ignoreCase then
          none
        else
          some (.chars (.single c))
      else
        some (.chars (flags.expand (.single c)))
  | .set set => flags.charsExpr? set
  | .look look => some (.look look)

/- Read the part that begins with a character. -/
def readPart?
    (draft : Draft)
    (first : Char)
    (rest : List Char) : Option (Draft × List Char) :=
  let flags := draft.flags
  match first with
  | '(' => openGroup? draft rest
  | ')' => (closeGroup? draft).map (fun d => (d, rest))
  | '|' => some (draft.nextChoice, rest)
  | '[' =>
      match Bracket.read? flags rest with
      | none => none
      | some (set, rest) =>
          (flags.charsExpr? set).map
            (fun part => (draft.add part, rest))
  | '?' =>
      let (lazy, rest) := readLazy rest
      (draft.repeatLast? 0 (some 1) lazy).map
        (fun d => (d, rest))
  | '*' =>
      let (lazy, rest) := readLazy rest
      (draft.repeatLast? 0 none lazy).map
        (fun d => (d, rest))
  | '+' =>
      let (lazy, rest) := readLazy rest
      (draft.repeatLast? 1 none lazy).map
        (fun d => (d, rest))
  | '\x7b' =>
      match readCount? flags rest with
      | none => none
      | some (least, most, rest) =>
          let (lazy, rest) := readLazy (flags.skip rest)
          (draft.repeatLast? least most lazy).map
            (fun d => (d, rest))
  | '\\' =>
      match Escape.read? flags rest with
      | none => none
      | some (atom, rest) =>
          (atomExpr? flags atom).map
            (fun part => (draft.add part, rest))
  | '.' =>
      (flags.charsExpr? flags.dot).map
        (fun part => (draft.add part, rest))
  | '^' => some (draft.add (.look flags.caret), rest)
  | '$' => some (draft.add (.look flags.dollar), rest)
  | c =>
      (atomExpr? flags (.literal c)).map
        (fun part => (draft.add part, rest))

/-
  Read a pattern to its end, where no group may be open.
  Each round reads a character, so `budget` may be the
  length of the text.
-/
def readAll? :
    Nat → Draft → List Char → Option Expr
  | 0, _, _ => none
  | budget + 1, draft, text =>
      match draft.flags.skip text with
      | [] =>
          if draft.layers.isEmpty then
            some draft.choice
          else
            none
      | c :: rest =>
          match readPart? draft c rest with
          | none => none
          | some (draft, rest) => readAll? budget draft rest

/- The pattern that a text writes. -/
def readExpr?
    (text : String) : Option Expr :=
  readAll? (text.length + 1) .empty text.toList

end Pattern

------------------------------------------------------------
-- Patterns That Can Be Run
------------------------------------------------------------

/- A pattern ready to find words. -/
structure Pattern where
  program : Program
deriving DecidableEq

namespace Pattern

/- Heavier patterns are refused. -/
def weightLimit : Nat :=
  327680

/- The pattern with a text, if it is one. -/
def ofString?
    (text : String) : Option Pattern :=
  match readExpr? text with
  | none => none
  | some expr =>
      if expr.weight ≤ weightLimit then
        some ⟨Program.ofExpr expr⟩
      else
        none

/- The words that a pattern finds in a text. -/
def words
    (pattern : Pattern)
    (text : String) : List String :=
  pattern.program.words text

end Pattern

end Constituency
