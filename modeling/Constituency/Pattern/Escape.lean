import Constituency.Pattern.Flags

/-
  This file reads what a backslash stands for in a pattern.

  Key definitions include:
    * `Atom`
    * `Escape.readHex?`
    * `Escape.readEdge?`
    * `Escape.read?`
-/

namespace Constituency

/- The smallest parts of a pattern. -/
inductive Atom where
  | literal (c : Char)
  | set (set : CharClass)
  | look (condition : Look)
deriving DecidableEq

namespace Escape

------------------------------------------------------------
-- Characters by Number
------------------------------------------------------------

/- The character is a hexadecimal digit. -/
def isHexDigit
    (c : Char) : Bool :=
  c.isDigit || ('a' ≤ c && c ≤ 'f') ||
    ('A' ≤ c && c ≤ 'F')

/- The value of a hexadecimal digit. -/
def hexValue
    (c : Char) : Nat :=
  if c.isDigit then
    c.toNat - '0'.toNat
  else if 'a' ≤ c then
    c.toNat - 'a'.toNat + 10
  else
    c.toNat - 'A'.toNat + 10

/- The character whose number some digits write. -/
def charOfHex?
    (digits : List Char) : Option Char :=
  let code :=
    digits.foldl (fun n d => 16 * n + hexValue d) 0
  if digits ≠ [] ∧ code.isValidChar then
    some (Char.ofNat code)
  else
    none

/- Read a number of hexadecimal digits. -/
def readDigits?
    (flags : Flags) :
    Nat → List Char → Option (List Char × List Char)
  | 0, text => some ([], text)
  | _ + 1, [] => none
  | count + 1, c :: rest =>
      if isHexDigit c then
        match readDigits? flags count (flags.skip rest) with
        | none => none
        | some (digits, rest) => some (c :: digits, rest)
      else
        none

/-
  Read the number of a character: so many digits, or any
  number of them in braces.
-/
def readHex?
    (flags : Flags)
    (count : Nat)
    (text : List Char) : Option (Char × List Char) :=
  match flags.skip text with
  | '\x7b' :: rest =>
      match
        flags.takeSkipping isHexDigit (flags.skip rest)
      with
      | (digits, '\x7d' :: rest) =>
          (charOfHex? digits).map
            (fun c => (c, flags.skip rest))
      | _ => none
  | text =>
      match readDigits? flags count text with
      | none => none
      | some (digits, rest) =>
          (charOfHex? digits).map (fun c => (c, rest))

------------------------------------------------------------
-- Word Edges
------------------------------------------------------------

/- The word condition with a name in braces. -/
def namedEdge?
    (letters : CharClass) : String → Option Look
  | "start" => some (.wordStart letters)
  | "end" => some (.wordEnd letters)
  | "start-half" => some (.noWordBefore letters)
  | "end-half" => some (.noWordAfter letters)
  | _ => none

/- The character can stand in the name of an edge. -/
def isEdgeChar
    (c : Char) : Bool :=
  c.isAlpha || c == '-'

/-
  Read what follows `\b`. A brace begins the name of an edge
  only before a letter or `-`; else it counts repetitions
  and is left alone.
-/
def readEdge?
    (flags : Flags)
    (text : List Char) : Option (Look × List Char) :=
  match text with
  | '\x7b' :: rest =>
      match flags.skip rest with
      | [] => none
      | c :: more =>
          if isEdgeChar c then
            match
              flags.takeSkipping isEdgeChar (c :: more)
            with
            | (name, '\x7d' :: rest) =>
                (namedEdge? flags.word
                    (String.ofList name)).map
                  (fun look => (look, rest))
            | _ => none
          else
            some (.wordEdge flags.word, text)
  | _ => some (.wordEdge flags.word, text)

------------------------------------------------------------
-- Escapes
------------------------------------------------------------

/-
  The character stands for itself after a backslash: it is
  an ASCII character but no letter, digit or angle bracket.
-/
def isEscapable
    (c : Char) : Bool :=
  c.toNat < 128 && !c.isAlphanum && c != '<' && c != '>'

/- The control character with a letter. -/
def control? : Char → Option Char
  | 'a' => some '\x07'
  | 'f' => some '\x0c'
  | 't' => some '\t'
  | 'n' => some '\n'
  | 'r' => some '\r'
  | 'v' => some '\x0b'
  | _ => none

/- The class with a letter; a capital letter negates it. -/
def letterClass?
    (flags : Flags) : Char → Option CharClass
  | 'd' => some flags.digit
  | 's' => some flags.blank
  | 'w' => some flags.word
  | 'D' => some (.complement flags.digit)
  | 'S' => some (.complement flags.blank)
  | 'W' => some (.complement flags.word)
  | _ => none

/- The condition with a letter or angle bracket. -/
def look?
    (flags : Flags) : Char → Option Look
  | 'A' => some .textStart
  | 'z' => some .textEnd
  | 'B' => some (.noWordEdge flags.word)
  | '<' => some (.wordStart flags.word)
  | '>' => some (.wordEnd flags.word)
  | _ => none

/-
  Read what follows a backslash. Digits, which elsewhere
  refer back to groups, and classes by property stand for
  nothing.
-/
def read?
    (flags : Flags) :
    List Char → Option (Atom × List Char)
  | [] => none
  | 'x' :: rest =>
      match readHex? flags 2 rest with
      | some (c, rest) =>
          if !flags.unicode && 127 < c.toNat then
            none
          else
            some (.literal c, rest)
      | none => none
  | 'u' :: rest =>
      (readHex? flags 4 rest).map
        (fun (c, rest) => (.literal c, rest))
  | 'U' :: rest =>
      (readHex? flags 8 rest).map
        (fun (c, rest) => (.literal c, rest))
  | 'b' :: rest =>
      (readEdge? flags rest).map
        (fun (look, rest) => (.look look, rest))
  | c :: rest =>
      if isEscapable c then
        some (.literal c, rest)
      else
        match control? c, letterClass? flags c,
          look? flags c with
        | some c, _, _ => some (.literal c, rest)
        | _, some set, _ => some (.set set, rest)
        | _, _, some look => some (.look look, rest)
        | _, _, _ => none

end Escape

end Constituency
