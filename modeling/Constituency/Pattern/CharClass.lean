import Constituency.Text.Blank
import Constituency.Text.CaseCycle
import Constituency.Text.WordChar

/-
  This file defines character classes: sets of characters
  built from ranges and named sets.

  Key definitions include:
    * `CharClass`
    * `CharClass.contains`
    * `CharClass.weight`
    * `CharClass.ofRanges`
    * `CharClass.negateIf`
    * `CharClass.named?`
-/

namespace Constituency

/- A set of characters as it is built up. -/
inductive CharClass where
  | none
  | all
  | range (first last : Char)
  | blank
  | digit
  | word
  | union (left right : CharClass)
  | intersection (left right : CharClass)
  | difference (left right : CharClass)
  | symmetricDifference (left right : CharClass)
  | complement (inner : CharClass)
  /- With the characters that differ in case only. -/
  | anyCase (inner : CharClass)
  /- With the ASCII letters that differ in case only. -/
  | anyAsciiCase (inner : CharClass)
deriving DecidableEq

namespace CharClass

/- The other case of an ASCII letter. -/
def otherAsciiCase
    (c : Char) : Char :=
  if c.isUpper then c.toLower else c.toUpper

/- The character belongs to the class. -/
def contains : CharClass → Char → Bool
  | none, _ => false
  | all, _ => true
  | range first last, c => first ≤ c && c ≤ last
  | blank, c => Text.isBlank c
  | digit, c => Text.isDecimalDigit c
  | word, c => Text.isWordChar c
  | union left right, c =>
      left.contains c || right.contains c
  | intersection left right, c =>
      left.contains c && right.contains c
  | difference left right, c =>
      left.contains c && !right.contains c
  | symmetricDifference left right, c =>
      left.contains c != right.contains c
  | complement inner, c => !inner.contains c
  | anyCase inner, c =>
      (Text.caseVariants c).any inner.contains
  | anyAsciiCase inner, c =>
      inner.contains c || inner.contains (otherAsciiCase c)

/-
  Roughly how many instructions on bytes it takes to read a
  character of the class.
-/
def weight : CharClass → Nat
  | none => 1
  | all => 12
  | range _ last => if last.toNat < 128 then 1 else 4
  | blank => 20
  | digit => 150
  | word => 640
  | union left right => left.weight + right.weight
  | intersection left right => left.weight + right.weight
  | difference left right => left.weight + right.weight
  | symmetricDifference left right =>
      left.weight + right.weight
  | complement inner => inner.weight + 12
  | anyCase inner => inner.weight + 1
  | anyAsciiCase inner => inner.weight + 1

/- The class of one character. -/
def single
    (c : Char) : CharClass :=
  range c c

/- The union of some ranges. -/
def ofRanges
    (ranges : List (Char × Char)) : CharClass :=
  ranges.foldr (fun r rest => union (range r.1 r.2) rest)
    none

/- The class or, when asked for, its complement. -/
def negateIf
    (negated : Bool)
    (inner : CharClass) : CharClass :=
  if negated then complement inner else inner

------------------------------------------------------------
-- Named Classes
------------------------------------------------------------

/- The ASCII digits. -/
def asciiDigit : CharClass :=
  range '0' '9'

/- The ASCII blanks. -/
def asciiBlank : CharClass :=
  ofRanges [('\t', '\r'), (' ', ' ')]

/- ASCII letters, digits and `_`. -/
def asciiWord : CharClass :=
  ofRanges [('0', '9'), ('A', 'Z'), ('_', '_'), ('a', 'z')]

/- The ASCII class with a name in double brackets. -/
def named? : String → Option CharClass
  | "alnum" =>
      some (ofRanges [('0', '9'), ('A', 'Z'), ('a', 'z')])
  | "alpha" => some (ofRanges [('A', 'Z'), ('a', 'z')])
  | "ascii" => some (range '\x00' '\x7f')
  | "blank" => some (ofRanges [('\t', '\t'), (' ', ' ')])
  | "cntrl" =>
      some (ofRanges [('\x00', '\x1f'), ('\x7f', '\x7f')])
  | "digit" => some asciiDigit
  | "graph" => some (range '!' '~')
  | "lower" => some (range 'a' 'z')
  | "print" => some (range ' ' '~')
  | "punct" =>
      some (ofRanges
        [('!', '/'), (':', '@'), ('[', '\x60'),
          ('\x7b', '~')])
  | "space" => some asciiBlank
  | "upper" => some (range 'A' 'Z')
  | "word" => some asciiWord
  | "xdigit" =>
      some (ofRanges [('0', '9'), ('A', 'F'), ('a', 'f')])
  | _ => Option.none

end CharClass

end Constituency
