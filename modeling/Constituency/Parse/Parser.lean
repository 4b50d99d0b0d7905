import Constituency.Parse.Basic
import Constituency.Pattern.Reader

/-
  This file defines parsers: a grammar with the choices of a
  configuration, checked.

  Key definitions include:
    * `Parser`
    * `Parser.ofConfig`
    * `Parser.tokenize`
    * `Parser.parse`
    * `Parser.parseText`
-/

namespace Constituency

/- A parser for a grammar starts from a nonterminal. -/
structure Parser (G : Grammar) where
  algorithm : Algorithm
  start : Symbol
  itemLimit : Option Nat
  pattern : Pattern
  isNonterminal_start : G.isNonterminal start = true

namespace Parser

variable {G : Grammar}

/-
  The parser with a configuration. A start symbol without
  rules is found before a token pattern that is none.
-/
def ofConfig
    (G : Grammar)
    (config : Config) : Except ConfigError (Parser G) :=
  let start := config.start.getD G.start
  if hStart : G.isNonterminal start = true then
    match Pattern.ofString? config.tokenPattern with
    | none => .error .badPattern
    | some pattern =>
        .ok ⟨config.algorithm, start, config.itemLimit,
          pattern, hStart⟩
  else
    .error (.unknownStart start)

/- The words of a text. -/
def tokenize
    (parser : Parser G)
    (text : String) : List Symbol :=
  parser.pattern.words text

/- Parse a list of words. -/
def parse
    (parser : Parser G)
    (words : List Symbol) : Outcome G :=
  G.parse parser.algorithm parser.start parser.itemLimit
    words

/- Parse the words of a text. -/
def parseText
    (parser : Parser G)
    (text : String) : Outcome G :=
  parser.parse (parser.tokenize text)

end Parser

end Constituency
