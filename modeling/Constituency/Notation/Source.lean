import Constituency.Grammar.Basic
import Constituency.Notation.Draft

/-
  This file reads a grammar from its text, and from a place
  in a file system that may hold such a text.

  Key definitions include:
    * `ReadError`
    * `ReadError.message`
    * `Grammar.ofText`
    * `Source`
    * `LoadError`
    * `Grammar.load`
-/

namespace Constituency

------------------------------------------------------------
-- Grammars From Text
------------------------------------------------------------

/- Why a text gives no grammar. -/
inductive ReadError where
  | malformed (cause : Notation.SyntaxError)
  | unusable (cause : GrammarError)
deriving DecidableEq

/- The text of a reading error. -/
def ReadError.message : ReadError → String
  | .malformed cause =>
      "grammar syntax error: " ++ cause.message
  | .unusable cause => cause.message

/- The grammar that a text writes down. -/
def Grammar.ofText
    (text : String) : Except ReadError Grammar :=
  match Notation.readSpecs text with
  | .error cause => .error (.malformed cause)
  | .ok specs =>
      match Grammar.ofSpecs specs with
      | .error cause => .error (.unusable cause)
      | .ok G => .ok G

------------------------------------------------------------
-- Grammars From Files
------------------------------------------------------------

/- What is found at a place in a file system. -/
inductive Source where
  | missing
  | directory
  | file (bytes : ByteArray)

/- Why no grammar can be loaded. -/
inductive LoadError where
  | notFound
  | isDirectory
  | invalidText
  | unreadable (cause : ReadError)
deriving DecidableEq

/- The grammar in a file, whose bytes must be UTF-8 text. -/
def Grammar.load : Source → Except LoadError Grammar
  | .missing => .error .notFound
  | .directory => .error .isDirectory
  | .file bytes =>
      match String.fromUTF8? bytes with
      | none => .error .invalidText
      | some text =>
          match Grammar.ofText text with
          | .error cause => .error (.unreadable cause)
          | .ok G => .ok G

end Constituency
