import Constituency.Text.Blank

/-
  This file splits the text of a rule table into tokens:
  `->`, `|`, `;`, `*`, names over ASCII letters, digits and
  `_`, and symbols between single quotes. Blanks separate
  tokens and mean nothing else. Places in the text are
  counted in bytes of its UTF-8 form.

  Key definitions include:
    * `Lexeme`
    * `Lexeme.text`
    * `TokenKind`
    * `Lexeme.ofChars?`
    * `Token`
    * `Ending`
    * `tokenize`
-/

namespace Constituency

namespace Notation

------------------------------------------------------------
-- Lexemes
------------------------------------------------------------

/- What a token says. -/
inductive Lexeme where
  | star
  | semicolon
  | arrow
  | bar
  | quoted (content : List Char)
  | name (letters : List Char)
deriving DecidableEq

/- The kinds of token. -/
inductive TokenKind where
  | star
  | semicolon
  | arrow
  | bar
  | quoted
  | name
deriving DecidableEq

/- All kinds, in the order in which errors list them. -/
def TokenKind.all : List TokenKind :=
  [.star, .semicolon, .arrow, .bar, .quoted, .name]

/- How errors show a kind of token. -/
def TokenKind.label : TokenKind → String
  | .star => "\"*\""
  | .semicolon => "\";\""
  | .arrow => "\"->\""
  | .bar => "\"|\""
  | .quoted => "r#\"'[^']*'\"#"
  | .name => "r#\"[A-Za-z0-9_]+\"#"

namespace Lexeme

/- The kind of a lexeme. -/
def kind : Lexeme → TokenKind
  | star => .star
  | semicolon => .semicolon
  | arrow => .arrow
  | bar => .bar
  | quoted _ => .quoted
  | name _ => .name

/- The characters of a lexeme as they stand in the text. -/
def chars : Lexeme → List Char
  | star => ['*']
  | semicolon => [';']
  | arrow => ['-', '>']
  | bar => ['|']
  | quoted content => '\'' :: content ++ ['\'']
  | name letters => letters

end Lexeme

/- Names are made of ASCII letters, digits and `_`. -/
def isNameChar
    (c : Char) : Bool :=
  c.isAlphanum || c == '_'

/-
  The longest lexeme at the start of a text, if there is
  one. The first character settles which lexeme it can be.
-/
def Lexeme.ofChars? :
    List Char → Option Lexeme
  | '*' :: _ => some .star
  | ';' :: _ => some .semicolon
  | '|' :: _ => some .bar
  | '-' :: '>' :: _ => some .arrow
  | '\'' :: rest =>
      if '\'' ∈ rest then
        some (.quoted (rest.takeWhile (· != '\'')))
      else
        none
  | c :: rest =>
      if isNameChar c then
        some (.name (c :: rest.takeWhile isNameChar))
      else
        none
  | [] => none

/- No lexeme is empty. -/
theorem Lexeme.chars_ne_nil_of_ofChars?
    {text : List Char}
    {lexeme : Lexeme}
    (hRead : Lexeme.ofChars? text = some lexeme) :
    lexeme.chars ≠ [] := by
  unfold Lexeme.ofChars? at hRead
  split at hRead <;> (try split at hRead) <;>
    simp_all [Lexeme.chars] <;> subst hRead <;> simp

------------------------------------------------------------
-- Tokens
------------------------------------------------------------

/- A lexeme and the byte at which it starts. -/
structure Token where
  lexeme : Lexeme
  start : Nat
deriving DecidableEq

/- The number of bytes that characters take. -/
def byteLength : List Char → Nat
  | [] => 0
  | c :: rest => c.utf8Size + byteLength rest

namespace Token

/- The byte just after a token. -/
def stop
    (token : Token) : Nat :=
  token.start + byteLength token.lexeme.chars

/- The text of a token. -/
def text
    (token : Token) : String :=
  String.ofList token.lexeme.chars

end Token

/-
  How splitting a text ends: at its end, or at the byte at
  which no token can start.
-/
inductive Ending where
  | complete
  | stuck (position : Nat)
deriving DecidableEq

/- The tokens of a text that starts at a given byte. -/
def tokenizeFrom
    (position : Nat)
    (text : List Char) : List Token × Ending :=
  match text with
  | [] => ([], .complete)
  | c :: rest =>
      if Text.isBlank c then
        tokenizeFrom (position + c.utf8Size) rest
      else
        match _ : Lexeme.ofChars? (c :: rest) with
        | none => ([], .stuck position)
        | some lexeme =>
            let token : Token := ⟨lexeme, position⟩
            let (tokens, ending) :=
              tokenizeFrom token.stop
                ((c :: rest).drop lexeme.chars.length)
            (token :: tokens, ending)
termination_by text.length
decreasing_by
  · simp
  · have hPositive :=
      List.length_pos_iff.mpr
        (Lexeme.chars_ne_nil_of_ofChars? ‹_›)
    simp only [List.length_drop, List.length_cons]
    omega

/- The tokens of a text. -/
def tokenize
    (text : String) : List Token × Ending :=
  tokenizeFrom 0 text.toList

end Notation

end Constituency
