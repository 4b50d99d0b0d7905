import Constituency.Grammar.Rule
import Constituency.Notation.Token

/-
  This file reads the tokens of a rule table into its
  written alternatives, one token at a time.

  A rule table is a list of rules separated by `;`, the last
  of which may be followed by one. A rule is a name, `->`,
  and alternatives separated by `|`; an alternative is a
  possibly empty row of symbols, each of which may be marked
  as a head by a following `*`.

  Key definitions include:
    * `Draft`
    * `Draft.accepts`
    * `Draft.expected`
    * `Draft.push?`
    * `Draft.finish?`
    * `SyntaxError`
    * `readSpecs`
-/

namespace Constituency

namespace Notation

------------------------------------------------------------
-- Drafts
------------------------------------------------------------

/-
  What has been read so far: the finished alternatives, and
  what is known of the unfinished one.
-/
inductive Draft where
  /- A rule may start, or the text may end. -/
  | between (done : List RuleSpec)
  /- A left-hand side was read, `->` must follow. -/
  | named (done : List RuleSpec) (lhs : Symbol)
  /-
    Inside an alternative. When `markable` holds, the last
    symbol was just read and may still be marked.
  -/
  | inside (done : List RuleSpec) (lhs : Symbol)
      (rhs : List (Symbol × Bool)) (markable : Bool)
deriving DecidableEq

namespace Draft

/- Nothing has been read. -/
def empty : Draft :=
  .between []

/- The kinds of token that may come next. -/
def accepts : Draft → TokenKind → Bool
  | .between _, .name => true
  | .between _, _ => false
  | .named _ _, .arrow => true
  | .named _ _, _ => false
  | .inside _ _ _ markable, .star => markable
  | .inside _ _ _ _, .arrow => false
  | .inside _ _ _ _, _ => true

/- The kinds that may come next, in listing order. -/
def expected
    (draft : Draft) : List TokenKind :=
  TokenKind.all.filter draft.accepts

/- Mark the last symbol of a row as the head. -/
def markLast :
    List (Symbol × Bool) → List (Symbol × Bool)
  | [] => []
  | [(symbol, _)] => [(symbol, true)]
  | first :: rest => first :: markLast rest

/- Read one more lexeme, if it may come next. -/
def push? : Draft → Lexeme → Option Draft
  | .between done, .name letters =>
      some (.named done (String.ofList letters))
  | .named done lhs, .arrow =>
      some (.inside done lhs [] false)
  | .inside done lhs rhs _, .name letters =>
      some (.inside done lhs
        (rhs ++ [(String.ofList letters, false)]) true)
  | .inside done lhs rhs _, .quoted content =>
      some (.inside done lhs
        (rhs ++ [(String.ofList content, false)]) true)
  | .inside done lhs rhs true, .star =>
      some (.inside done lhs (markLast rhs) false)
  | .inside done lhs rhs _, .bar =>
      some (.inside (done ++ [⟨lhs, rhs⟩]) lhs [] false)
  | .inside done lhs rhs _, .semicolon =>
      some (.between (done ++ [⟨lhs, rhs⟩]))
  | _, _ => none

/- The alternatives, if the text may end here. -/
def finish? : Draft → Option (List RuleSpec)
  | .between done => some done
  | .named _ _ => none
  | .inside done lhs rhs _ => some (done ++ [⟨lhs, rhs⟩])

/- A lexeme can be read exactly when its kind may come next. -/
theorem isSome_push?
    (draft : Draft)
    (lexeme : Lexeme) :
    (draft.push? lexeme).isSome =
      draft.accepts lexeme.kind := by
  cases draft with
  | between done => cases lexeme <;> rfl
  | named done lhs => cases lexeme <;> rfl
  | inside done lhs rhs markable =>
      cases lexeme <;> cases markable <;> rfl

end Draft

------------------------------------------------------------
-- Syntax Errors
------------------------------------------------------------

/- Why a text is no rule table. -/
inductive SyntaxError where
  | invalidToken (position : Nat)
  | unexpectedToken (token : Token)
      (expected : List TokenKind)
  | unexpectedEnd (position : Nat)
      (expected : List TokenKind)
deriving DecidableEq

/- Alternatives as a phrase: `a`, `a or b`, `a, b or c`. -/
def orPhrase : List String → String
  | [] => ""
  | [only] => only
  | [first, last] => first ++ " or " ++ last
  | first :: rest => first ++ ", " ++ orPhrase rest

/- The line that lists what was expected. -/
def expectedLine
    (kinds : List TokenKind) : String :=
  "\nExpected one of " ++
    orPhrase (kinds.map TokenKind.label)

/- The text of a syntax error. -/
def SyntaxError.message : SyntaxError → String
  | .invalidToken position =>
      "Invalid token at " ++ toString position
  | .unexpectedToken token kinds =>
      "Unrecognized token `" ++ token.text ++
        "` found at " ++ toString token.start ++ ":" ++
        toString token.stop ++ expectedLine kinds
  | .unexpectedEnd position kinds =>
      "Unrecognized EOF found at " ++ toString position ++
        expectedLine kinds

------------------------------------------------------------
-- Reading
------------------------------------------------------------

/-
  Read tokens into a draft until one may not come next or
  none is left. `stop` is the end of the token before.
-/
def readTokens
    (draft : Draft)
    (stop : Nat)
    (ending : Ending) :
    List Token → Except SyntaxError (List RuleSpec)
  | [] =>
      match ending with
      | .stuck position => .error (.invalidToken position)
      | .complete =>
          match draft.finish? with
          | some specs => .ok specs
          | none =>
              .error (.unexpectedEnd stop draft.expected)
  | token :: tokens =>
      match draft.push? token.lexeme with
      | some next =>
          readTokens next token.stop ending tokens
      | none =>
          .error (.unexpectedToken token draft.expected)

/- The alternatives that a text writes down, in order. -/
def readSpecs
    (text : String) :
    Except SyntaxError (List RuleSpec) :=
  let (tokens, ending) := tokenize text
  readTokens .empty 0 ending tokens

end Notation

end Constituency
