import Constituency.Proofs.Notation.Lexing
import Constituency.Proofs.Notation.Table

/-
  This file follows reading over a whole text: tokens are
  read as long as each may come next, and what stands behind
  them decides how reading ends.

  Key definitions include:
    * `Stops`

  Main declarations:
    * `readTokens_append`
    * `exists_stops`
    * `readSpecs_of_splits`
    * `exists_splits_of_readSpecs`
-/

namespace Constituency

namespace Notation

variable {draft next : Draft}

/- Tokens that may come next are read before the others. -/
theorem readTokens_append
    {front : List Token}
    (hPush :
      draft.pushAll? (front.map Token.lexeme) = some next)
    (stop : Nat)
    (ending : Ending)
    (back : List Token) :
    readTokens draft stop ending (front ++ back) =
      readTokens next (stopAfter stop front) ending back := by
  induction front generalizing draft stop with
  | nil =>
      cases hPush
      rfl
  | cons token front ih =>
      rw [List.map_cons, Draft.pushAll?_cons,
        Option.bind_eq_some_iff] at hPush
      rcases hPush with ⟨middle, hFirst, hFront⟩
      rw [List.cons_append, readTokens, hFirst]
      exact ih hFront token.stop

/- Reading goes on up to a token that may not come next. -/
theorem exists_pushAll?_front
    (draft : Draft)
    (tokens : List Token) :
    ∃ front back next, tokens = front ++ back ∧
      draft.pushAll? (front.map Token.lexeme) = some next ∧
      ∀ token ∈ back.head?,
        next.push? token.lexeme = none := by
  induction tokens generalizing draft with
  | nil => exact ⟨[], [], draft, rfl, rfl, by simp⟩
  | cons token tokens ih =>
      cases hPush : draft.push? token.lexeme with
      | none =>
          refine ⟨[], token :: tokens, draft, rfl, rfl, ?_⟩
          simpa using hPush
      | some middle =>
          rcases ih middle with
            ⟨front, back, next, rfl, hFront, hBack⟩
          refine ⟨token :: front, back, next, rfl, ?_, hBack⟩
          simp [hPush, hFront]

/-
  How reading ends where `tokens` have been read into a
  draft and `rest` is left of the text.
-/
inductive Stops
    (tokens : List Token)
    (rest : List Char)
    (draft : Draft) :
    Except SyntaxError (List RuleSpec) → Prop
  | finished
      {specs : List RuleSpec}
      (hRest : afterBlanks rest = [])
      (hFinish : draft.finish? = some specs) :
      Stops tokens rest draft (.ok specs)
  | unfinished
      (hRest : afterBlanks rest = [])
      (hFinish : draft.finish? = none) :
      Stops tokens rest draft
        (.error (.unexpectedEnd (stopAfter 0 tokens)
          draft.expected))
  | invalid
      (hRest : afterBlanks rest ≠ [])
      (hNone : ∀ lexeme : Lexeme, lexeme.WellFormed →
        ¬ lexeme.chars <+: afterBlanks rest) :
      Stops tokens rest draft
        (.error (.invalidToken
          (stopAfter 0 tokens +
            byteLength (leadingBlanks rest))))
  | refused
      {lexeme : Lexeme}
      (hLexeme : lexeme.IsLongest (afterBlanks rest))
      (hPush : draft.push? lexeme = none) :
      Stops tokens rest draft
        (.error (.unexpectedToken
          ⟨lexeme, stopAfter 0 tokens +
            byteLength (leadingBlanks rest)⟩
          draft.expected))

/- Reading ends after tokens each of which may come next. -/
theorem exists_stops
    (text : String) :
    ∃ tokens rest draft,
      Lexes 0 text.toList tokens rest ∧
      Draft.empty.pushAll? (tokens.map Token.lexeme) =
        some draft ∧
      Stops tokens rest draft (readSpecs text) := by
  rcases exists_lexes 0 text.toList with
    ⟨rest, hTokens, hEnding⟩
  unfold readSpecs tokenize
  generalize tokenizeFrom 0 text.toList = all at *
  rcases all with ⟨tokens, ending⟩
  rcases exists_pushAll?_front .empty tokens with
    ⟨front, back, draft, rfl, hFront, hBack⟩
  -- What is left of the text is not what splitting left,
  -- but what stands behind the last token that was read.
  rcases hTokens.exists_of_append with
    ⟨middle, hBefore, hAfter⟩
  refine ⟨front, middle, draft, hBefore, hFront, ?_⟩
  simp only [readTokens_append hFront]
  cases hAfter with
  | done =>
      rw [List.append_nil] at hEnding
      cases ending with
      | complete =>
          cases hFinish : draft.finish? with
          | none =>
              simp only [readTokens, hFinish]
              exact .unfinished hEnding hFinish
          | some specs =>
              simp only [readTokens, hFinish]
              exact .finished hEnding hFinish
      | stuck position =>
          rcases hEnding with ⟨hRest, hNone, hPosition⟩
          simp only [readTokens, hPosition]
          exact .invalid hRest hNone
  | @token _ _ _ token tokens hLexeme hStart hTokens =>
      have hPush : draft.push? token.lexeme = none :=
        hBack token rfl
      rcases token with ⟨lexeme, start⟩
      cases hStart
      simp only [readTokens, hPush]
      exact .refused hLexeme hPush

/- A table that the text is split into is read. -/
theorem readSpecs_of_splits
    {text : String}
    {table : RuleTable}
    (hSplits : Splits text table.lexemes) :
    readSpecs text = .ok table.specs := by
  rcases splits_iff.mp hSplits with ⟨hComplete, hLexemes⟩
  rcases table.exists_pushAll? with ⟨draft, hPush, hFinish⟩
  unfold readSpecs
  generalize tokenize text = all at *
  rcases all with ⟨tokens, ending⟩
  cases hComplete
  rw [← hLexemes] at hPush
  have hRead := readTokens_append hPush 0 .complete []
  rw [List.append_nil] at hRead
  simp only [hRead, readTokens, hFinish]

/- Where a text is read, it is split into a table. -/
theorem exists_splits_of_readSpecs
    {text : String}
    {specs : List RuleSpec}
    (hRead : readSpecs text = .ok specs) :
    ∃ table : RuleTable, Splits text table.lexemes := by
  rcases exists_stops text with
    ⟨tokens, rest, draft, hTokens, hPush, hStops⟩
  rw [hRead] at hStops
  cases hStops with
  | finished hRest hFinish =>
      rcases exists_table_iff.mpr ⟨draft, hPush, hFinish⟩ with
        ⟨table, hLexemes, _⟩
      exact ⟨table, tokens, rest, hTokens, hRest,
        hLexemes.symm⟩

end Notation

end Constituency
