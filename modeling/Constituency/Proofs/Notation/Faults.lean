import Constituency.Notation.Source
import Constituency.Proofs.Notation.Reading
import Mathlib.Data.List.Forall2

/-
  This file says where a text is refused as a rule table:
  at the first token that no rule table goes on with. The
  kinds listed are those it could have gone on with.

  Key definitions include:
    * `IsViable`
    * `IsExpected`
    * `Shows`
    * `Enumerates`
    * `IsListing`
    * `IsLongestViable`
    * `Refuses`

  Main declarations:
    * `isViable_iff`
    * `isExpected_expected`
    * `enumerates_orPhrase`
    * `isListing_expectedLine`
    * `Stops.refuses`
    * `Stops.isLongestViable`
    * `Grammar.ofText_malformed`
    * `Grammar.ofText_malformed_mark`
-/

namespace Constituency

namespace Notation

------------------------------------------------------------
-- Viable Lexemes
------------------------------------------------------------

/- Some rule table starts with these lexemes. -/
def IsViable
    (lexemes : List Lexeme) : Prop :=
  ∃ (table : RuleTable) (more : List Lexeme),
    (∀ lexeme ∈ more, lexeme.WellFormed) ∧
      table.lexemes = lexemes ++ more

/- What has been read can be completed to a table. -/
theorem Draft.Reads.isViable
    {lexemes : List Lexeme}
    {draft : Draft}
    (hReads : Draft.Reads lexemes draft) :
    IsViable lexemes := by
  cases hReads with
  | between closed =>
      refine ⟨⟨closed, none⟩, [], by simp, ?_⟩
      simp [RuleTable.lexemes]
  | named closed lhs =>
      refine ⟨⟨closed, some ⟨lhs, [], []⟩⟩, [.arrow], ?_, ?_⟩
      · simp [Lexeme.WellFormed]
      · simp [RuleTable.lexemes, Clause.lexemes, Row.lexemes]
  | inside closed lhs earlier row markable hMarkable =>
      refine ⟨⟨closed, some (Clause.ofRows lhs row earlier)⟩,
        [], by simp, ?_⟩
      simp [RuleTable.lexemes]

/- Lexemes are read as long as they start a rule table. -/
theorem isViable_iff
    {lexemes : List Lexeme} :
    IsViable lexemes ↔
      ∃ draft, Draft.empty.pushAll? lexemes = some draft := by
  constructor
  · intro hViable
    rcases hViable with ⟨table, more, _, hLexemes⟩
    rcases table.exists_pushAll? with ⟨last, hPush, _⟩
    rw [hLexemes, Draft.pushAll?_append,
      Option.bind_eq_some_iff] at hPush
    rcases hPush with ⟨draft, hDraft, _⟩
    exact ⟨draft, hDraft⟩
  · intro hRead
    rcases hRead with ⟨draft, hPush⟩
    exact (Draft.reads_empty.pushAll hPush).isViable

/- Lexemes stay viable where the draft takes one more. -/
theorem isViable_append_iff
    {lexemes : List Lexeme}
    {draft : Draft}
    (hPush : Draft.empty.pushAll? lexemes = some draft)
    (lexeme : Lexeme) :
    IsViable (lexemes ++ [lexeme]) ↔
      (draft.push? lexeme).isSome = true := by
  rw [isViable_iff, Draft.pushAll?_append, hPush,
    Option.isSome_iff_exists]
  simp

------------------------------------------------------------
-- Expected Kinds
------------------------------------------------------------

/- Every kind of token can be written. -/
theorem exists_wellFormed
    (kind : TokenKind) :
    ∃ lexeme : Lexeme,
      lexeme.WellFormed ∧ lexeme.kind = kind := by
  cases kind with
  | star => exact ⟨.star, trivial, rfl⟩
  | semicolon => exact ⟨.semicolon, trivial, rfl⟩
  | arrow => exact ⟨.arrow, trivial, rfl⟩
  | bar => exact ⟨.bar, trivial, rfl⟩
  | quoted => exact ⟨.quoted [], List.not_mem_nil, rfl⟩
  | name =>
      refine ⟨.name ['_'], ⟨List.cons_ne_nil _ _, ?_⟩, rfl⟩
      intro c hc
      rw [List.mem_singleton.mp hc]
      rfl

/-
  The kinds of token with which a rule table can go on after
  these lexemes, each listed once and in a fixed order.
-/
structure IsExpected
    (lexemes : List Lexeme)
    (kinds : List TokenKind) : Prop where
  mem_iff : ∀ kind, kind ∈ kinds ↔
    ∃ lexeme : Lexeme, lexeme.WellFormed ∧
      lexeme.kind = kind ∧ IsViable (lexemes ++ [lexeme])
  sublist : kinds.Sublist
    [.star, .semicolon, .arrow, .bar, .quoted, .name]

/- A draft lists the kinds that can follow what it read. -/
theorem isExpected_expected
    {lexemes : List Lexeme}
    {draft : Draft}
    (hPush : Draft.empty.pushAll? lexemes = some draft) :
    IsExpected lexemes draft.expected where
  mem_iff := by
    intro kind
    have hAll : kind ∈ TokenKind.all := by
      cases kind <;> decide
    constructor
    · intro hKind
      have hAccepts := (List.mem_filter.mp hKind).2
      rcases exists_wellFormed kind with
        ⟨lexeme, hLexeme, rfl⟩
      refine ⟨lexeme, hLexeme, rfl, ?_⟩
      rw [isViable_append_iff hPush, Draft.isSome_push?]
      exact hAccepts
    · intro hFollows
      rcases hFollows with ⟨lexeme, _, rfl, hViable⟩
      rw [isViable_append_iff hPush,
        Draft.isSome_push?] at hViable
      exact List.mem_filter.mpr ⟨hAll, hViable⟩
  sublist := List.filter_sublist

------------------------------------------------------------
-- Lines of Expected Kinds
------------------------------------------------------------

/-
  How a kind of token is shown: in double quotes if it is
  always written in the same way, and else by its pattern.
-/
inductive Shows : TokenKind → String → Prop
  | literal
      {lexeme : Lexeme}
      (hLiteral :
        lexeme ∈ [Lexeme.star, .semicolon, .arrow, .bar]) :
      Shows lexeme.kind
        ("\"" ++ String.ofList lexeme.chars ++ "\"")
  | quoted : Shows .quoted "r#\"'[^']*'\"#"
  | name : Shows .name "r#\"[A-Za-z0-9_]+\"#"

/-
  Alternatives in a row: only one, or several with commas
  between them and an `or` before the last.
-/
inductive Enumerates : List String → String → Prop
  | single
      (only : String) :
      Enumerates [only] only
  | several
      {earlier : List String}
      (hEarlier : earlier ≠ [])
      (last : String) :
      Enumerates (earlier ++ [last])
        (", ".intercalate earlier ++ " or " ++ last)

/- The last line of a complaint, which lists the kinds. -/
inductive IsListing
    (kinds : List TokenKind) : String → Prop
  | line
      {labels : List String}
      {phrase : String}
      (hLabels : List.Forall₂ Shows kinds labels)
      (hPhrase : Enumerates labels phrase) :
      IsListing kinds ("\nExpected one of " ++ phrase)

theorem shows_label
    (kind : TokenKind) :
    Shows kind kind.label := by
  cases kind with
  | star => exact @Shows.literal .star (by decide)
  | semicolon => exact @Shows.literal .semicolon (by decide)
  | arrow => exact @Shows.literal .arrow (by decide)
  | bar => exact @Shows.literal .bar (by decide)
  | quoted => exact .quoted
  | name => exact .name

theorem orPhrase_concat
    {earlier : List String}
    (hEarlier : earlier ≠ [])
    (last : String) :
    orPhrase (earlier ++ [last]) =
      ", ".intercalate earlier ++ " or " ++ last := by
  induction earlier with
  | nil => exact absurd rfl hEarlier
  | cons first rest ih =>
      cases rest with
      | nil => simp [orPhrase]
      | cons second rest =>
          have hRest := ih (List.cons_ne_nil second rest)
          simp only [List.cons_append] at hRest
          have hStep :
              orPhrase
                  (first :: second :: rest ++ [last]) =
                first ++ ", " ++
                  orPhrase (second :: (rest ++ [last])) := by
            cases rest <;> rfl
          rw [hStep, hRest, String.intercalate_cons_cons]
          simp only [String.append_assoc]

/- One or more alternatives are written as a phrase. -/
theorem enumerates_orPhrase
    {labels : List String}
    (hLabels : labels ≠ []) :
    Enumerates labels (orPhrase labels) := by
  rcases List.eq_nil_or_concat' labels with
    hNone | ⟨earlier, last, hConcat⟩
  · exact absurd hNone hLabels
  · rw [hConcat]
    by_cases hEarlier : earlier = []
    · rw [hEarlier]
      exact .single last
    · rw [orPhrase_concat hEarlier]
      exact .several hEarlier last

/- There is always a token that can come next. -/
theorem expected_ne_nil
    (draft : Draft) :
    draft.expected ≠ [] := by
  have hAccepts : ∃ kind ∈ TokenKind.all,
      draft.accepts kind = true := by
    cases draft with
    | between done => exact ⟨.name, by decide, rfl⟩
    | named done lhs => exact ⟨.arrow, by decide, rfl⟩
    | inside done lhs rhs markable =>
        exact ⟨.name, by decide, rfl⟩
  rcases hAccepts with ⟨kind, hAll, hAccepts⟩
  exact List.ne_nil_of_mem
    (List.mem_filter.mpr ⟨hAll, hAccepts⟩)

/- What a draft expects is listed. -/
theorem isListing_expectedLine
    (draft : Draft) :
    IsListing draft.expected
      (expectedLine draft.expected) := by
  have hLabels : List.Forall₂ Shows draft.expected
      (draft.expected.map TokenKind.label) := by
    rw [List.forall₂_map_right_iff, List.forall₂_same]
    intro kind _
    exact shows_label kind
  have hSome :
      draft.expected.map TokenKind.label ≠ [] := by
    rw [ne_eq, List.map_eq_nil_iff]
    exact expected_ne_nil draft
  exact .line hLabels (enumerates_orPhrase hSome)

------------------------------------------------------------
-- Refusals
------------------------------------------------------------

/-
  These are the tokens at the start of the text with which a
  rule table can start, and there are no more of them.
-/
structure IsLongestViable
    (text : String)
    (tokens : List Token)
    (rest : List Char) : Prop where
  lexes : Lexes 0 text.toList tokens rest
  viable : IsViable (tokens.map Token.lexeme)
  longest : ∀ others after,
    Lexes 0 text.toList others after →
      IsViable (others.map Token.lexeme) →
        others <+: tokens

/-
  A refusal and its message. A rule table can start with
  `tokens`, but it does not go on with what stands at
  `rest`: with something that is no token, with the end of
  the text, or with the next token.
-/
inductive Refuses
    (tokens : List Token)
    (rest : List Char) :
    SyntaxError → String → Prop
  | invalid
      {position : Nat}
      (hRest : afterBlanks rest ≠ [])
      (hNone : ∀ lexeme : Lexeme, lexeme.WellFormed →
        ¬ lexeme.chars <+: afterBlanks rest)
      (hPosition : position = stopAfter 0 tokens +
        (String.ofList (leadingBlanks rest)).utf8ByteSize) :
      Refuses tokens rest (.invalidToken position)
        ("Invalid token at " ++ toString position)
  | unfinished
      {position : Nat}
      {kinds : List TokenKind}
      {line : String}
      (hRest : afterBlanks rest = [])
      (hPosition : position = stopAfter 0 tokens)
      (hKinds :
        IsExpected (tokens.map Token.lexeme) kinds)
      (hLine : IsListing kinds line) :
      Refuses tokens rest (.unexpectedEnd position kinds)
        ("Unrecognized EOF found at " ++ toString position ++
          line)
  | unexpected
      {token : Token}
      {stop : Nat}
      {kinds : List TokenKind}
      {line : String}
      (hLexeme : token.lexeme.IsLongest (afterBlanks rest))
      (hStart : token.start = stopAfter 0 tokens +
        (String.ofList (leadingBlanks rest)).utf8ByteSize)
      (hStop : stop = token.start +
        (String.ofList token.lexeme.chars).utf8ByteSize)
      (hKinds :
        IsExpected (tokens.map Token.lexeme) kinds)
      (hLine : IsListing kinds line) :
      Refuses tokens rest (.unexpectedToken token kinds)
        ("Unrecognized token `" ++
          String.ofList token.lexeme.chars ++
          "` found at " ++ toString token.start ++ ":" ++
          toString stop ++ line)

variable {tokens : List Token}
variable {rest : List Char}
variable {draft : Draft}
variable {cause : SyntaxError}

/- Where reading fails, the draft takes no token there. -/
theorem Stops.push?_eq_none
    (hStops : Stops tokens rest draft (.error cause))
    {lexeme : Lexeme}
    (hLexeme : lexeme.IsLongest (afterBlanks rest)) :
    draft.push? lexeme = none := by
  have hRead := Lexeme.ofChars?_eq_some_iff.mpr hLexeme
  cases hStops with
  | unfinished hRest hFinish =>
      rw [hRest] at hRead
      cases hRead
  | invalid hRest hNone =>
      exact absurd hLexeme.isPrefix
        (hNone lexeme hLexeme.wellFormed)
  | refused hOther hPush =>
      rw [Lexeme.ofChars?_eq_some_iff.mpr hOther] at hRead
      cases hRead
      exact hPush

/- Where reading fails, its complaint is as described. -/
theorem Stops.refuses
    (hStops : Stops tokens rest draft (.error cause))
    (hPush : Draft.empty.pushAll?
      (tokens.map Token.lexeme) = some draft) :
    Refuses tokens rest cause cause.message := by
  have hExpected := isExpected_expected hPush
  have hLine := isListing_expectedLine draft
  cases hStops with
  | unfinished hRest hFinish =>
      exact .unfinished hRest rfl hExpected hLine
  | invalid hRest hNone =>
      exact .invalid hRest hNone (by rw [utf8ByteSize_ofList])
  | @refused lexeme hLexeme hPush =>
      exact .unexpected hLexeme
        (by rw [utf8ByteSize_ofList])
        (by rw [utf8ByteSize_ofList]; rfl) hExpected hLine

/- Where reading fails, no more tokens can be gone on with. -/
theorem Stops.isLongestViable
    {text : String}
    (hStops : Stops tokens rest draft (.error cause))
    (hTokens : Lexes 0 text.toList tokens rest)
    (hPush : Draft.empty.pushAll?
      (tokens.map Token.lexeme) = some draft) :
    IsLongestViable text tokens rest where
  lexes := hTokens
  viable := isViable_iff.mpr ⟨draft, hPush⟩
  longest := by
    intro others after hOthers hViable
    rcases hTokens.prefix_or_prefix hOthers with
      hMore | hFewer
    · rcases hMore with ⟨more, rfl⟩
      rcases hOthers.exists_of_append with
        ⟨middle, hFront, hMore⟩
      cases hFront.rest_eq hTokens
      cases hMore with
      | done => simp
      | @token _ _ _ token more hLexeme hStart hMore =>
          -- One more token is the one that is refused here.
          rcases isViable_iff.mp hViable with ⟨last, hLast⟩
          rw [List.map_append, Draft.pushAll?_append,
            hPush, Option.bind_some, List.map_cons,
            Draft.pushAll?_cons,
            hStops.push?_eq_none hLexeme] at hLast
          cases hLast
    · exact hFewer

end Notation

namespace Grammar

open Notation

/-
  A text that is refused for its notation is refused right
  behind the longest row of tokens with which a rule table
  can start, and the complaint lists the kinds of token with
  which it can go on.
-/
theorem ofText_malformed
    {text : String}
    {cause : SyntaxError}
    (hError : ofText text = .error (.malformed cause)) :
    ∃ tokens consumed rest,
      IsLongestViable text tokens rest ∧
      text.toList = consumed ++ rest ∧
      stopAfter 0 tokens =
        (String.ofList consumed).utf8ByteSize ∧
      Refuses tokens rest cause cause.message ∧
      (ReadError.malformed cause).message =
        "grammar syntax error: " ++ cause.message := by
  have hRead : readSpecs text = .error cause := by
    unfold ofText at hError
    split at hError
    · rename_i hRead
      cases hError
      exact hRead
    · split at hError <;> cases hError
  rcases exists_stops text with
    ⟨tokens, rest, draft, hTokens, hPush, hStops⟩
  rw [hRead] at hStops
  rcases hTokens.exists_consumed with
    ⟨consumed, hText, hStop⟩
  refine ⟨tokens, consumed, rest,
    hStops.isLongestViable hTokens hPush, hText, ?_,
    hStops.refuses hPush, rfl⟩
  rw [hStop, Nat.zero_add, utf8ByteSize_ofList]

/-
  The second mark is refused before the question mark, which
  starts no token, is looked at. The accent takes two bytes.
-/
theorem ofText_malformed_mark :
    let text := "S -> 'é'* * ?"
    let cause : SyntaxError := .unexpectedToken ⟨.star, 11⟩
      [.semicolon, .bar, .quoted, .name]
    let message :=
      "Unrecognized token `*` found at 11:12\n" ++
        "Expected one of \";\", \"|\", " ++
        "r#\"'[^']*'\"# or r#\"[A-Za-z0-9_]+\"#"
    ofText text = .error (.malformed cause) ∧
    ∃ tokens consumed rest,
      IsLongestViable text tokens rest ∧
      text.toList = consumed ++ rest ∧
      stopAfter 0 tokens =
        (String.ofList consumed).utf8ByteSize ∧
      Refuses tokens rest cause message ∧
      (ReadError.malformed cause).message =
        "grammar syntax error: " ++ message := by
  intro text cause message
  have hRead : readSpecs text = .error cause := by
    decide +kernel
  have hError : ofText text = .error (.malformed cause) := by
    rw [ofText, hRead]
  have hMessage : cause.message = message := by
    decide +kernel
  have hMalformed := ofText_malformed hError
  rw [hMessage] at hMalformed
  exact ⟨hError, hMalformed⟩

end Grammar

end Constituency
