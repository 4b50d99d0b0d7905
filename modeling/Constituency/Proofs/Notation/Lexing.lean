import Constituency.Notation.Token
import Mathlib.Data.List.TakeWhile

/-
  This file says what splitting a text into tokens comes to:
  each token is the longest lexeme at its place, blanks
  between tokens are passed over, and splitting ends where
  only blanks are left or no lexeme starts.

  Key definitions include:
    * `Lexeme.WellFormed`
    * `Lexeme.IsLongest`
    * `leadingBlanks`
    * `afterBlanks`
    * `Lexes`
    * `stopAfter`
    * `Ending.IsAt`
    * `Splits`

  Main declarations:
    * `Lexeme.ofChars?_eq_some_iff`
    * `Lexeme.ofChars?_eq_none_iff`
    * `Lexes.tokenizeFrom_eq`
    * `Lexes.exists_consumed`
    * `Lexes.prefix_or_prefix`
    * `exists_lexes`
    * `splits_iff`
-/

namespace Constituency

namespace Notation

------------------------------------------------------------
-- Lexemes
------------------------------------------------------------

namespace Lexeme

/-
  The lexeme can be written: a name has at least one letter
  and only such as names are made of, and nothing quoted
  holds a quote.
-/
def WellFormed : Lexeme → Prop
  | quoted content => '\'' ∉ content
  | name letters =>
      letters ≠ [] ∧ ∀ c ∈ letters, isNameChar c = true
  | _ => True

/- No other lexeme at the start of the text is longer. -/
structure IsLongest
    (text : List Char)
    (lexeme : Lexeme) : Prop where
  wellFormed : lexeme.WellFormed
  isPrefix : lexeme.chars <+: text
  longest : ∀ other : Lexeme, other.WellFormed →
    other.chars <+: text →
      other.chars.length ≤ lexeme.chars.length

/- No quote comes before the first one. -/
theorem notMem_takeWhile_quote
    (text : List Char) :
    '\'' ∉ text.takeWhile (· != '\'') := by
  intro hInside
  have hOther := List.mem_takeWhile_imp hInside
  exact absurd rfl (bne_iff_ne.mp hOther)

/- What is before the first quote is followed by it. -/
theorem exists_closing
    {text : List Char}
    (hQuote : '\'' ∈ text) :
    ∃ after, text =
      text.takeWhile (· != '\'') ++ '\'' :: after := by
  have hSome : text.dropWhile (· != '\'') ≠ [] := by
    intro hNone
    have hAll := List.dropWhile_eq_nil_iff.mp hNone
    exact absurd rfl (bne_iff_ne.mp (hAll _ hQuote))
  have hHead := List.head_dropWhile_not (· != '\'') hSome
  rcases List.exists_cons_of_ne_nil hSome with
    ⟨c, after, hAfter⟩
  have hClose : c = '\'' := by
    simpa [hAfter] using hHead
  rw [hClose] at hAfter
  refine ⟨after, ?_⟩
  rw [← hAfter]
  exact List.takeWhile_append_dropWhile.symm

/- Quoted text is read up to the next quote. -/
theorem ofChars?_quoted
    {content : List Char}
    (hContent : '\'' ∉ content)
    (rest : List Char) :
    ofChars? ((quoted content).chars ++ rest) =
      some (.quoted content) := by
  have hInside :
      ∀ c ∈ content, (c != '\'') = true := by
    intro c hc
    rw [bne_iff_ne]
    rintro rfl
    exact hContent hc
  have hTake :
      (content ++ '\'' :: rest).takeWhile (· != '\'') =
        content := by
    rw [List.takeWhile_append_of_pos hInside]
    simp
  have hChars :
      (quoted content).chars ++ rest =
        '\'' :: (content ++ '\'' :: rest) := by
    simp [chars]
  rw [hChars]
  simp only [ofChars?]
  rw [if_pos (by simp), hTake]

/- A letter starts a name with all letters after it. -/
theorem ofChars?_of_isNameChar
    {c : Char}
    (hFirst : isNameChar c = true)
    (rest : List Char) :
    ofChars? (c :: rest) =
      some (.name (c :: rest.takeWhile isNameChar)) := by
  unfold ofChars?
  split <;> rename_i hText <;> cases hText
  · cases hFirst
  · cases hFirst
  · cases hFirst
  · cases hFirst
  · cases hFirst
  · rw [if_pos hFirst]

/- A name is read together with all letters after it. -/
theorem ofChars?_name
    {letters : List Char}
    (hLetters : (name letters).WellFormed)
    (rest : List Char) :
    ofChars? ((name letters).chars ++ rest) =
      some (.name (letters ++ rest.takeWhile isNameChar)) := by
  rcases hLetters with ⟨hSome, hAll⟩
  rcases List.exists_cons_of_ne_nil hSome with
    ⟨c, others, rfl⟩
  have hOthers : ∀ d ∈ others, isNameChar d = true :=
    fun d hd => hAll d (List.mem_cons_of_mem c hd)
  change ofChars? (c :: (others ++ rest)) = _
  rw [ofChars?_of_isNameChar (hAll c List.mem_cons_self),
    List.takeWhile_append_of_pos hOthers, List.cons_append]

/- Lexemes can be told apart by what is written. -/
theorem ofChars?_chars
    {lexeme : Lexeme}
    (hLexeme : lexeme.WellFormed) :
    ofChars? lexeme.chars = some lexeme := by
  cases lexeme with
  | quoted content =>
      have hRead := ofChars?_quoted hLexeme []
      rwa [List.append_nil] at hRead
  | name letters =>
      have hRead := ofChars?_name hLexeme []
      rwa [List.append_nil, List.takeWhile_nil,
        List.append_nil] at hRead
  | _ => rfl

/- Where a lexeme is written, none that is shorter is read. -/
theorem exists_of_isPrefix
    {lexeme : Lexeme}
    (hLexeme : lexeme.WellFormed)
    {text : List Char}
    (hPrefix : lexeme.chars <+: text) :
    ∃ longer, ofChars? text = some longer ∧
      lexeme.chars.length ≤ longer.chars.length := by
  rcases hPrefix with ⟨rest, rfl⟩
  cases lexeme with
  | quoted content =>
      exact ⟨_, ofChars?_quoted hLexeme rest, Nat.le_refl _⟩
  | name letters =>
      refine ⟨_, ofChars?_name hLexeme rest, ?_⟩
      simp [chars]
  | _ => exact ⟨_, rfl, Nat.le_refl _⟩

/- What is read is written at the start of the text. -/
theorem wellFormed_of_ofChars?
    {text : List Char}
    {lexeme : Lexeme}
    (hRead : ofChars? text = some lexeme) :
    lexeme.WellFormed ∧ lexeme.chars <+: text := by
  unfold ofChars? at hRead
  split at hRead
  · cases hRead
    exact ⟨trivial, ⟨_, rfl⟩⟩
  · cases hRead
    exact ⟨trivial, ⟨_, rfl⟩⟩
  · cases hRead
    exact ⟨trivial, ⟨_, rfl⟩⟩
  · cases hRead
    exact ⟨trivial, ⟨_, rfl⟩⟩
  · rename_i rest
    split at hRead
    · rename_i hQuote
      cases hRead
      rcases exists_closing hQuote with ⟨after, hRest⟩
      refine ⟨notMem_takeWhile_quote rest, after, ?_⟩
      conv => rhs; rw [hRest]
      simp [chars]
    · cases hRead
  · rename_i c rest _ _ _ _ _
    split at hRead
    · rename_i hLetter
      cases hRead
      refine ⟨⟨List.cons_ne_nil _ _, ?_⟩, ?_⟩
      · intro d hd
        rcases List.mem_cons.mp hd with rfl | hOther
        · exact hLetter
        · exact List.mem_takeWhile_imp hOther
      · exact List.cons_prefix_cons.mpr
          ⟨rfl, List.takeWhile_prefix _⟩
    · cases hRead
  · cases hRead

/- The lexeme that is read is the longest one. -/
theorem ofChars?_eq_some_iff
    {text : List Char}
    {lexeme : Lexeme} :
    ofChars? text = some lexeme ↔ lexeme.IsLongest text := by
  constructor
  · intro hRead
    rcases wellFormed_of_ofChars? hRead with
      ⟨hLexeme, hPrefix⟩
    refine ⟨hLexeme, hPrefix, ?_⟩
    intro other hOther hStart
    rcases exists_of_isPrefix hOther hStart with
      ⟨longer, hLonger, hLength⟩
    rw [hRead] at hLonger
    cases hLonger
    exact hLength
  · intro hLongest
    rcases exists_of_isPrefix hLongest.wellFormed
        hLongest.isPrefix with
      ⟨longer, hLonger, hLength⟩
    rcases wellFormed_of_ofChars? hLonger with
      ⟨hWellFormed, hPrefix⟩
    have hShorter :=
      hLongest.longest longer hWellFormed hPrefix
    have hChars : lexeme.chars = longer.chars :=
      (List.prefix_of_prefix_length_le hLongest.isPrefix
        hPrefix hLength).eq_of_length
          (Nat.le_antisymm hLength hShorter)
    have hSame := ofChars?_chars hLongest.wellFormed
    rw [hChars, ofChars?_chars hWellFormed] at hSame
    rw [hLonger, hSame]

/- Nothing is read exactly where no lexeme is written. -/
theorem ofChars?_eq_none_iff
    {text : List Char} :
    ofChars? text = none ↔
      ∀ lexeme : Lexeme, lexeme.WellFormed →
        ¬ lexeme.chars <+: text := by
  constructor
  · intro hNone lexeme hLexeme hPrefix
    rcases exists_of_isPrefix hLexeme hPrefix with
      ⟨_, hSome, _⟩
    rw [hNone] at hSome
    cases hSome
  · intro hNone
    cases hRead : ofChars? text with
    | none => rfl
    | some lexeme =>
        rcases wellFormed_of_ofChars? hRead with
          ⟨hLexeme, hPrefix⟩
        exact absurd hPrefix (hNone lexeme hLexeme)

end Lexeme

------------------------------------------------------------
-- Blanks
------------------------------------------------------------

/- The blanks a text starts with. -/
def leadingBlanks
    (text : List Char) : List Char :=
  text.takeWhile Text.isBlank

/- What follows the blanks a text starts with. -/
def afterBlanks
    (text : List Char) : List Char :=
  text.dropWhile Text.isBlank

theorem leadingBlanks_append_afterBlanks
    (text : List Char) :
    leadingBlanks text ++ afterBlanks text = text :=
  List.takeWhile_append_dropWhile

@[simp]
theorem byteLength_append
    (front back : List Char) :
    byteLength (front ++ back) =
      byteLength front + byteLength back := by
  induction front with
  | nil => simp [byteLength]
  | cons c front ih =>
      rw [List.cons_append, byteLength, byteLength, ih,
        Nat.add_assoc]

/- Bytes are counted as in the UTF-8 form of the text. -/
theorem utf8ByteSize_ofList
    (text : List Char) :
    (String.ofList text).utf8ByteSize = byteLength text := by
  induction text with
  | nil => rfl
  | cons c text ih =>
      rw [String.ofList_cons, String.utf8ByteSize_append,
        String.utf8ByteSize_singleton, ih, byteLength]

/- Blanks only move the place at which splitting goes on. -/
theorem tokenizeFrom_afterBlanks
    (position : Nat)
    (text : List Char) :
    tokenizeFrom position text =
      tokenizeFrom (position + byteLength (leadingBlanks text))
        (afterBlanks text) := by
  induction text generalizing position with
  | nil => rfl
  | cons c rest ih =>
      cases hBlank : Text.isBlank c with
      | false =>
          simp [leadingBlanks, afterBlanks, hBlank, byteLength]
      | true =>
          rw [tokenizeFrom, if_pos hBlank, ih]
          simp [leadingBlanks, afterBlanks, hBlank,
            byteLength, Nat.add_assoc]

/- After the blanks a text starts with, none comes next. -/
theorem isBlank_of_afterBlanks
    {text rest : List Char}
    {c : Char}
    (hRest : afterBlanks text = c :: rest) :
    Text.isBlank c = false := by
  have hSome : afterBlanks text ≠ [] := by simp [hRest]
  have hHead :
      Text.isBlank ((afterBlanks text).head hSome) = false :=
    List.head_dropWhile_not Text.isBlank hSome
  simpa only [hRest, List.head_cons] using hHead

section Steps

variable {text : List Char}
variable (position : Nat)

theorem tokenizeFrom_of_complete
    (hRest : afterBlanks text = []) :
    tokenizeFrom position text = ([], .complete) := by
  rw [tokenizeFrom_afterBlanks, hRest, tokenizeFrom]

theorem tokenizeFrom_of_stuck
    (hRest : afterBlanks text ≠ [])
    (hNone : Lexeme.ofChars? (afterBlanks text) = none) :
    tokenizeFrom position text =
      ([], .stuck
        (position + byteLength (leadingBlanks text))) := by
  rcases List.exists_cons_of_ne_nil hRest with
    ⟨c, rest, hCons⟩
  rw [hCons] at hNone
  rw [tokenizeFrom_afterBlanks, hCons, tokenizeFrom,
    isBlank_of_afterBlanks hCons]
  simp only [Bool.false_eq_true, if_false]
  split
  · rfl
  · rename_i hRead
    rw [hNone] at hRead
    cases hRead

theorem tokenizeFrom_of_token
    {lexeme : Lexeme}
    (hRead : Lexeme.ofChars? (afterBlanks text) = some lexeme)
    {token : Token}
    (hToken : token =
      ⟨lexeme, position + byteLength (leadingBlanks text)⟩)
    {after : List Char}
    (hAfter : after =
      (afterBlanks text).drop lexeme.chars.length) :
    tokenizeFrom position text =
      (token :: (tokenizeFrom token.stop after).1,
        (tokenizeFrom token.stop after).2) := by
  subst hToken hAfter
  cases hCons : afterBlanks text with
  | nil =>
      rw [hCons] at hRead
      cases hRead
  | cons c rest =>
      rw [hCons] at hRead
      rw [tokenizeFrom_afterBlanks, hCons, tokenizeFrom,
        isBlank_of_afterBlanks hCons]
      simp only [Bool.false_eq_true, if_false]
      split
      · rename_i hNone
        rw [hRead] at hNone
        cases hNone
      · rename_i other hOther
        rw [hRead] at hOther
        cases hOther
        rfl

end Steps

------------------------------------------------------------
-- Splitting
------------------------------------------------------------

/-
  Splitting a text that starts at byte `position` gives
  these tokens and may be cut off before `rest`.
-/
inductive Lexes :
    Nat → List Char → List Token → List Char → Prop
  | done
      (position : Nat)
      (text : List Char) :
      Lexes position text [] text
  | token
      {position : Nat}
      {text rest : List Char}
      {token : Token}
      {tokens : List Token}
      (hLexeme : token.lexeme.IsLongest (afterBlanks text))
      (hStart : token.start =
        position + byteLength (leadingBlanks text))
      (hTokens : Lexes token.stop
        ((afterBlanks text).drop token.lexeme.chars.length)
        tokens rest) :
      Lexes position text (token :: tokens) rest

/-
  The byte just after the last token, or the given place if
  there is none.
-/
def stopAfter
    (position : Nat) : List Token → Nat
  | [] => position
  | token :: tokens => stopAfter token.stop tokens

/-
  What stands where splitting ends: only blanks, or after
  blanks something that no lexeme starts.
-/
def Ending.IsAt
    (stop : Nat)
    (rest : List Char) : Ending → Prop
  | .complete => afterBlanks rest = []
  | .stuck position =>
      afterBlanks rest ≠ [] ∧
        (∀ lexeme : Lexeme, lexeme.WellFormed →
          ¬ lexeme.chars <+: afterBlanks rest) ∧
        position = stop + byteLength (leadingBlanks rest)

namespace Lexes

/- Where a part of the tokens ends, splitting goes on. -/
theorem tokenizeFrom_eq
    {position : Nat}
    {text rest : List Char}
    {tokens : List Token}
    (hTokens : Lexes position text tokens rest) :
    tokenizeFrom position text =
      (tokens ++
          (tokenizeFrom (stopAfter position tokens) rest).1,
        (tokenizeFrom (stopAfter position tokens) rest).2) := by
  induction hTokens with
  | done position text => rfl
  | @token position text rest token tokens hLexeme hStart
      hTokens ih =>
      have hToken : token =
          ⟨token.lexeme,
            position + byteLength (leadingBlanks text)⟩ := by
        rw [← hStart]
      rw [tokenizeFrom_of_token position
        (Lexeme.ofChars?_eq_some_iff.mpr hLexeme) hToken rfl,
        ih]
      rfl

/- Tokens in the middle of a split start where it is cut. -/
theorem exists_of_append
    {position : Nat}
    {text rest : List Char}
    {front back : List Token}
    (hTokens : Lexes position text (front ++ back) rest) :
    ∃ middle, Lexes position text front middle ∧
      Lexes (stopAfter position front) middle back rest := by
  induction front generalizing position text with
  | nil => exact ⟨text, .done position text, hTokens⟩
  | cons token front ih =>
      cases hTokens with
      | token hLexeme hStart hTokens =>
          rcases ih hTokens with ⟨middle, hFront, hBack⟩
          exact ⟨middle, .token hLexeme hStart hFront,
            hBack⟩

/- The tokens end at the byte up to which text is used up. -/
theorem exists_consumed
    {position : Nat}
    {text rest : List Char}
    {tokens : List Token}
    (hTokens : Lexes position text tokens rest) :
    ∃ consumed, text = consumed ++ rest ∧
      stopAfter position tokens =
        position + byteLength consumed := by
  induction hTokens with
  | done position text => exact ⟨[], rfl, rfl⟩
  | @token position text rest token tokens hLexeme hStart
      hTokens ih =>
      rcases ih with ⟨consumed, hText, hStop⟩
      rcases hLexeme.isPrefix with ⟨after, hAfter⟩
      refine ⟨leadingBlanks text ++ token.lexeme.chars ++
        consumed, ?_, ?_⟩
      · have hDrop : (afterBlanks text).drop
            token.lexeme.chars.length = after := by
          rw [← hAfter, List.drop_left]
        rw [hDrop] at hText
        rw [List.append_assoc, ← hText, List.append_assoc,
          hAfter, leadingBlanks_append_afterBlanks]
      · rw [stopAfter, hStop, Token.stop, hStart,
          byteLength_append, byteLength_append]
        omega

/- Of two splits, one goes on where the other is cut off. -/
theorem prefix_or_prefix
    {position : Nat}
    {text rest after : List Char}
    {tokens others : List Token}
    (hTokens : Lexes position text tokens rest)
    (hOthers : Lexes position text others after) :
    tokens <+: others ∨ others <+: tokens := by
  have hAll := hTokens.tokenizeFrom_eq
  rw [hOthers.tokenizeFrom_eq] at hAll
  exact List.prefix_or_prefix_of_prefix
    ⟨_, (congrArg Prod.fst hAll).symm⟩ ⟨_, rfl⟩

/- The same tokens always leave the same rest. -/
theorem rest_eq
    {position : Nat}
    {text rest after : List Char}
    {tokens : List Token}
    (hTokens : Lexes position text tokens rest)
    (hOther : Lexes position text tokens after) :
    rest = after := by
  induction hTokens with
  | done position text =>
      cases hOther
      rfl
  | token hLexeme hStart hTokens ih =>
      cases hOther with
      | token _ _ hOther => exact ih hOther

end Lexes

/- Behind a token, less of the text is left. -/
theorem length_drop_lt
    {text : List Char}
    {lexeme : Lexeme}
    (hRead :
      Lexeme.ofChars? (afterBlanks text) = some lexeme) :
    ((afterBlanks text).drop lexeme.chars.length).length <
      text.length := by
  have hPositive := List.length_pos_iff.mpr
    (Lexeme.chars_ne_nil_of_ofChars? hRead)
  have hStart :=
    (Lexeme.wellFormed_of_ofChars? hRead).2.length_le
  have hAfter : (afterBlanks text).length ≤ text.length :=
    (List.dropWhile_suffix _).length_le
  rw [List.length_drop]
  omega

/-
  Splitting gives all tokens up to where it has to end. The
  induction is on the length of the text, since a token can
  be of any length.
-/
theorem exists_lexes
    (position : Nat)
    (text : List Char) :
    ∃ rest,
      Lexes position text
        (tokenizeFrom position text).1 rest ∧
      (tokenizeFrom position text).2.IsAt
        (stopAfter position (tokenizeFrom position text).1)
        rest := by
  induction hLength : text.length using Nat.strong_induction_on
    generalizing position text with
  | _ n ih =>
      cases hRead : Lexeme.ofChars? (afterBlanks text) with
      | none =>
          refine ⟨text, ?_⟩
          by_cases hRest : afterBlanks text = []
          · rw [tokenizeFrom_of_complete position hRest]
            exact ⟨.done position text, hRest⟩
          · rw [tokenizeFrom_of_stuck position hRest hRead]
            exact ⟨.done position text, hRest,
              Lexeme.ofChars?_eq_none_iff.mp hRead, rfl⟩
      | some lexeme =>
          let token : Token :=
            ⟨lexeme,
              position + byteLength (leadingBlanks text)⟩
          let after :=
            (afterBlanks text).drop lexeme.chars.length
          have hShorter : after.length < n :=
            hLength ▸ length_drop_lt hRead
          rcases ih after.length hShorter token.stop after rfl
            with ⟨rest, hTokens, hEnding⟩
          have hText := tokenizeFrom_of_token position hRead
            (show token = _ from rfl) (show after = _ from rfl)
          rw [hText]
          exact ⟨rest, .token
            (Lexeme.ofChars?_eq_some_iff.mp hRead) rfl hTokens,
            hEnding⟩

/- The whole text is made of these lexemes and of blanks. -/
def Splits
    (text : String)
    (lexemes : List Lexeme) : Prop :=
  ∃ tokens rest, Lexes 0 text.toList tokens rest ∧
    afterBlanks rest = [] ∧
    tokens.map Token.lexeme = lexemes

theorem splits_iff
    {text : String}
    {lexemes : List Lexeme} :
    Splits text lexemes ↔
      (tokenize text).2 = .complete ∧
        (tokenize text).1.map Token.lexeme = lexemes := by
  constructor
  · intro hSplits
    rcases hSplits with
      ⟨tokens, rest, hTokens, hRest, hLexemes⟩
    have hText := hTokens.tokenizeFrom_eq
    rw [tokenizeFrom_of_complete _ hRest,
      List.append_nil] at hText
    unfold tokenize
    rw [hText]
    exact ⟨rfl, hLexemes⟩
  · intro hTokenize
    rcases hTokenize with ⟨hComplete, hLexemes⟩
    rcases exists_lexes 0 text.toList with
      ⟨rest, hTokens, hEnding⟩
    change (tokenize text).2.IsAt _ rest at hEnding
    rw [hComplete] at hEnding
    exact ⟨(tokenize text).1, rest, hTokens, hEnding,
      hLexemes⟩

end Notation

end Constituency
