import Constituency.Item.Printer
import Constituency.Proofs.Inference.WellFormed
import Constituency.Proofs.Notation.Printing

/-
  This file shows that printed items tell items apart. A
  text falls into words and ends with the span; its first
  character tells goals and completed items from items with
  dots. The words of these are the symbols of the rule and
  its dots, so that rule and dots can be read off; a
  completed item shows its rule as it is read back.

  Key definitions include:
    * `spaced`
    * `Rule.dottedWords`
    * `Rule.Fits`
    * `ItemKey.label`
    * `ItemKey.sign`

  Main declarations:
    * `Span.text_injective`
    * `spaced_injective`
    * `Rule.spaced_dottedText`
    * `Rule.dottedWords_injective`
    * `Rule.eq_of_text_eq`
    * `ItemKey.label_span_of_text_eq`
    * `Grammar.text_eq_iff_key_eq`
    * `Grammar.tagged_texts`
-/

namespace Constituency

open Notation

------------------------------------------------------------
-- Numbers and Spans
------------------------------------------------------------

/- A number is written with digits. -/
theorem not_mem_toDigits
    {c : Char}
    (hDigit : c.isDigit = false)
    (n : Nat) :
    c ∉ Nat.toDigits 10 n := by
  intro hMember
  rw [Nat.isDigit_of_mem_toDigits (by decide) (by decide)
    hMember] at hDigit
  cases hDigit

theorem toDigits_injective
    {m n : Nat}
    (hDigits : Nat.toDigits 10 m = Nat.toDigits 10 n) :
    m = n := by
  have hRead := congrArg (Nat.ofDigitChars 10 · 0) hDigits
  simpa using hRead

namespace Span

theorem toList_text
    (s : Span) :
    s.text.toList =
      '[' :: Nat.toDigits 10 s.start ++
        ',' :: (Nat.toDigits 10 s.stop ++ [')']) := by
  simp [text, String.toList_append]

/- A span is written without blanks. -/
theorem not_mem_text
    (s : Span) :
    ' ' ∉ s.text.toList := by
  have hDigits := not_mem_toDigits (c := ' ') (by decide)
  simp [toList_text, hDigits]

/- Both ends of a span can be read off. -/
theorem text_injective
    {s t : Span}
    (hText : s.text = t.text) :
    s = t := by
  have hDigits := not_mem_toDigits (c := ',') (by decide)
  have hChars := congrArg String.toList hText
  rw [toList_text, toList_text,
    List.append_cons_inj_of_notMem (by simp [hDigits])
      (by simp [hDigits])] at hChars
  rcases hChars with ⟨hStart, _, hStop⟩
  rw [List.cons_inj_right] at hStart
  rw [List.append_cancel_right_eq] at hStop
  cases s with
  | mk start stop =>
      cases t with
      | mk otherStart otherStop =>
          cases toDigits_injective hStart
          cases toDigits_injective hStop
          rfl

end Span

------------------------------------------------------------
-- Words
------------------------------------------------------------

/- Words, each behind a blank. -/
def spaced
    (words : List String) : List Char :=
  words.flatMap (fun word => ' ' :: word.toList)

theorem spaced_cons
    (word : String)
    (words : List String) :
    spaced (word :: words) =
      ' ' :: word.toList ++ spaced words :=
  List.flatMap_cons

theorem spaced_append
    (front back : List String) :
    spaced (front ++ back) = spaced front ++ spaced back :=
  List.flatMap_append

/- The first word is what stands before the next blank. -/
theorem takeWhile_spaced
    {word : List Char}
    (hWord : ' ' ∉ word)
    (words : List String) :
    (word ++ spaced words).takeWhile (· ≠ ' ') = word := by
  have hLetters : ∀ c ∈ word, decide (c ≠ ' ') = true := by
    intro c hc
    apply decide_eq_true
    rintro rfl
    exact hWord hc
  have hRest :
      (spaced words).takeWhile (· ≠ ' ') = [] := by
    cases words with
    | nil => rfl
    | cons next words => simp [spaced]
  rw [List.takeWhile_append_of_pos hLetters, hRest,
    List.append_nil]

/- Words without blanks can be read off. -/
theorem spaced_injective
    {words others : List String}
    (hWords : ∀ word ∈ words, ' ' ∉ word.toList)
    (hOthers : ∀ word ∈ others, ' ' ∉ word.toList)
    (hSame : spaced words = spaced others) :
    words = others := by
  induction words generalizing others with
  | nil =>
      cases others with
      | nil => rfl
      | cons other others => cases hSame
  | cons word words ih =>
      cases others with
      | nil => cases hSame
      | cons other others =>
          rw [List.forall_mem_cons] at hWords hOthers
          have hRest :
              word.toList ++ spaced words =
                other.toList ++ spaced others :=
            (List.cons.inj hSame).2
          have hFirst := congrArg
            (List.takeWhile (· ≠ ' ')) hRest
          rw [takeWhile_spaced hWords.1,
            takeWhile_spaced hOthers.1] at hFirst
          rw [hFirst, List.append_cancel_left_eq] at hRest
          rw [String.toList_inj.mp hFirst,
            ih hWords.2 hOthers.2 hRest]

/-
  What stands behind the last blank can be read off, whatever
  stands before it.
-/
theorem eq_of_append_blank
    {front other last final : List Char}
    (hLast : ' ' ∉ last)
    (hFinal : ' ' ∉ final)
    (hSame : front ++ ' ' :: last = other ++ ' ' :: final) :
    front = other ∧ last = final := by
  rcases List.append_eq_append_iff.mp hSame with
    ⟨middle, rfl, hRest⟩ | ⟨middle, rfl, hRest⟩
  · cases middle with
    | nil =>
        cases hRest
        exact ⟨(List.append_nil _).symm, rfl⟩
    | cons c middle =>
        cases hRest
        simp at hLast
  · cases middle with
    | nil =>
        cases hRest
        exact ⟨List.append_nil _, rfl⟩
    | cons c middle =>
        cases hRest
        simp at hFinal

------------------------------------------------------------
-- Rules with Dots
------------------------------------------------------------

namespace Rule

/-
  The words behind the arrow: the daughters from a position
  on, with the dots before and behind them.
-/
def dottedWords
    (dots : List Nat) :
    Nat → List Symbol → List String
  | position, [] =>
      List.replicate (dots.count position) "."
  | position, symbol :: symbols =>
      List.replicate (dots.count position) "." ++
        symbol :: dottedWords dots (position + 1) symbols

theorem toList_dotsAt
    (dots : List Nat)
    (position : Nat) :
    (dotsAt dots position).toList =
      spaced (List.replicate (dots.count position) ".") := by
  simp [dotsAt, spaced, String.toList_join,
    List.flatMap_replicate]

/- The daughters and dots of a rule are written as words. -/
theorem spaced_dottedWords
    (dots : List Nat)
    (position : Nat)
    (symbols : List Symbol) :
    (String.join
          (symbols.mapIdx (fun i s =>
            dotsAt dots (i + position) ++ " " ++ s)) ++
        dotsAt dots
          (symbols.length + position)).toList =
      spaced (dottedWords dots position symbols) := by
  induction symbols generalizing position with
  | nil =>
      simp [dottedWords, toList_dotsAt]
  | cons symbol symbols ih =>
      have hRest := ih (position + 1)
      simp only [String.toList_append, List.length_cons,
        List.mapIdx_cons, dottedWords, String.toList_join,
        List.flatMap_cons, toList_dotsAt] at hRest ⊢
      simp only [spaced_append, spaced_cons, ← hRest,
        Nat.zero_add, Nat.add_assoc, Nat.add_comm 1,
        List.append_assoc]
      rfl

/- So is the whole rule, if a blank is put before it. -/
theorem spaced_dottedText
    (rule : Rule)
    (dots : List Nat) :
    ' ' :: (rule.dottedText dots).toList =
      spaced
        (rule.lhs :: "->" ::
          dottedWords dots 0 rule.rhs) := by
  have hDaughters := spaced_dottedWords dots 0 rule.rhs
  rw [spaced_cons, spaced_cons, ← hDaughters]
  simp [dottedText, String.toList_append, length]

/- The dots before a daughter end with the daughter. -/
theorem replicate_dot_injective
    {m n : Nat}
    {symbol other : Symbol}
    {words others : List String}
    (hSymbol : symbol ≠ ".")
    (hOther : other ≠ ".")
    (hSame :
      List.replicate m "." ++ symbol :: words =
        List.replicate n "." ++ other :: others) :
    m = n ∧ symbol = other ∧ words = others := by
  induction m generalizing n with
  | zero =>
      cases n with
      | zero =>
          cases hSame
          exact ⟨rfl, rfl, rfl⟩
      | succ n =>
          exact absurd (List.cons.inj hSame).1 hSymbol
  | succ m ih =>
      cases n with
      | zero =>
          exact absurd (List.cons.inj hSame).1.symm hOther
      | succ n =>
          rcases ih (List.cons.inj hSame).2 with
            ⟨rfl, hRest⟩
          exact ⟨rfl, hRest⟩

/- Daughters, and how many dots are where, can be read off. -/
theorem dottedWords_injective
    {dots marks : List Nat}
    {position : Nat}
    {symbols others : List Symbol}
    (hSymbols : "." ∉ symbols)
    (hOthers : "." ∉ others)
    (hSame :
      dottedWords dots position symbols =
        dottedWords marks position others) :
    symbols = others ∧
      ∀ k ≤ symbols.length,
        dots.count (position + k) =
          marks.count (position + k) := by
  induction symbols generalizing position others with
  | nil =>
      cases others with
      | nil =>
          refine ⟨rfl, fun k hk => ?_⟩
          have hLength := congrArg List.length hSame
          simp only [dottedWords, List.length_replicate]
            at hLength
          rwa [Nat.le_zero.mp hk]
      | cons other others =>
          have hMember :
              other ∈ dottedWords dots position [] := by
            rw [hSame]
            simp [dottedWords]
          rw [List.eq_of_mem_replicate hMember] at hOthers
          exact absurd List.mem_cons_self hOthers
  | cons symbol symbols ih =>
      rw [List.mem_cons, not_or] at hSymbols
      cases others with
      | nil =>
          have hMember :
              symbol ∈ dottedWords marks position [] := by
            rw [← hSame]
            simp [dottedWords]
          exact absurd
            (List.eq_of_mem_replicate hMember).symm
            hSymbols.1
      | cons other others =>
          rw [List.mem_cons, not_or] at hOthers
          rcases replicate_dot_injective
              (Ne.symm hSymbols.1) (Ne.symm hOthers.1)
              hSame with
            ⟨hCount, rfl, hRest⟩
          rcases ih hSymbols.2 hOthers.2 hRest with
            ⟨rfl, hCounts⟩
          refine ⟨rfl, fun k hk => ?_⟩
          cases k with
          | zero => exact hCount
          | succ k =>
              have hLater := hCounts k
                (Nat.le_of_succ_le_succ hk)
              rwa [Nat.add_assoc, Nat.add_comm 1] at hLater

/- The dots are in order and none stands behind the rule. -/
structure Fits
    (rule : Rule)
    (dots : List Nat) : Prop where
  sorted : dots.Pairwise (· ≤ ·)
  le_length : ∀ dot ∈ dots, dot ≤ rule.length

/- Dots in order are told by how many of them are where. -/
theorem Fits.eq_of_count
    {rule : Rule}
    {dots marks : List Nat}
    (hDots : rule.Fits dots)
    (hMarks : rule.Fits marks)
    (hCounts : ∀ k ≤ rule.length,
      dots.count k = marks.count k) :
    dots = marks := by
  have hPerm : dots.Perm marks := by
    rw [List.perm_iff_count]
    intro k
    rcases Nat.lt_or_ge rule.length k with hBehind | hInside
    · rw [List.count_eq_zero_of_not_mem
          (fun hDot => Nat.not_le_of_lt hBehind
            (hDots.le_length k hDot)),
        List.count_eq_zero_of_not_mem
          (fun hDot => Nat.not_le_of_lt hBehind
            (hMarks.le_length k hDot))]
    · exact hCounts k hInside
  exact hPerm.eq_of_pairwise
    (fun _ _ _ _ => Nat.le_antisymm) hDots.sorted
    hMarks.sorted

end Rule

------------------------------------------------------------
-- Names
------------------------------------------------------------

/- A name has only characters of names. -/
theorem IsName.not_mem
    {symbol : Symbol}
    (hName : IsName symbol)
    {c : Char}
    (hOther : isNameChar c = false) :
    c ∉ symbol.toList := by
  intro hMember
  have hLetter := List.all_eq_true.mp hName.2 c hMember
  rw [hOther] at hLetter
  cases hLetter

/- All symbols of the rule are names. -/
structure Rule.IsNamed
    (rule : Rule) : Prop where
  lhs : IsName rule.lhs
  rhs : ∀ symbol ∈ rule.rhs, IsName symbol

theorem Grammar.HasNames.isNamed
    {G : Grammar}
    (hNames : G.HasNames)
    (r : G.RuleId) :
    (G.rule r).IsNamed :=
  ⟨hNames.lhs r, hNames.rhs r⟩

/- A dot is no name. -/
theorem not_mem_of_isName
    {symbols : List Symbol}
    (hNames : ∀ symbol ∈ symbols, IsName symbol) :
    "." ∉ symbols :=
  fun hMember => absurd (hNames _ hMember) (by decide)

namespace Rule

/- A printed rule is read back. -/
theorem readSpecs_text
    {rule : Rule}
    (hNamed : rule.IsNamed) :
    readSpecs rule.text = .ok [rule.spec] := by
  have hTrees : ∀ clause ∈ [rule.clause],
      clause.HasNames :=
    List.forall_mem_singleton.mpr
      (hasNames_clause hNamed.lhs hNamed.rhs)
  have hRead := Clause.begins_separated hTrees
    (List.forall_mem_nil _) (List.cons_ne_nil _ _)
  have hSplits :
      Splits rule.text
        (RuleTable.ofClauses [rule.clause]).lexemes := by
    apply Begins.splits
    simpa [toList_text] using hRead
  rw [readSpecs_of_splits hSplits,
    RuleTable.specs_ofClauses, List.flatMap_singleton,
    specs_clause]

/- So rules over names are told by their texts. -/
theorem eq_of_text_eq
    {rule other : Rule}
    (hNamed : rule.IsNamed)
    (hOther : other.IsNamed)
    (hText : rule.text = other.text) :
    rule = other := by
  have hRead := readSpecs_text hNamed
  rw [hText, readSpecs_text hOther] at hRead
  have hSpec := (List.cons.inj (Except.ok.inj hRead)).1
  rw [← rule.ofSpec_spec, ← other.ofSpec_spec, hSpec]

/- Words of rules over names hold no blanks. -/
theorem not_mem_dottedWords
    (dots : List Nat)
    (position : Nat)
    {symbols : List Symbol}
    (hNames : ∀ symbol ∈ symbols, IsName symbol) :
    ∀ word ∈ dottedWords dots position symbols,
      ' ' ∉ word.toList := by
  have hDots : ∀ n, ∀ word ∈ List.replicate n ".",
      ' ' ∉ word.toList := by
    intro n word hWord
    rw [List.eq_of_mem_replicate hWord]
    decide
  induction symbols generalizing position with
  | nil => exact hDots _
  | cons symbol symbols ih =>
      rw [List.forall_mem_cons] at hNames
      rw [dottedWords, List.forall_mem_append,
        List.forall_mem_cons]
      exact ⟨hDots _, hNames.1.not_mem (by decide),
        ih (position + 1) hNames.2⟩

/-
  Rules with dots are told by their texts: the symbols of
  the rule and the places of the dots can be read off.
-/
theorem eq_of_dottedText_eq
    {rule other : Rule}
    {dots marks : List Nat}
    (hNamed : rule.IsNamed)
    (hOther : other.IsNamed)
    (hDots : rule.Fits dots)
    (hMarks : other.Fits marks)
    (hText : rule.dottedText dots = other.dottedText marks) :
    rule.lhs = other.lhs ∧ rule.rhs = other.rhs ∧
      dots = marks := by
  have hWords :
      spaced (rule.lhs :: "->" ::
          dottedWords dots 0 rule.rhs) =
        spaced (other.lhs :: "->" ::
          dottedWords marks 0 other.rhs) := by
    rw [← spaced_dottedText, ← spaced_dottedText, hText]
  have hBlanks :
      ∀ {rule : Rule} (dots : List Nat), rule.IsNamed →
        ∀ word ∈ rule.lhs :: "->" ::
            dottedWords dots 0 rule.rhs,
          ' ' ∉ word.toList := by
    intro rule dots hNamed
    rw [List.forall_mem_cons, List.forall_mem_cons]
    exact ⟨hNamed.lhs.not_mem (by decide), by decide,
      not_mem_dottedWords dots 0 hNamed.rhs⟩
  have hSame := spaced_injective (hBlanks dots hNamed)
    (hBlanks marks hOther) hWords
  rcases List.cons.inj hSame with ⟨hLhs, hTail⟩
  rcases dottedWords_injective
      (not_mem_of_isName hNamed.rhs)
      (not_mem_of_isName hOther.rhs)
      (List.cons.inj hTail).2 with
    ⟨hRhs, hCounts⟩
  refine ⟨hLhs, hRhs, ?_⟩
  have hFits : rule.Fits marks := by
    refine ⟨hMarks.sorted, fun dot hDot => ?_⟩
    rw [length, hRhs]
    exact hMarks.le_length dot hDot
  apply hDots.eq_of_count hFits
  intro k hk
  simpa using hCounts k hk

/- Such a text begins like a name. -/
theorem head_dottedText
    {rule : Rule}
    (hNamed : rule.IsNamed)
    (dots : List Nat) :
    ∃ c, (rule.dottedText dots).toList.head? = some c ∧
      isNameChar c = true := by
  rcases hNamed.lhs with ⟨hSome, hLetters⟩
  rcases List.exists_cons_of_ne_nil
      (mt String.toList_eq_nil_iff.mp hSome) with
    ⟨c, letters, hLhs⟩
  rw [hLhs, List.all_cons, Bool.and_eq_true] at hLetters
  refine ⟨c, ?_, hLetters.1⟩
  simp [dottedText, String.toList_append, hLhs]

end Rule

------------------------------------------------------------
-- Labels
------------------------------------------------------------

namespace ItemKey

variable {G : Grammar}

/- What is written before the span. -/
def label : ItemKey G → String
  | .single rule dot _ => (G.rule rule).dottedText [dot]
  | .double rule left right _ =>
      (G.rule rule).dottedText [left, right]
  | .goal symbol _ => "?" ++ symbol
  | .completed rule _ => "<" ++ (G.rule rule).text ++ ">"

theorem toList_text
    (key : ItemKey G) :
    key.text.toList =
      key.label.toList ++ ' ' :: key.span.text.toList := by
  cases key <;>
    simp [text, label, ItemKey.span, String.toList_append]

variable {key other : ItemKey G}

/- Label and span can be read off. -/
theorem label_span_of_text_eq
    (hText : key.text = other.text) :
    key.label = other.label ∧ key.span = other.span := by
  have hChars := congrArg String.toList hText
  rw [toList_text, toList_text] at hChars
  rcases eq_of_append_blank key.span.not_mem_text
      other.span.not_mem_text hChars with
    ⟨hLabel, hSpan⟩
  exact ⟨String.toList_inj.mp hLabel,
    Span.text_injective (String.toList_inj.mp hSpan)⟩

/-
  The sign in front of a label that tells its kind. Items
  with dots have none.
-/
def sign : ItemKey G → Option Char
  | .single _ _ _ => none
  | .double _ _ _ _ => none
  | .goal _ _ => some '?'
  | .completed _ _ => some '<'

/- A sign is a first character that is in no name. -/
theorem sign_eq
    (hNames : G.HasNames)
    (key : ItemKey G) :
    key.sign =
      key.label.toList.head?.filter (!isNameChar ·) := by
  have hDotted : ∀ (r : G.RuleId) (dots : List Nat),
      none =
        ((G.rule r).dottedText dots).toList.head?.filter
          (!isNameChar ·) := by
    intro r dots
    rcases Rule.head_dottedText (hNames.isNamed r) dots with
      ⟨c, hHead, hLetter⟩
    rw [hHead, Option.filter_some, hLetter]
    rfl
  cases key with
  | single r dot span => exact hDotted r [dot]
  | double r left right span => exact hDotted r [left, right]
  | goal symbol span =>
      rw [label, sign, String.toList_append]
      rfl
  | completed r span =>
      rw [label, sign, String.toList_append,
        String.toList_append]
      rfl

/- The dots of well-formed keys fit their rules. -/
theorem WellFormed.fits_single
    {r : G.RuleId}
    {dot : Nat}
    {span : Span}
    (hKey : (single r dot span).WellFormed) :
    (G.rule r).Fits [dot] := by
  rcases span with ⟨i, j⟩
  rw [wellFormed_single_iff] at hKey
  exact ⟨List.pairwise_singleton _ _, by simpa using hKey.2⟩

theorem WellFormed.fits_double
    {r : G.RuleId}
    {left right : Nat}
    {span : Span}
    (hKey : (double r left right span).WellFormed) :
    (G.rule r).Fits [left, right] := by
  rcases span with ⟨i, j⟩
  rw [wellFormed_double_iff] at hKey
  refine ⟨List.pairwise_pair.mpr hKey.2.1, ?_⟩
  intro dot hDot
  simp only [List.mem_cons, List.not_mem_nil, or_false]
    at hDot
  omega

/-
  Keys with the same label and span are the same. The sign
  leaves the kinds that agree on it; among those with dots,
  the number of dots tells the kind.
-/
theorem eq_of_label_span_eq
    (hNames : G.HasNames)
    (hRules : ∀ r s : G.RuleId,
      (G.rule r).lhs = (G.rule s).lhs →
        (G.rule r).rhs = (G.rule s).rhs → r = s)
    (hKey : key.WellFormed)
    (hOther : other.WellFormed)
    (hLabel : key.label = other.label)
    (hSpan : key.span = other.span) :
    key = other := by
  have hSign : key.sign = other.sign := by
    rw [sign_eq hNames, sign_eq hNames, hLabel]
  have hDotted :
      ∀ {r s : G.RuleId} {dots marks : List Nat},
        (G.rule r).Fits dots → (G.rule s).Fits marks →
          (G.rule r).dottedText dots =
              (G.rule s).dottedText marks →
            r = s ∧ dots = marks := by
    intro r s dots marks hDots hMarks hText
    rcases Rule.eq_of_dottedText_eq (hNames.isNamed r)
        (hNames.isNamed s) hDots hMarks hText with
      ⟨hLhs, hRhs, hSame⟩
    exact ⟨hRules r s hLhs hRhs, hSame⟩
  cases key with
  | single r dot span =>
      cases other with
      | single s mark final =>
          rcases hDotted hKey.fits_single hOther.fits_single
              hLabel with
            ⟨rfl, hSame⟩
          cases hSame
          cases hSpan
          rfl
      | double s left right final =>
          rcases hDotted hKey.fits_single hOther.fits_double
              hLabel with
            ⟨_, hSame⟩
          cases hSame
      | goal symbol final => cases hSign
      | completed s final => cases hSign
  | double r left right span =>
      cases other with
      | single s mark final =>
          rcases hDotted hKey.fits_double hOther.fits_single
              hLabel with
            ⟨_, hSame⟩
          cases hSame
      | double s left' right' final =>
          rcases hDotted hKey.fits_double hOther.fits_double
              hLabel with
            ⟨rfl, hSame⟩
          cases hSame
          cases hSpan
          rfl
      | goal symbol final => cases hSign
      | completed s final => cases hSign
  | goal symbol span =>
      cases other with
      | goal wanted final =>
          cases (String.append_right_inj "?").mp hLabel
          cases hSpan
          rfl
      | _ => cases hSign
  | completed r span =>
      cases other with
      | completed s final =>
          have hText :
              (G.rule r).text = (G.rule s).text := by
            have hChars := congrArg String.toList hLabel
            simpa [label, String.toList_append,
              String.toList_inj] using hChars
          have hRule := Rule.eq_of_text_eq
            (hNames.isNamed r) (hNames.isNamed s) hText
          cases hRules r s (congrArg Rule.lhs hRule)
            (congrArg Rule.rhs hRule)
          cases hSpan
          rfl
      | _ => cases hSign

end ItemKey

------------------------------------------------------------
-- Printed Items
------------------------------------------------------------

namespace Grammar

/-
  If all symbols of a grammar are names and no two rules
  have the same symbols, items are told by their texts: two
  of them are written alike exactly when they have the same
  key.
-/
theorem text_eq_iff_key_eq
    {G : Grammar}
    (hNames : G.HasNames)
    (hRules : ∀ r s : G.RuleId,
      (G.rule r).lhs = (G.rule s).lhs →
        (G.rule r).rhs = (G.rule s).rhs → r = s)
    {x y : Item G}
    (hx : x.key.WellFormed)
    (hy : y.key.WellFormed) :
    x.text = y.text ↔ x.key = y.key := by
  constructor
  · intro hText
    rcases ItemKey.label_span_of_text_eq hText with
      ⟨hLabel, hSpan⟩
    exact ItemKey.eq_of_label_span_eq hNames hRules hx hy
      hLabel hSpan
  · intro hKey
    exact congrArg ItemKey.text hKey

/-
  Two dots in one place are written twice, so that they are
  not taken for one.
-/
theorem tagged_texts :
    let one : Item tagged :=
      ⟨.single ⟨1, by decide⟩ 0 ⟨2, 2⟩, []⟩
    let two : Item tagged :=
      ⟨.double ⟨1, by decide⟩ 0 0 ⟨2, 2⟩, []⟩
    one.text = "NP -> . [2,2)" ∧
      two.text = "NP -> . . [2,2)" ∧
        (one.text = two.text ↔ one.key = two.key) ∧
          ∀ children, one.text =
            Item.text ⟨one.key, children⟩ := by
  intro one two
  have hNames : tagged.HasNames := by
    constructor <;> decide +kernel
  have hRules : ∀ r s : tagged.RuleId,
      (tagged.rule r).lhs = (tagged.rule s).lhs →
        (tagged.rule r).rhs = (tagged.rule s).rhs →
          r = s := by
    decide
  have hOne : one.key.WellFormed := by simp [one]
  have hTwo : two.key.WellFormed := by simp [two]
  refine ⟨by decide +kernel, by decide +kernel,
    text_eq_iff_key_eq hNames hRules hOne hTwo, ?_⟩
  intro children
  exact (text_eq_iff_key_eq hNames hRules hOne hOne).mpr rfl

end Grammar

end Constituency
