import Constituency.Parse.Parser
import Constituency.Proofs.Derivation.Yield
import Constituency.Proofs.Pattern.Repetition
import Constituency.Proofs.Text.Spacing

/-
  This file says which words the default token pattern finds
  in a text: the runs of characters that are not blank. So a
  parser that is given words with blanks around them parses
  just these words.

  Key definitions include:
    * `Text.isNonblank`

  Main declarations:
    * `Pattern.ofString?_default`
    * `Parser.exists_ofConfig_iff`
    * `Parser.tokenize_default`
    * `Parser.tokenize_exact`
    * `Parser.repeated_tokens`
-/

namespace Constituency

/- Words are made of all characters but blanks. -/
def Text.isNonblank
    (c : Char) : Bool :=
  !Text.isBlank c

/- The default pattern: one or more characters not blank. -/
theorem Pattern.ofString?_default :
    Pattern.ofString? Config.default.tokenPattern =
      some ⟨.ofExpr (.oneOrMore (.complement .blank))⟩ :=
  rfl

namespace Parser

variable {G : Grammar} {config : Config}

/- With the default pattern only the start symbol matters. -/
theorem exists_ofConfig_iff
    (hPattern :
      config.tokenPattern = Config.default.tokenPattern) :
    (∃ parser, ofConfig G config = .ok parser) ↔
      G.isNonterminal (config.start.getD G.start) = true := by
  unfold ofConfig
  rw [hPattern, Pattern.ofString?_default]
  by_cases hStart :
      G.isNonterminal (config.start.getD G.start) = true <;>
    simp [hStart]

/- The words found by default are the runs of nonblanks. -/
theorem tokenize_default
    (hPattern :
      config.tokenPattern = Config.default.tokenPattern)
    {parser : Parser G}
    (hParser : ofConfig G config = .ok parser)
    (text : String) :
    parser.tokenize text =
      (Text.runs Text.isNonblank text.toList).map
        String.ofList := by
  have hProgram :
      parser.pattern =
        ⟨.ofExpr (.oneOrMore (.complement .blank))⟩ := by
    simp only [ofConfig, hPattern,
      Pattern.ofString?_default] at hParser
    split at hParser
    · cases hParser
      rfl
    · cases hParser
  have hClass :
      (CharClass.complement .blank).contains =
        Text.isNonblank :=
    funext fun _ => rfl
  rw [tokenize, hProgram, Pattern.words, Program.words,
    Program.wordsFrom_oneOrMore, hClass]

/-
  A parser with the default token pattern finds in a text
  the runs of characters that are not blank, from left to
  right. In a text that is made of words with blanks around
  them it finds the words, and parses them.
-/
theorem tokenize_exact
    (hPattern :
      config.tokenPattern = Config.default.tokenPattern) :
    ((∃ parser, ofConfig G config = .ok parser) ↔
      G.isNonterminal (config.start.getD G.start) = true) ∧
    ∀ parser, ofConfig G config = .ok parser →
      (∀ text : String, ∃ spans,
        Text.AreRuns Text.isNonblank text.toList spans ∧
        parser.tokenize text =
          spans.map (fun span => String.ofList
            (text.toList.extract span.start span.stop))) ∧
      ∀ (words : List Symbol)
        (spacing :
          Text.Spacing Text.isNonblank words.length),
        (∀ word ∈ words, Text.IsWord Text.isNonblank word) →
          parser.tokenize (spacing.text words) = words ∧
            parser.parseText (spacing.text words) =
              parser.parse words := by
  refine ⟨exists_ofConfig_iff hPattern, ?_⟩
  intro parser hParser
  have hTokens := tokenize_default hPattern hParser
  refine ⟨?_, ?_⟩
  · intro text
    rcases Text.exists_areRuns Text.isNonblank text.toList with
      ⟨spans, hRuns, hTexts⟩
    refine ⟨spans, hRuns, ?_⟩
    rw [hTokens, hTexts, List.map_map]
    rfl
  · intro words spacing hWords
    have hWhole : parser.tokenize (spacing.text words) =
        words := by
      rw [hTokens, spacing.runs_text hWords, List.map_map]
      simp [Function.comp_def]
    refine ⟨hWhole, ?_⟩
    rw [parseText, hWhole]

/-
  Two words between a no-break space, an em space followed
  by a plain one, and the end of a line.
-/
theorem repeated_tokens :
    let text := "\u00a0b\u2003 bé\n"
    ∃ parser,
      ofConfig Grammar.repeated Config.default = .ok parser ∧
      (∃ spans,
        Text.AreRuns Text.isNonblank text.toList spans ∧
        parser.tokenize text =
          spans.map (fun span => String.ofList
            (text.toList.extract span.start span.stop))) ∧
      parser.tokenize text = ["b", "bé"] ∧
      parser.parseText text = parser.parse ["b", "bé"] := by
  intro text
  rcases tokenize_exact (G := Grammar.repeated) rfl with
    ⟨hExists, hParsers⟩
  rcases hExists.mpr (by decide) with ⟨parser, hParser⟩
  rcases hParsers parser hParser with ⟨hRuns, hSpaced⟩
  let spacing : Text.Spacing Text.isNonblank 2 :=
    ⟨["\u00a0", "\u2003 "], "\n", rfl, by decide +kernel,
      by decide +kernel, by decide⟩
  have hWords : ∀ word ∈ ["b", "bé"],
      Text.IsWord Text.isNonblank word := by decide +kernel
  rcases hSpaced ["b", "bé"] spacing hWords with
    ⟨hTokens, hParse⟩
  exact ⟨parser, hParser, hRuns text, hTokens, hParse⟩

end Parser

end Constituency
