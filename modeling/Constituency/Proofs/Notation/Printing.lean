import Constituency.Grammar.Printer
import Constituency.Proofs.Notation.Acceptance
import Mathlib.Data.List.Nodup

/-
  This file shows that printed rule tables are read back.
  The lexemes of a printed table are those of a syntax tree
  that has one clause for each rule, and this tree writes
  down the rules with their heads.

  Key definitions include:
    * `Begins`
    * `Member.printed`
    * `Clause.printed`
    * `Clause.HasNames`
    * `RuleTable.ofClauses`
    * `IsName`
    * `Rule.isMarked`
    * `Rule.spec`
    * `Rule.clause`
    * `Grammar.HasNames`
    * `Grammar.table`

  Main declarations:
    * `Begins.lexeme`
    * `Clause.begins_separated`
    * `Rule.toList_text`
    * `Rule.ofSpec_spec`
    * `Grammar.splits_text`
    * `Grammar.ofText_text`
    * `Grammar.ofText_text_tagged`
-/

namespace Constituency

namespace Notation

------------------------------------------------------------
-- Splitting the Beginning of a Text
------------------------------------------------------------

/- Splitting can be cut in two anywhere between tokens. -/
theorem Lexes.append
    {position : Nat}
    {text middle rest : List Char}
    {front back : List Token}
    (hFront : Lexes position text front middle)
    (hBack :
      Lexes (stopAfter position front) middle back rest) :
    Lexes position text (front ++ back) rest := by
  induction hFront with
  | done position text => exact hBack
  | token hLexeme hStart hTokens ih =>
      exact .token hLexeme hStart (ih hBack)

/- Names hold no blanks. -/
theorem isBlank_of_isNameChar
    {c : Char}
    (hLetter : isNameChar c = true) :
    Text.isBlank c = false := by
  -- Letters and digits are ranges of code points, none of
  -- which meets a range of blanks.
  change (((decide (65 ≤ c.val ∧ c.val ≤ 90) ||
    (decide (97 ≤ c.val) && decide (c.val ≤ 122))) ||
    (decide (48 ≤ c.val) && decide (c.val ≤ 57))) ||
    c == '_') = true at hLetter
  simp only [Bool.or_eq_true, Bool.and_eq_true,
    decide_eq_true_eq, beq_iff_eq] at hLetter
  change (((65 ≤ c.toNat ∧ c.toNat ≤ 90) ∨
    (97 ≤ c.toNat ∧ c.toNat ≤ 122)) ∨
    (48 ≤ c.toNat ∧ c.toNat ≤ 57)) ∨ c = '_' at hLetter
  simp only [Text.isBlank, Text.inRanges, Text.blankRanges,
    List.any_cons, List.any_nil, Bool.or_eq_false_iff,
    Bool.and_eq_false_iff, decide_eq_false_iff_not,
    and_true]
  rcases hLetter with hLetter | rfl
  · omega
  · decide

/- No lexeme starts with a blank. -/
theorem Lexeme.isBlank_of_ofChars?
    {c : Char}
    {text : List Char}
    {lexeme : Lexeme}
    (hRead : Lexeme.ofChars? (c :: text) = some lexeme) :
    Text.isBlank c = false := by
  unfold ofChars? at hRead
  split at hRead <;> rename_i hText <;> cases hText
  · decide
  · decide
  · decide
  · decide
  · decide
  · split at hRead
    · exact isBlank_of_isNameChar ‹_›
    · cases hRead

/- A lexeme is read where no letter goes on after it. -/
theorem Lexeme.ofChars?_append
    {lexeme : Lexeme}
    (hLexeme : lexeme.WellFormed)
    {rest : List Char}
    (hRest : rest.takeWhile isNameChar = []) :
    Lexeme.ofChars? (lexeme.chars ++ rest) =
      some lexeme := by
  cases lexeme with
  | quoted content => exact ofChars?_quoted hLexeme rest
  | name letters =>
      rw [ofChars?_name hLexeme rest, hRest, List.append_nil]
  | _ => rfl

/-
  Wherever the text stands, splitting it begins with these
  lexemes and goes on with the rest.
-/
def Begins
    (text : List Char)
    (lexemes : List Lexeme)
    (rest : List Char) : Prop :=
  ∀ position, ∃ tokens,
    Lexes position text tokens rest ∧
      tokens.map Token.lexeme = lexemes

namespace Begins

variable {text middle rest : List Char}
variable {front back : List Lexeme}

theorem nil
    (text : List Char) :
    Begins text [] text :=
  fun position => ⟨[], .done position text, rfl⟩

theorem append
    (hFront : Begins text front middle)
    (hBack : Begins middle back rest) :
    Begins text (front ++ back) rest := by
  intro position
  rcases hFront position with ⟨first, hFirst, rfl⟩
  rcases hBack (stopAfter position first) with
    ⟨second, hSecond, rfl⟩
  exact ⟨first ++ second, hFirst.append hSecond,
    List.map_append⟩

/-
  A lexeme can stand behind blanks, and it ends where no
  letter follows.
-/
theorem lexeme
    {blanks : List Char}
    (hBlanks : ∀ c ∈ blanks, Text.isBlank c = true)
    {lexeme : Lexeme}
    (hLexeme : lexeme.WellFormed)
    (hRest : rest.takeWhile isNameChar = []) :
    Begins (blanks ++ (lexeme.chars ++ rest)) [lexeme]
      rest := by
  have hRead := Lexeme.ofChars?_append hLexeme hRest
  have hAfter :
      afterBlanks (blanks ++ (lexeme.chars ++ rest)) =
        lexeme.chars ++ rest := by
    unfold afterBlanks
    rw [List.dropWhile_append_of_pos hBlanks]
    rcases List.exists_cons_of_ne_nil
        (Lexeme.chars_ne_nil_of_ofChars? hRead) with
      ⟨c, chars, hChars⟩
    rw [hChars, List.cons_append] at hRead ⊢
    rw [List.dropWhile_cons_of_neg]
    simp [Lexeme.isBlank_of_ofChars? hRead]
  intro position
  let token : Token := ⟨lexeme, position +
    byteLength (leadingBlanks
      (blanks ++ (lexeme.chars ++ rest)))⟩
  have hLongest : token.lexeme.IsLongest
      (afterBlanks (blanks ++ (lexeme.chars ++ rest))) := by
    rw [hAfter]
    exact Lexeme.ofChars?_eq_some_iff.mp hRead
  refine ⟨[token], .token hLongest rfl ?_, rfl⟩
  rw [hAfter, List.drop_left]
  exact .done _ rest

theorem splits
    {text : String}
    {lexemes : List Lexeme}
    (hText : Begins text.toList lexemes []) :
    Splits text lexemes := by
  rcases hText 0 with ⟨tokens, hTokens, hLexemes⟩
  exact ⟨tokens, [], hTokens, rfl, hLexemes⟩

end Begins

------------------------------------------------------------
-- Printed Syntax Trees
------------------------------------------------------------

/- A symbol behind a blank, with its mark right after it. -/
def Member.printed
    (member : Member) : List Char :=
  ' ' :: member.lexemes.flatMap Lexeme.chars

/- A single space is made of blanks. -/
theorem isBlank_of_mem_space :
    ∀ c ∈ [' '], Text.isBlank c = true :=
  List.forall_mem_singleton.mpr (by decide)

/- A blank is no letter. -/
theorem Member.takeWhile_printed
    (member : Member)
    (rest : List Char) :
    (member.printed ++ rest).takeWhile isNameChar = [] :=
  rfl

theorem Member.begins_printed
    {member : Member}
    (hTerm : member.term.lexeme.WellFormed)
    {rest : List Char}
    (hRest : rest.takeWhile isNameChar = []) :
    Begins (member.printed ++ rest) member.lexemes rest := by
  rcases member with ⟨term, marked⟩
  cases marked with
  | false =>
      have hRead :=
        Begins.lexeme isBlank_of_mem_space hTerm hRest
      simpa [printed, lexemes] using hRead
  | true =>
      have hStar :
          Begins ([] ++ (Lexeme.star.chars ++ rest)) [.star]
            rest :=
        .lexeme (by simp) trivial hRest
      have hRead :=
        (Begins.lexeme isBlank_of_mem_space hTerm
          rfl).append hStar
      simpa [printed, lexemes] using hRead

/- The symbols of a row one after the other. -/
theorem Row.begins_printed
    {row : Row}
    (hTerms : ∀ member ∈ row, member.term.lexeme.WellFormed)
    {rest : List Char}
    (hRest : rest.takeWhile isNameChar = []) :
    (row.flatMap Member.printed ++ rest).takeWhile
        isNameChar = [] ∧
      Begins (row.flatMap Member.printed ++ rest)
        row.lexemes rest := by
  induction row with
  | nil => exact ⟨hRest, .nil rest⟩
  | cons member row ih =>
      rcases ih (fun other hOther =>
        hTerms other (List.mem_cons_of_mem _ hOther)) with
        ⟨hNext, hRow⟩
      have hMember := Member.begins_printed
        (hTerms member List.mem_cons_self) hNext
      rw [List.flatMap_cons, List.append_assoc]
      exact ⟨member.takeWhile_printed _,
        hMember.append hRow⟩

/-
  A left-hand side and the one row of its alternative, on
  one line.
-/
def Clause.printed
    (clause : Clause) : List Char :=
  clause.lhs ++ (" ->".toList ++
    clause.first.flatMap Member.printed)

/- What is written are names. -/
structure Clause.HasNames
    (clause : Clause) : Prop where
  lhs : (Lexeme.name clause.lhs).WellFormed
  first : ∀ member ∈ clause.first,
    member.term.lexeme.WellFormed
  others : clause.others = []

/- A clause can stand behind blanks. -/
theorem Clause.begins_printed
    {clause : Clause}
    (hNames : clause.HasNames)
    {blanks rest : List Char}
    (hBlanks : ∀ c ∈ blanks, Text.isBlank c = true)
    (hRest : rest.takeWhile isNameChar = []) :
    Begins (blanks ++ (clause.printed ++ rest))
      clause.lexemes rest := by
  rcases clause with ⟨lhs, first, others⟩
  rcases hNames with ⟨hLhs, hFirst, rfl⟩
  rcases Row.begins_printed hFirst hRest with ⟨hNext, hRow⟩
  have hArrow :
      Begins
        ([' '] ++ (Lexeme.arrow.chars ++
          (first.flatMap Member.printed ++ rest)))
        [.arrow] (first.flatMap Member.printed ++ rest) :=
    .lexeme isBlank_of_mem_space trivial hNext
  have hRead :=
    ((Begins.lexeme hBlanks hLhs rfl).append hArrow).append
      hRow
  simpa [printed, lexemes, Lexeme.chars] using hRead

/- The table in which no `;` follows the last clause. -/
def RuleTable.ofClauses
    (clauses : List Clause) : RuleTable :=
  ⟨clauses.dropLast, clauses.getLast?⟩

/- It writes down the alternatives of all clauses. -/
theorem RuleTable.specs_ofClauses
    (clauses : List Clause) :
    (RuleTable.ofClauses clauses).specs =
      clauses.flatMap Clause.specs := by
  simp only [specs, ofClauses, ← List.flatMap_append]
  congr
  cases hLast : clauses.getLast? with
  | none => simp [List.getLast?_eq_none_iff.mp hLast]
  | some clause =>
      exact List.dropLast_append_getLast? clause hLast

/- Clauses between which `; ` stands, behind blanks. -/
theorem Clause.begins_separated
    {clauses : List Clause}
    (hNames : ∀ clause ∈ clauses, clause.HasNames)
    {blanks : List Char}
    (hBlanks : ∀ c ∈ blanks, Text.isBlank c = true)
    (hSome : clauses ≠ []) :
    Begins
      (blanks ++
        [';', ' '].intercalate (clauses.map Clause.printed))
      (RuleTable.ofClauses clauses).lexemes [] := by
  induction clauses generalizing blanks with
  | nil => exact absurd rfl hSome
  | cons clause clauses ih =>
      have hClause := hNames clause List.mem_cons_self
      cases clauses with
      | nil =>
          have hRead :=
            clause.begins_printed hClause hBlanks
              List.takeWhile_nil
          simpa [RuleTable.lexemes, RuleTable.ofClauses,
            closedLexemes] using hRead
      | cons next others =>
          have hOthers :=
            ih (fun other hOther =>
                hNames other (List.mem_cons_of_mem _ hOther))
              isBlank_of_mem_space (List.cons_ne_nil _ _)
          have hSeparator :
              Begins
                ([] ++ (Lexeme.semicolon.chars ++
                  ([' '] ++ [';', ' '].intercalate
                    ((next :: others).map
                      Clause.printed))))
                [.semicolon] _ :=
            .lexeme (by simp) trivial rfl
          have hRead :=
            ((clause.begins_printed hClause hBlanks
              rfl).append hSeparator).append hOthers
          simpa [RuleTable.lexemes, RuleTable.ofClauses,
            closedLexemes, Lexeme.chars] using hRead

end Notation

------------------------------------------------------------
-- Printed Rules
------------------------------------------------------------

open Notation

/- The symbol is made of ASCII letters, digits and `_`. -/
def IsName
    (symbol : Symbol) : Prop :=
  symbol ≠ "" ∧ symbol.toList.all isNameChar = true

instance (symbol : Symbol) : Decidable (IsName symbol) :=
  inferInstanceAs (Decidable (_ ∧ _))

namespace Rule

/- The mark is printed for the head of several daughters. -/
def isMarked
    (rule : Rule)
    (position : Nat) : Bool :=
  rule.head = some position ∧ 1 < rule.length

/- What is written when the rule is printed. -/
def spec
    (rule : Rule) : RuleSpec :=
  ⟨rule.lhs,
    rule.rhs.mapIdx (fun i s => (s, rule.isMarked i))⟩

/- The syntax tree of the rule as it is printed. -/
def clause
    (rule : Rule) : Clause :=
  ⟨rule.lhs.toList,
    rule.rhs.mapIdx
      (fun i s => ⟨.name s.toList, rule.isMarked i⟩), []⟩

/- The tree writes down what is written. -/
theorem specs_clause
    (rule : Rule) :
    rule.clause.specs = [rule.spec] := by
  simp [clause, spec, Clause.specs, Row.spec, Member.entry,
    Term.symbol, List.mapIdx_eq_zipIdx_map,
    Function.comp_def]

theorem toList_daughterText
    (rule : Rule)
    (position : Nat)
    (symbol : Symbol) :
    (rule.daughterText position symbol).toList =
      (Member.mk (.name symbol.toList)
        (rule.isMarked position)).printed := by
  unfold daughterText
  split
  · rename_i hMarked
    have hMark : rule.isMarked position = true :=
      decide_eq_true hMarked
    simp [Member.printed, Member.lexemes, Term.lexeme,
      Lexeme.chars, hMark, String.toList_append]
  · rename_i hMarked
    have hMark : rule.isMarked position = false :=
      decide_eq_false hMarked
    simp [Member.printed, Member.lexemes, Term.lexeme,
      Lexeme.chars, hMark, String.toList_append]

/- The text of the rule is that of the tree. -/
theorem toList_text
    (rule : Rule) :
    rule.text.toList = rule.clause.printed := by
  simp [text, clause, Clause.printed, String.toList_append,
    String.toList_join, List.mapIdx_eq_zipIdx_map,
    List.flatMap_map, toList_daughterText]

end Rule

/- All symbols of the grammar are names. -/
structure Grammar.HasNames
    (G : Grammar) : Prop where
  lhs : ∀ r : G.RuleId, IsName (G.rule r).lhs
  rhs : ∀ r : G.RuleId, ∀ symbol ∈ (G.rule r).rhs,
    IsName symbol

/- A name is written as it is. -/
theorem IsName.wellFormed
    {symbol : Symbol}
    (hName : IsName symbol) :
    (Lexeme.name symbol.toList).WellFormed :=
  ⟨fun hNone => hName.1 (String.toList_eq_nil_iff.mp hNone),
    List.all_eq_true.mp hName.2⟩

/- The tree of a rule over names holds names. -/
theorem Rule.hasNames_clause
    {rule : Rule}
    (hLhs : IsName rule.lhs)
    (hRhs : ∀ symbol ∈ rule.rhs, IsName symbol) :
    rule.clause.HasNames where
  lhs := hLhs.wellFormed
  first := by
    intro member hMember
    rcases List.mem_mapIdx.mp hMember with ⟨i, hi, rfl⟩
    exact (hRhs _ (List.getElem_mem hi)).wellFormed
  others := rfl

namespace Rule

variable (rule : Rule)

theorem getElem_rhs_spec
    {i : Nat}
    (hi : i < rule.spec.rhs.length) :
    rule.spec.rhs[i].2 = rule.isMarked i := by
  simp [spec]

/- Only one daughter is marked. -/
theorem markCount_spec_le :
    rule.spec.markCount ≤ 1 := by
  have hMarks :
      rule.spec.rhs.map Prod.snd =
        (List.range rule.length).map rule.isMarked := by
    apply List.ext_getElem
    · simp [spec, length]
    · intro i hLeft hRight
      simp [spec]
  have hHead : ∀ i, rule.isMarked i = true →
      i == rule.head.getD 0 := by
    intro i hMarked
    simp [(of_decide_eq_true hMarked).1]
  calc
    rule.spec.rhs.countP Prod.snd =
        (rule.spec.rhs.map Prod.snd).countP id := by
      rw [List.countP_map, Function.id_comp]
    _ = (List.range rule.length).countP rule.isMarked := by
      rw [hMarks, List.countP_map, Function.id_comp]
    _ ≤ (List.range rule.length).count
          (rule.head.getD 0) :=
      List.countP_mono_left (fun i _ => hHead i)
    _ ≤ 1 :=
      List.nodup_iff_count_le_one.mp List.nodup_range _

/- The head is where the mark is, or in first place. -/
theorem headPosition_spec :
    rule.spec.headPosition = rule.head := by
  have hLength :
      rule.spec.rhs.length = rule.rhs.length := by
    simp [spec]
  cases hHead : rule.head with
  | none =>
      have hNone : rule.rhs = [] :=
        rule.head_eq_none_iff.mp hHead
      apply if_pos
      apply List.eq_nil_of_length_eq_zero
      rw [hLength, hNone, List.length_nil]
  | some h =>
      have hBound := rule.head_lt h hHead
      have hSome : rule.spec.rhs ≠ [] := by
        apply List.ne_nil_of_length_pos
        omega
      rw [RuleSpec.headPosition, if_neg hSome]
      congr
      -- The mark of a head without sisters is left out, and
      -- such a head is in first place.
      by_cases hSisters : 1 < rule.length
      · have hFound :
            rule.spec.rhs.findIdx? Prod.snd = some h := by
          rw [List.findIdx?_eq_some_iff_getElem]
          refine ⟨by omega, ?_, ?_⟩
          · simp [getElem_rhs_spec, isMarked, hHead,
              hSisters]
          · intro j hBefore
            have hOther : h ≠ j := by omega
            simp [getElem_rhs_spec, isMarked, hHead, hOther]
        rw [hFound]
        rfl
      · have hAlone :
            rule.spec.rhs.findIdx? Prod.snd = none := by
          rw [List.findIdx?_eq_none_iff]
          intro entry hEntry
          rcases List.getElem_of_mem hEntry with
            ⟨i, hi, rfl⟩
          simp [getElem_rhs_spec, isMarked, hSisters]
        rw [hAlone]
        change ¬ 1 < rule.rhs.length at hSisters
        change 0 = h
        omega

/- What is written when a rule is printed stands for it. -/
theorem ofSpec_spec :
    Rule.ofSpec rule.spec = rule := by
  have hSymbols : rule.spec.symbols = rule.rhs := by
    simp [RuleSpec.symbols, spec,
      List.mapIdx_eq_zipIdx_map, Function.comp_def]
  rcases rule with ⟨lhs, rhs, head, _, _⟩
  simp only [ofSpec, Rule.mk.injEq]
  exact ⟨rfl, hSymbols, headPosition_spec _⟩

end Rule

------------------------------------------------------------
-- Printed Grammars
------------------------------------------------------------

namespace Grammar

variable (G : Grammar)

/- The syntax tree of a rule table as it is printed. -/
def table : RuleTable :=
  .ofClauses (G.rules.toList.map Rule.clause)

/- The tree writes down the rules in their order. -/
theorem specs_table :
    G.table.specs = G.rules.toList.map Rule.spec := by
  rw [table, RuleTable.specs_ofClauses, List.flatMap_map]
  simp only [Rule.specs_clause, List.map_eq_flatMap]

/- The lexemes of a printed table are those of its tree. -/
theorem splits_text
    (hNames : G.HasNames) :
    Splits G.text G.table.lexemes := by
  have hTrees : ∀ clause ∈ G.rules.toList.map Rule.clause,
      clause.HasNames := by
    intro clause hClause
    rcases List.mem_map.mp hClause with ⟨rule, hRule, rfl⟩
    rcases Array.getElem_of_mem
        (Array.mem_toList_iff.mp hRule) with
      ⟨r, hr, rfl⟩
    exact Rule.hasNames_clause (hNames.lhs ⟨r, hr⟩)
      (hNames.rhs ⟨r, hr⟩)
  have hSome : G.rules.toList.map Rule.clause ≠ [] := by
    apply List.ne_nil_of_length_pos
    simpa using G.size_pos
  have hRead :=
    Clause.begins_separated hTrees
      (List.forall_mem_nil _) hSome
  apply Begins.splits
  simpa [text, table, String.toList_intercalate,
    Function.comp_def, Rule.toList_text] using hRead

/- The grammar is that of its rules. -/
theorem ofSpecs_specs :
    ofSpecs (G.rules.toList.map Rule.spec) = .ok G := by
  have hFind :
      (G.rules.toList.map Rule.spec).find?
        (fun spec => 1 < spec.markCount) = none := by
    simp [Rule.markCount_spec_le]
  have hRules :
      ((G.rules.toList.map Rule.spec).map
        Rule.ofSpec).toArray = G.rules := by
    simp [Function.comp_def, Rule.ofSpec_spec]
  simp only [ofSpecs, hFind, hRules, dif_pos G.size_pos]
  rcases G with ⟨rules, hPositive, tables, rfl⟩
  rfl

/-
  A printed rule table over names is read back as the same
  grammar: the same rules with the same heads at the same
  places, and so the same start symbol.
-/
theorem ofText_text
    (hNames : G.HasNames) :
    ofText G.text = .ok G := by
  have hRead := readSpecs_of_splits (G.splits_text hNames)
  rw [specs_table] at hRead
  simp only [ofText, hRead, ofSpecs_specs]

/- Daughters with and without a head, one and none. -/
def tagged : Grammar :=
  ofRules
    #[⟨"S", ["NP", "VP", "PP"], some 1, by decide, by decide⟩,
      ⟨"NP", [], none, by decide, by decide⟩,
      ⟨"VP", ["v_1"], some 0, by decide, by decide⟩,
      ⟨"PP", ["p", "NP"], some 0, by decide, by decide⟩]
    (by decide)

/-
  The mark of an inner head, an alternative without symbols
  before a separator, and a head that has no sisters.
-/
theorem ofText_text_tagged :
    tagged.HasNames ∧
    tagged.text =
      "S -> NP VP* PP; NP ->; VP -> v_1; PP -> p* NP" ∧
    ofText "S -> NP VP* PP; NP ->; VP -> v_1; PP -> p* NP" =
      .ok tagged := by
  have hNames : tagged.HasNames := by
    constructor <;> decide +kernel
  have hText : tagged.text =
      "S -> NP VP* PP; NP ->; VP -> v_1; PP -> p* NP" := by
    decide +kernel
  refine ⟨hNames, hText, ?_⟩
  rw [← hText]
  exact tagged.ofText_text hNames

end Grammar

end Constituency
