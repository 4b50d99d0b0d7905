import Constituency.Notation.Source
import Constituency.Proofs.Notation.Reading

/-
  This file says which texts are rule tables and which
  grammar, or which complaint, comes of each.

  Key definitions include:
    * `Rule.IsWrittenBy`
    * `Grammar.IsWrittenBy`

  Main declarations:
    * `Rule.isWrittenBy_ofSpec`
    * `Grammar.ofSpecs_of_marked`
    * `Grammar.exists_ofSpecs`
    * `Grammar.ofText_exact`
    * `Grammar.ofText_exact_accented`
-/

namespace Constituency

open Notation

------------------------------------------------------------
-- Rules
------------------------------------------------------------

/-
  The rule that an alternative writes down. Its head is the
  marked daughter, or the first one when none is marked.
-/
structure Rule.IsWrittenBy
    (rule : Rule)
    (spec : RuleSpec) : Prop where
  lhs : rule.lhs = spec.lhs
  rhs : rule.rhs = spec.rhs.map Prod.fst
  empty : spec.rhs = [] → rule.head = none
  unmarked : spec.rhs ≠ [] →
    (∀ entry ∈ spec.rhs, entry.2 = false) →
      rule.head = some 0
  marked : ∀ front symbol back,
    spec.rhs = front ++ (symbol, true) :: back →
      rule.head = some front.length

/- Alternatives with at most one mark write a rule down. -/
theorem Rule.isWrittenBy_ofSpec
    {spec : RuleSpec}
    (hMarks : spec.markCount ≤ 1) :
    (Rule.ofSpec spec).IsWrittenBy spec where
  lhs := rfl
  rhs := rfl
  empty := fun hEmpty => if_pos hEmpty
  unmarked := by
    intro hSome hUnmarked
    have hNone : spec.rhs.findIdx? Prod.snd = none :=
      List.findIdx?_eq_none_iff.mpr hUnmarked
    change spec.headPosition = some 0
    rw [RuleSpec.headPosition, if_neg hSome, hNone]
    rfl
  marked := by
    intro front symbol back hRhs
    have hFront : front.countP Prod.snd = 0 := by
      rw [RuleSpec.markCount, hRhs, List.countP_append,
        List.countP_cons_of_pos rfl] at hMarks
      omega
    have hNone : front.findIdx? Prod.snd = none := by
      rw [List.findIdx?_eq_none_iff]
      intro entry hEntry
      have hUnmarked := List.countP_eq_zero.mp hFront
      simpa using hUnmarked entry hEntry
    change spec.headPosition = some front.length
    simp [RuleSpec.headPosition, hRhs, hNone,
      List.findIdx?_cons]

------------------------------------------------------------
-- Grammars
------------------------------------------------------------

namespace Grammar

/- The first alternative with several marks is refused. -/
theorem ofSpecs_of_marked
    {before after : List RuleSpec}
    {spec : RuleSpec}
    (hBefore : ∀ other ∈ before, other.markCount ≤ 1)
    (hMarks : 2 ≤ spec.markCount) :
    ofSpecs (before ++ spec :: after) =
      .error (.multipleHeads spec.lhs) := by
  have hFind : (before ++ spec :: after).find?
      (fun other => 1 < other.markCount) = some spec := by
    rw [List.find?_eq_some_iff_append]
    refine ⟨decide_eq_true hMarks, before, after, rfl, ?_⟩
    simpa using hBefore
  simp only [ofSpecs, hFind]

/- Rule number `r` is that of alternative number `r`. -/
structure IsWrittenBy
    (G : Grammar)
    (specs : List RuleSpec) : Prop where
  size : G.rules.size = specs.length
  rule : ∀ (r : G.RuleId) spec,
    specs[r.val]? = some spec → (G.rule r).IsWrittenBy spec
  start : ∀ spec, specs.head? = some spec →
    G.start = spec.lhs

/- Else there is a rule for each alternative, in order. -/
theorem exists_ofSpecs
    {specs : List RuleSpec}
    (hMarks : ∀ spec ∈ specs, spec.markCount ≤ 1)
    (hSome : specs ≠ []) :
    ∃ G, ofSpecs specs = .ok G ∧ G.IsWrittenBy specs := by
  have hFind :
      specs.find? (fun spec => 1 < spec.markCount) = none := by
    simpa using hMarks
  have hPositive :
      0 < (specs.map Rule.ofSpec).toArray.size := by
    simpa using List.length_pos_iff.mpr hSome
  refine ⟨ofRules _ hPositive, ?_, ?_, ?_, ?_⟩
  · simp only [ofSpecs, hFind, dif_pos hPositive]
  · simp [ofRules]
  · intro r spec hSpec
    rcases r with ⟨r, hr⟩
    rcases List.getElem?_eq_some_iff.mp hSpec with
      ⟨hBound, rfl⟩
    have hRule :
        (ofRules _ hPositive).rule ⟨r, hr⟩ =
          Rule.ofSpec specs[r] :=
      List.getElem_map Rule.ofSpec
    rw [hRule]
    exact Rule.isWrittenBy_ofSpec
      (hMarks _ (List.getElem_mem hBound))
  · intro spec hFirst
    cases specs with
    | nil => cases hFirst
    | cons first others =>
        cases hFirst
        rfl

/-
  A text is refused for its notation exactly when it is not
  made of the lexemes of a rule table. Of a rule table, the
  first alternative with several marks is refused, and so is
  a table without alternatives. Any other is a grammar whose
  rules are those alternatives.
-/
theorem ofText_exact
    (text : String) :
    ((∀ cause, ofText text ≠ .error (.malformed cause)) ↔
      ∃ table : RuleTable, Splits text table.lexemes) ∧
    ∀ table : RuleTable, Splits text table.lexemes →
      readSpecs text = .ok table.specs ∧
      (∀ before spec after,
        table.specs = before ++ spec :: after →
        (∀ other ∈ before, other.markCount ≤ 1) →
        2 ≤ spec.markCount →
          ofText text =
            .error (.unusable (.multipleHeads spec.lhs))) ∧
      (table.specs = [] →
        ofText text = .error (.unusable .noRules)) ∧
      ((∀ spec ∈ table.specs, spec.markCount ≤ 1) →
        table.specs ≠ [] →
          ∃ G, ofText text = .ok G ∧
            G.IsWrittenBy table.specs) := by
  refine ⟨⟨?_, ?_⟩, ?_⟩
  · intro hRead
    cases hSpecs : readSpecs text with
    | error cause =>
        refine absurd ?_ (hRead cause)
        simp only [ofText, hSpecs]
    | ok specs => exact exists_splits_of_readSpecs hSpecs
  · intro hTable cause hError
    rcases hTable with ⟨table, hSplits⟩
    simp only [ofText, readSpecs_of_splits hSplits] at hError
    split at hError <;> cases hError
  · intro table hSplits
    have hRead := readSpecs_of_splits hSplits
    refine ⟨hRead, ?_, ?_, ?_⟩
    · intro before spec after hSpecs hBefore hMarks
      simp only [ofText, hRead, hSpecs,
        ofSpecs_of_marked hBefore hMarks]
    · intro hNone
      simp only [ofText, hRead, hNone]
      rfl
    · intro hMarks hSome
      rcases exists_ofSpecs hMarks hSome with
        ⟨G, hGrammar, hWritten⟩
      refine ⟨G, ?_, hWritten⟩
      simp only [ofText, hRead, hGrammar]

/-
  An accented word, a mark after a blank and an alternative
  without symbols; two marks; and a text of blanks.
-/
theorem ofText_exact_accented :
    (∃ G, ofText "S -> 'é' N * | ;\nN -> n" = .ok G ∧
      G.IsWrittenBy
        [⟨"S", [("é", false), ("N", true)]⟩, ⟨"S", []⟩,
          ⟨"N", [("n", false)]⟩]) ∧
    ofText "S -> NP* VP*" =
      .error (.unusable (.multipleHeads "S")) ∧
    ofText " \n" = .error (.unusable .noRules) := by
  refine ⟨?_, ?_, ?_⟩
  · let table : RuleTable :=
      ⟨[⟨['S'], [⟨.quoted ['é'], false⟩, ⟨.name ['N'], true⟩],
          [[]]⟩],
        some ⟨['N'], [⟨.name ['n'], false⟩], []⟩⟩
    have hSplits :
        Splits "S -> 'é' N * | ;\nN -> n" table.lexemes :=
      splits_iff.mpr ⟨by decide +kernel, by decide +kernel⟩
    exact ((ofText_exact _).2 table hSplits).2.2.2
      (by decide) (by decide)
  · let table : RuleTable :=
      ⟨[], some ⟨['S'], [⟨.name ['N', 'P'], true⟩,
        ⟨.name ['V', 'P'], true⟩], []⟩⟩
    have hSplits : Splits "S -> NP* VP*" table.lexemes :=
      splits_iff.mpr ⟨by decide +kernel, by decide +kernel⟩
    exact ((ofText_exact _).2 table hSplits).2.1 [] _ [] rfl
      (by simp) (by decide)
  · have hSplits :
        Splits " \n" (RuleTable.mk [] none).lexemes :=
      splits_iff.mpr ⟨by decide +kernel, by decide +kernel⟩
    exact ((ofText_exact _).2 _ hSplits).2.2.1 rfl

end Grammar

end Constituency
