import Constituency.Proofs.Recognition.LeftCorner
import Constituency.Proofs.Recognition.Trees
import Constituency.Proofs.Text.Sorted

/-
  This file shows that all algorithms agree on unambiguous
  input: each of them shows the one derivation tree that
  there is, and none where there is none.

  Main declarations:
    * `Grammar.parse_exact`
    * `Grammar.unambiguous_tree_found`
    * `Grammar.sentence_unambiguous`
-/

namespace Constituency

variable {G : Grammar}
variable {start : Symbol}

namespace Grammar

------------------------------------------------------------
-- Exact Parses
------------------------------------------------------------

/-
  Without a limit every algorithm gives an exact parse. For
  left-corner recognition this is read off the closure for
  Earley's algorithm, which has the same complete items.
-/
theorem parse_exact
    (hStart : G.isNonterminal start = true)
    (words : List Symbol)
    (algorithm : Algorithm) :
    ∃ parse,
      (G.parse algorithm start none words).result =
          .ok parse ∧
        parse.start = start ∧ parse.words = words ∧
          parse.IsExact := by
  rcases G.parse_closure algorithm hStart words with
    ⟨parse, hParse, hAlgorithm, rfl, rfl, hClosure⟩
  refine ⟨parse, hParse, rfl, rfl, ?_⟩
  cases algorithm with
  | headCorner =>
      exact Parse.isExact_headCorner hStart hAlgorithm
        hClosure
  | earley =>
      apply parse.isExact_of_constituents hStart
      · rw [hAlgorithm]
        exact hClosure.deduction
      · intro r hLhs
        rw [hAlgorithm]
        exact hClosure.constituent_topDown_iff hLhs
  | leftCorner =>
      rcases G.parse_closure .earley hStart parse.words with
        ⟨earley, _, _, _, _, hOther⟩
      apply parse.isExact_of_constituents hStart
      · rw [hAlgorithm]
        exact hClosure.deduction
      · intro r hLhs
        rw [hAlgorithm]
        have hStarted :=
          ItemKey.isStarted_constituent parse.start r
            ⟨0, parse.words.length⟩
        exact (hClosure.mem_keys_leftCorner_iff
            hOther).trans
          ((and_iff_left hStarted).trans
            (hOther.constituent_topDown_iff hLhs))

------------------------------------------------------------
-- Unambiguous Input
------------------------------------------------------------

/-
  Without a limit every algorithm gives a parse. If the
  words have a single derivation tree from the start symbol,
  the parse shows this tree and no other; if they have none,
  it shows no tree. The tree is written with each node as
  its left-hand side around the nodes among its daughters,
  or around all daughters of its rule when there is no node
  among them.
-/
theorem unambiguous_tree_found
    (hStart : G.isNonterminal start = true)
    (words : List Symbol)
    (algorithm : Algorithm) :
    (∀ (r : G.RuleId) (daughters : List (Tree G)),
      (Tree.node r daughters).text =
        (G.rule r).lhs ++ "(" ++
          ",".intercalate
            (if daughters.filter Tree.isNode = [] then
              (G.rule r).rhs
            else
              (daughters.filter Tree.isNode).map
                Tree.text) ++ ")") ∧
    ∃ parse,
      (G.parse algorithm start none words).result =
          .ok parse ∧
        (∀ tree : Tree G, tree.Derives start words →
          (∀ other : Tree G, other.Derives start words →
            other = tree) →
              parse.trees = [tree.text]) ∧
        ((∀ tree : Tree G, ¬ tree.Derives start words) →
          parse.trees = []) := by
  rcases parse_exact hStart words algorithm with
    ⟨parse, hParse, hSameStart, hSameWords, hExact⟩
  refine ⟨Tree.text_node, parse, hParse, ?_, ?_⟩
  · intro tree hTree hOnly
    have hShown : ∀ text ∈ parse.trees, text = tree.text := by
      intro text hText
      rcases exists_derives_of_mem_trees hParse hText with
        ⟨other, hOther, hSame⟩
      rw [← hSame, hOnly other hOther]
    have hYields := hTree.isDerivation.yields
    rw [hTree.root_eq, hTree.yield_eq, ← hSameStart,
      ← hSameWords, ← hExact.isRecognised_iff] at hYields
    rcases parse.exists_mem_trees_iff.mpr hYields with
      ⟨text, hText⟩
    have hFound := hText
    rw [hShown text hText] at hFound
    unfold Parse.trees at hFound hShown ⊢
    simp only [Text.mem_sortDistinct_iff] at hFound hShown
    exact Text.sortDistinct_eq_singleton hFound hShown
  · intro hNone
    apply List.eq_nil_iff_forall_not_mem.mpr
    intro text hText
    rcases exists_derives_of_mem_trees hParse hText with
      ⟨tree, hTree, _⟩
    exact hNone tree hTree

/-
  Every algorithm finds the tree of a sentence, and none for
  the words in another order.
-/
theorem sentence_unambiguous :
    sentence.isNonterminal "S" = true ∧
      ∀ algorithm : Algorithm,
        (∃ parse,
          (sentence.parse algorithm "S" none
              ["d", "n", "v"]).result = .ok parse ∧
            parse.trees = ["S(NP(d,n),VP(v))"]) ∧
        ∃ parse,
          (sentence.parse algorithm "S" none
              ["n", "d", "v"]).result = .ok parse ∧
            parse.trees = [] := by
  have hStart : sentence.isNonterminal "S" = true := by
    decide
  refine ⟨hStart, ?_⟩
  intro algorithm
  constructor
  · rcases unambiguous_tree_found hStart ["d", "n", "v"]
        algorithm with
      ⟨_, parse, hParse, hOne, _⟩
    refine ⟨parse, hParse, ?_⟩
    have hTrees := hOne sentenceTree sentenceTree_derives
      (fun other hOther => eq_sentenceTree hOther)
    rw [hTrees, sentenceTree_text]
  · rcases unambiguous_tree_found hStart ["n", "d", "v"]
        algorithm with
      ⟨_, parse, hParse, _, hNone⟩
    refine ⟨parse, hParse, hNone ?_⟩
    intro tree hTree
    have hYield := hTree.yield_eq
    rw [eq_sentenceTree hTree,
      sentenceTree_derives.yield_eq] at hYield
    exact absurd hYield (by decide)

end Grammar

end Constituency
