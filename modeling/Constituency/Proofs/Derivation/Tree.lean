import Constituency.Proofs.Derivation.Yield

/-
  This file defines derivation trees: words, and nodes for a
  rule with one tree for each daughter. They are written in
  one line, without the words that stand next to a node.

  Key definitions include:
    * `Tree`
    * `Tree.root`
    * `Tree.yield`
    * `Tree.text`
    * `Tree.isNode`
    * `Tree.IsDerivation`
    * `Tree.Covers`
    * `Tree.Derives`
    * `Grammar.sentence`
    * `Grammar.sentenceTree`

  Main declarations:
    * `Tree.text_node`
    * `Tree.IsDerivation.yields`
    * `Tree.IsDerivation.eq_of_root_eq`
    * `Grammar.eq_sentenceTree`
-/

namespace Constituency

/- A word, or a rule above the trees of its daughters. -/
inductive Tree (G : Grammar) where
  | word (a : Symbol)
  | node (r : G.RuleId) (daughters : List (Tree G))

namespace Tree

variable {G : Grammar}

/- The symbol at the top. -/
def root : Tree G → Symbol
  | word a => a
  | node r _ => (G.rule r).lhs

mutual

/- The words at the leaves. -/
def yield : Tree G → List Symbol
  | word a => [a]
  | node _ daughters => yields daughters

/- The words at the leaves of a row of trees. -/
def yields : List (Tree G) → List Symbol
  | [] => []
  | tree :: trees => tree.yield ++ yields trees

end

mutual

/-
  A tree as it is written. Words show only in a node that
  has no other nodes below it, as daughters of its rule.
-/
def text : Tree G → String
  | word a => a
  | node r daughters =>
      (G.rule r).lhs ++ "(" ++
        ",".intercalate
          (match nodeTexts daughters with
          | [] => (G.rule r).rhs
          | first :: others => first :: others) ++ ")"

/- The nodes in a row of trees as they are written. -/
def nodeTexts : List (Tree G) → List String
  | [] => []
  | word _ :: trees => nodeTexts trees
  | node r daughters :: trees =>
      (node r daughters).text :: nodeTexts trees

end

/- The tree is a node and not a word. -/
def isNode : Tree G → Bool
  | word _ => false
  | node _ _ => true

theorem nodeTexts_eq
    (trees : List (Tree G)) :
    nodeTexts trees = (trees.filter isNode).map text := by
  induction trees with
  | nil => rfl
  | cons tree trees ih =>
      cases tree with
      | word a =>
          rw [nodeTexts, ih]
          rfl
      | node r daughters =>
          rw [nodeTexts, ih]
          rfl

/-
  A node is written as its left-hand side around the nodes
  among its daughters, or around all daughters of its rule
  when there is no node among them.
-/
theorem text_node
    (r : G.RuleId)
    (daughters : List (Tree G)) :
    (node r daughters).text =
      (G.rule r).lhs ++ "(" ++
        ",".intercalate
          (if daughters.filter isNode = [] then
            (G.rule r).rhs
          else
            (daughters.filter isNode).map text) ++ ")" := by
  rw [text, nodeTexts_eq]
  cases daughters.filter isNode with
  | nil => rfl
  | cons first others => rfl

/-
  The words are terminals, and below each node stand the
  daughters of its rule.
-/
inductive IsDerivation : Tree G → Prop where
  | word
      {a : Symbol}
      (hTerminal : G.isNonterminal a = false) :
      IsDerivation (word a)
  | node
      (r : G.RuleId)
      {daughters : List (Tree G)}
      (hRoots : daughters.map root = (G.rule r).rhs)
      (hBelow : ∀ tree ∈ daughters, IsDerivation tree) :
      IsDerivation (node r daughters)

/- A row of trees yields words when each of them does. -/
theorem yields_of_forall
    {trees : List (Tree G)}
    (hTrees : ∀ tree ∈ trees,
      G.Yields [tree.root] tree.yield) :
    G.Yields (trees.map root) (yields trees) := by
  induction trees with
  | nil => exact .nil
  | cons tree trees ih =>
      have hFirst := hTrees tree List.mem_cons_self
      have hRest := ih (fun other hOther =>
        hTrees other (List.mem_cons_of_mem tree hOther))
      exact hFirst.append hRest

/- A derivation tree derives its words from its root. -/
theorem IsDerivation.yields
    {tree : Tree G}
    (hTree : tree.IsDerivation) :
    G.Yields [tree.root] tree.yield := by
  induction hTree with
  | word hTerminal => exact .word hTerminal .nil
  | @node r daughters hRoots _ ih =>
      have hRow := yields_of_forall ih
      rw [hRoots] at hRow
      have hNode := Grammar.Yields.rule r hRow .nil
      rwa [List.append_nil] at hNode

/- Below a terminal there is only its word. -/
theorem IsDerivation.eq_word
    {tree : Tree G}
    (hTree : tree.IsDerivation)
    (hRoot : G.isNonterminal tree.root = false) :
    tree = .word tree.root := by
  cases hTree with
  | word _ => rfl
  | node r _ _ => simp [root] at hRoot

/- Rows of trees are told apart by the roots. -/
theorem eq_of_map_root_eq
    {trees others : List (Tree G)}
    (hTrees : ∀ tree ∈ trees, ∀ other ∈ others,
      tree.root = other.root → tree = other)
    (hRow : trees.map root = others.map root) :
    trees = others := by
  have hLength : trees.length = others.length := by
    simpa using congrArg List.length hRow
  apply List.ext_getElem hLength
  intro i hFirst hSecond
  have hPlace := congrArg (fun row => row[i]?) hRow
  have hRoots : trees[i].root = others[i].root := by
    simpa [hFirst, hSecond] using hPlace
  exact hTrees _ (List.getElem_mem hFirst) _
    (List.getElem_mem hSecond) hRoots

/-
  When no two rules have the same left-hand side, there is
  at most one derivation tree with a given root.
-/
theorem IsDerivation.eq_of_root_eq
    (hOne : ∀ r s : G.RuleId,
      (G.rule r).lhs = (G.rule s).lhs → r = s)
    {tree other : Tree G}
    (hTree : tree.IsDerivation)
    (hOther : other.IsDerivation)
    (hRoot : tree.root = other.root) :
    tree = other := by
  induction hTree generalizing other with
  | @word a hTerminal =>
      have hWord := hOther.eq_word (by
        rw [← hRoot]
        exact hTerminal)
      rw [hWord, ← hRoot]
      rfl
  | @node r daughters hRoots hBelow ih =>
      cases hOther with
      | @word a hTerminal =>
          have hSame : (G.rule r).lhs = a := hRoot
          simp [← hSame] at hTerminal
      | @node s others hOtherRoots hOtherBelow =>
          have hRule : r = s := hOne r s hRoot
          subst hRule
          have hRow : daughters.map root = others.map root :=
            hRoots.trans hOtherRoots.symm
          have hSame : daughters = others := by
            refine eq_of_map_root_eq ?_ hRow
            intro daughter hDaughter other hOther
            exact ih daughter hDaughter
              (hOtherBelow other hOther)
          rw [hSame]

/-
  A derivation tree of the words of an input from one
  position to another.
-/
structure Covers
    (words : List Symbol)
    (tree : Tree G)
    (i j : Nat) : Prop where
  isDerivation : tree.IsDerivation
  yield_eq : tree.yield = words.extract i j

/- A derivation tree of all words from a start symbol. -/
structure Derives
    (tree : Tree G)
    (start : Symbol)
    (words : List Symbol) : Prop where
  isDerivation : tree.IsDerivation
  root_eq : tree.root = start
  yield_eq : tree.yield = words

end Tree

------------------------------------------------------------
-- A Grammar without Choices
------------------------------------------------------------

namespace Grammar

/- A grammar with one rule for each nonterminal. -/
def sentence : Grammar :=
  ofRules
    #[Rule.ofSpec ⟨"S", [("NP", false), ("VP", true)]⟩,
      Rule.ofSpec ⟨"NP", [("d", false), ("n", true)]⟩,
      Rule.ofSpec ⟨"VP", [("v", false)]⟩]
    (by decide)

/- The derivation tree of `d n v`. -/
def sentenceTree : Tree sentence :=
  .node ⟨0, by decide⟩
    [.node ⟨1, by decide⟩ [.word "d", .word "n"],
      .node ⟨2, by decide⟩ [.word "v"]]

theorem sentenceTree_derives :
    sentenceTree.Derives "S" ["d", "n", "v"] where
  isDerivation := by
    have hTerminals : ∀ a ∈ ["d", "n", "v"],
        sentence.isNonterminal a = false := by
      decide
    have hWords : ∀ a ∈ ["d", "n", "v"],
        (Tree.word a : Tree sentence).IsDerivation :=
      fun a ha => .word (hTerminals a ha)
    have hSubject : (Tree.node ⟨1, by decide⟩
        [.word "d", .word "n"] : Tree sentence).IsDerivation :=
      .node _ rfl (by simp [hWords])
    have hVerb : (Tree.node ⟨2, by decide⟩
        [.word "v"] : Tree sentence).IsDerivation :=
      .node _ rfl (by simp [hWords])
    exact .node _ rfl (by simp [hSubject, hVerb])
  root_eq := rfl
  yield_eq := rfl

/- There is no other tree, for these or any other words. -/
theorem eq_sentenceTree
    {tree : Tree sentence}
    {words : List Symbol}
    (hTree : tree.Derives "S" words) :
    tree = sentenceTree := by
  have hOne : ∀ r s : sentence.RuleId,
      (sentence.rule r).lhs = (sentence.rule s).lhs →
        r = s := by
    decide
  exact hTree.isDerivation.eq_of_root_eq hOne
    sentenceTree_derives.isDerivation
    (hTree.root_eq.trans sentenceTree_derives.root_eq.symm)

theorem sentenceTree_text :
    sentenceTree.text = "S(NP(d,n),VP(v))" := by
  decide

end Grammar

end Constituency
