import Constituency.Proofs.Chart.Delivery
import Constituency.Proofs.Derivation.Tree
import Constituency.Proofs.Recognition.HeadCorner

/-
  This file shows that the trees of a parse are derivation
  trees of the words, because at any time every item of the
  chart is explained by the items before it.

  Key definitions include:
    * `Chart.Explains`
    * `Item.HasDerivation`

  Main declarations:
    * `Tree.text_eq_nodeText`
    * `Deduction.explains`
    * `Deduction.hasDerivation`
    * `Grammar.exists_derives_of_mem_trees`
    * `Grammar.trees_are_derivations`
-/

namespace Constituency

variable {G : Grammar}
variable {algorithm : Algorithm}
variable {start : Symbol}
variable {words : List Symbol}

------------------------------------------------------------
-- Children in a Chart
------------------------------------------------------------

/-
  The `n`th item of a chart is explained by its children.
  They are constituents for the nonterminals of what it has
  recognised, which together with the words cover its span.
  The chart has each of them, and had it before the item.
-/
structure Chart.Explains
    (C : Chart G)
    (algorithm : Algorithm)
    (words : List Symbol)
    (n : Nat)
    (item : Item G) : Prop where
  tiles : ∃ parts,
    G.Tiles words item.key.recognised parts item.start
        item.stop ∧
      item.children.map Item.key =
        parts.map (fun part =>
          algorithm.constituent part.1 part.2)
  category_eq :
    item.children.map Item.category =
      item.key.recognised.filter G.isNonterminal
  earlier : ∀ child ∈ item.children,
    C.get? child.key = some child ∧
      ∃ m < n, C.items[m]? = some child

/- The children stand for the nonterminals of the row. -/
theorem Spelled.map_category_eq
    {earlier children : List (Item G)}
    {row : List Symbol}
    {i j : Nat}
    (hRow :
      Spelled algorithm words earlier row children i j) :
    children.map Item.category =
      row.filter G.isNonterminal := by
  rcases hRow with ⟨⟨parts, hTiles, hKeys⟩, _⟩
  have hCategories :
      (children.map Item.key).map ItemKey.category =
        parts.map (fun part => (G.rule part.1).lhs) := by
    rw [hKeys, List.map_map]
    apply List.map_congr_left
    intro part _
    exact algorithm.category_constituent part.1 part.2
  rw [← hTiles.map_lhs_eq, ← hCategories, List.map_map]
  rfl

/- A chart that is a deduction explains its items. -/
theorem Deduction.explains
    {C : Chart G}
    (hItems :
      Deduction words algorithm.steps
        (algorithm.seeds G start words) C.items.toList)
    {n : Nat}
    {item : Item G}
    (hItem : C.items[n]? = some item)
    (hGoal : ¬ item.key.IsGoal) :
    C.Explains algorithm words n item := by
  have hListed : C.items.toList[n]? = some item := by
    rwa [Array.getElem?_toList]
  have hGrounded :=
    hItems.grounded n item hListed hGoal
  refine ⟨hGrounded.1, hGrounded.map_category_eq, ?_⟩
  intro child hChild
  have hEarlier := hGrounded.2 child hChild
  rcases List.mem_iff_getElem?.mp hEarlier with ⟨m, hm⟩
  have hBound := (List.getElem?_eq_some_iff.mp hm).1
  rw [List.length_take, Nat.lt_min] at hBound
  rw [List.getElem?_take_of_lt hBound.1,
    Array.getElem?_toList] at hm
  refine ⟨?_, m, hBound.1, hm⟩
  apply C.get?_eq_some_iff.mpr
  exact ⟨List.mem_of_mem_take hEarlier, rfl⟩

------------------------------------------------------------
-- Trees of Items
------------------------------------------------------------

/- A tree is written as an item with such children is. -/
theorem Tree.text_eq_nodeText
    (r : G.RuleId)
    (daughters : List (Tree G)) :
    (Tree.node r daughters).text =
      Item.nodeText (G.rule r) (nodeTexts daughters) := by
  rw [Tree.text]
  unfold Item.nodeText Rule.daughtersText
  cases nodeTexts daughters with
  | nil => rfl
  | cons first others => rfl

/-
  If the item is a constituent, a derivation tree for it is
  written as the item is.
-/
def Item.HasDerivation
    (algorithm : Algorithm)
    (words : List Symbol)
    (item : Item G) : Prop :=
  ∀ r span, item.key = algorithm.constituent r span →
    ∃ daughters,
      (Tree.node r daughters).Covers words span.start
          span.stop ∧
        (Tree.node r daughters).text = item.tree

/- A constituent is written as a node above its children. -/
theorem Item.tree_of_constituent
    {r : G.RuleId}
    {span : Span}
    {item : Item G}
    (hKey : item.key = algorithm.constituent r span) :
    item.tree =
      Item.nodeText (G.rule r) (Item.trees item.children) := by
  rcases item with ⟨key, children⟩
  subst hKey
  cases algorithm with
  | earley => exact Item.tree.eq_2 ..
  | leftCorner => exact Item.tree.eq_2 ..
  | headCorner => exact Item.tree.eq_4 ..

/-
  When the constituents of a row have derivation trees,
  these and the words are the daughters of a node over it.
-/
theorem Grammar.Tiles.exists_trees
    {row : List Symbol}
    {parts : List G.Constituent}
    {children : List (Item G)}
    {i j : Nat}
    (hTiles : G.Tiles words row parts i j)
    (hKeys :
      children.map Item.key =
        parts.map (fun part =>
          algorithm.constituent part.1 part.2))
    (hChildren : ∀ child ∈ children,
      child.HasDerivation algorithm words) :
    ∃ daughters : List (Tree G),
      daughters.map Tree.root = row ∧
        (∀ tree ∈ daughters, tree.IsDerivation) ∧
        Tree.yields daughters = words.extract i j ∧
          Tree.nodeTexts daughters =
            Item.trees children := by
  induction hTiles generalizing children with
  | nil i =>
      have hNone : children = [] := List.map_eq_nil_iff.mp hKeys
      subst hNone
      refine ⟨[], rfl, by simp, ?_, ?_⟩
      · simp [Tree.yields, List.extract_eq_take_drop]
      · simp [Tree.nodeTexts, Item.trees]
  | @word a row parts i j hTerminal hWord hRow ih =>
      rcases ih hKeys hChildren with
        ⟨daughters, hRoots, hBelow, hYields, hTexts⟩
      refine ⟨.word a :: daughters, ?_, ?_, ?_, ?_⟩
      · rw [List.map_cons, hRoots]
        rfl
      · intro tree hTree
        rcases List.mem_cons.mp hTree with rfl | hOther
        · exact .word hTerminal
        · exact hBelow tree hOther
      · rw [Tree.yields, Tree.yield, hYields,
          ← Grammar.extract_append_extract
            (Nat.le_succ i) hRow.le,
          Grammar.extract_succ hWord]
      · rw [Tree.nodeTexts, hTexts]
  | @constituent r row parts i k j hSpan hRow ih =>
      rcases List.map_eq_cons_iff.mp hKeys with
        ⟨child, children, rfl, hKey, hRest⟩
      rcases hChildren child List.mem_cons_self r ⟨i, k⟩ hKey
        with ⟨below, hCovers, hText⟩
      rcases ih hRest (fun other hOther =>
          hChildren other (List.mem_cons_of_mem child hOther))
        with ⟨daughters, hRoots, hBelow, hYields, hTexts⟩
      refine ⟨.node r below :: daughters, ?_, ?_, ?_, ?_⟩
      · rw [List.map_cons, hRoots]
        rfl
      · intro tree hTree
        rcases List.mem_cons.mp hTree with rfl | hOther
        · exact hCovers.isDerivation
        · exact hBelow tree hOther
      · rw [Tree.yields, hCovers.yield_eq, hYields]
        exact Grammar.extract_append_extract hSpan hRow.le
      · rw [Tree.nodeTexts, hText, hTexts, Item.trees]

/- Every constituent that is found has a derivation tree. -/
theorem Deduction.hasDerivation
    {items : List (Item G)}
    (hItems :
      Deduction words algorithm.steps
        (algorithm.seeds G start words) items) :
    ∀ x ∈ items, ¬ x.key.IsGoal →
      x.HasDerivation algorithm words := by
  refine @children_induction G _ _ _ _
    (Item.HasDerivation algorithm words) hItems ?_
  intro x _ hGrounded hChildren r span hKey
  rcases hGrounded with ⟨⟨parts, hTiles, hKeys⟩, _⟩
  rw [Item.start, Item.stop, hKey,
    Algorithm.recognised_constituent,
    Algorithm.span_constituent] at hTiles
  rcases hTiles.exists_trees hKeys hChildren with
    ⟨daughters, hRoots, hBelow, hYields, hTexts⟩
  refine ⟨daughters, ⟨.node r hRoots hBelow, ?_⟩, ?_⟩
  · rw [Tree.yield, hYields]
  · rw [Tree.text_eq_nodeText, hTexts,
      Item.tree_of_constituent hKey]

------------------------------------------------------------
-- Trees of Parses
------------------------------------------------------------

/- There is a tree exactly when something is recognised. -/
theorem Parse.exists_mem_trees_iff
    (parse : Parse G) :
    (∃ text, text ∈ parse.trees) ↔
      parse.isRecognised = true := by
  unfold Parse.trees Parse.isRecognised
  simp only [Text.mem_sortDistinct_iff]
  cases parse.completeItems with
  | nil => simp
  | cons item items => simp

namespace Grammar

/- Every tree of a parse is a derivation tree of the words. -/
theorem exists_derives_of_mem_trees
    {limit : Option Nat}
    {parse : Parse G}
    (hParse :
      (G.parse algorithm start limit words).result =
        .ok parse)
    {text : String}
    (hText : text ∈ parse.trees) :
    ∃ tree : Tree G,
      tree.Derives start words ∧ tree.text = text := by
  rcases parse_deduction hParse with
    ⟨_, hStart, hWords, hItems⟩
  rw [Parse.trees, Text.mem_sortDistinct_iff, List.mem_map]
    at hText
  rcases hText with ⟨item, hItem, rfl⟩
  rcases Parse.mem_completeItems_iff.mp hItem with
    ⟨⟨hKnown, hSpan⟩, hConstituent⟩
  rcases (hItems.isConstituentOf_iff hKnown).mp
      hConstituent with
    ⟨r, hLhs, hKey⟩
  have hGoal : ¬ item.key.IsGoal := by
    rw [hKey]
    exact algorithm.not_isGoal_constituent r _
  rcases hItems.hasDerivation item hKnown hGoal r _ hKey
    with ⟨daughters, hCovers, hSame⟩
  refine
    ⟨.node r daughters, ⟨hCovers.isDerivation, ?_, ?_⟩, hSame⟩
  · rw [Tree.root, hLhs, hStart]
  · rw [hCovers.yield_eq, hSpan, hWords]
    simp

/-
  At any time the items of the chart are explained by
  earlier ones, also in the midst of a step, when the chart
  has only the first of the items it has after it. So each
  tree of a parse is a derivation tree of the words from the
  start symbol, as it is written: a node as its left-hand
  side around the nodes among its daughters, or around all
  daughters of its rule when there is no node among them.
-/
theorem trees_are_derivations
    (G : Grammar)
    (algorithm : Algorithm)
    (start : Symbol)
    (limit : Option Nat)
    (words : List Symbol) :
    (∀ (steps : Nat) (C : Chart G),
      C.items.toList <+:
          (G.chartAfter algorithm start limit words
            steps).items.toList →
        ∀ (n : Nat) (item : Item G),
          C.items[n]? = some item →
            ¬ item.key.IsGoal →
              C.Explains algorithm words n item) ∧
      (∀ (r : G.RuleId) (daughters : List (Tree G)),
        (Tree.node r daughters).text =
          (G.rule r).lhs ++ "(" ++
            ",".intercalate
              (if daughters.filter Tree.isNode = [] then
                (G.rule r).rhs
              else
                (daughters.filter Tree.isNode).map
                  Tree.text) ++ ")") ∧
      ∀ parse,
        (G.parse algorithm start limit words).result =
            .ok parse →
          ∀ text ∈ parse.trees, ∃ tree : Tree G,
            tree.IsDerivation ∧ tree.root = start ∧
              tree.yield = words ∧ tree.text = text := by
  refine ⟨?_, Tree.text_node, ?_⟩
  · intro steps C hPrefix n item hItem hGoal
    have hItems := G.chartAfter_deduction algorithm start
      limit words steps
    exact (hItems.of_prefix hPrefix).explains hItem hGoal
  · intro parse hParse text hText
    rcases exists_derives_of_mem_trees hParse hText with
      ⟨tree, hTree, hSame⟩
    exact ⟨tree, hTree.isDerivation, hTree.root_eq,
      hTree.yield_eq, hSame⟩

/- The tree of a sentence is spelled out in its parse. -/
theorem sentence_trees :
    ∃ parse,
      (sentence.parse .headCorner "S" none
          ["d", "n", "v"]).result = .ok parse ∧
        "S(NP(d,n),VP(v))" ∈ parse.trees ∧
        ∃ tree : Tree sentence,
          tree.IsDerivation ∧ tree.root = "S" ∧
            tree.yield = ["d", "n", "v"] ∧
              tree.text = "S(NP(d,n),VP(v))" := by
  have hStart : sentence.isNonterminal "S" = true := by
    decide
  rcases sentence.parse_closure .headCorner hStart
      ["d", "n", "v"] with
    ⟨parse, hParse, hAlgorithm, hName, hWords, hClosure⟩
  have hExact : parse.IsExact := by
    rw [← hName, ← hWords] at hClosure
    rw [← hName] at hStart
    exact Parse.isExact_headCorner hStart hAlgorithm hClosure
  have hRecognised : parse.isRecognised = true := by
    rw [hExact.isRecognised_iff, hName, hWords]
    exact sentenceTree_derives.isDerivation.yields
  rcases parse.exists_mem_trees_iff.mpr hRecognised with
    ⟨text, hText⟩
  rcases (trees_are_derivations sentence .headCorner "S" none
      ["d", "n", "v"]).2.2 parse hParse text hText with
    ⟨tree, hTree, hRoot, hYield, hSame⟩
  have hOnly := eq_sentenceTree ⟨hTree, hRoot, hYield⟩
  have hLiteral : tree.text = "S(NP(d,n),VP(v))" := by
    rw [hOnly, sentenceTree_text]
  rw [← hSame, hLiteral] at hText
  exact ⟨parse, hParse, hText, tree, hTree, hRoot, hYield,
    hLiteral⟩

end Grammar

end Constituency
