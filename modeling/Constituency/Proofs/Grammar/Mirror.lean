import Constituency.Proofs.Grammar.Closure

/-
  This file turns grammars around: the daughters of each
  rule stand in the opposite order, and its head stays the
  same daughter.

  Key definitions include:
    * `Rule.mirror`
    * `Grammar.mirror`
    * `Grammar.Mirrors`

  Main declarations:
    * `Grammar.mirrors_mirror`
    * `Grammar.Mirrors.symm`
    * `Grammar.Mirrors.isHeadCornerOf_eq`
-/

namespace Constituency

------------------------------------------------------------
-- Rules Turned Around
------------------------------------------------------------

namespace Rule

/-
  The rule read from right to left. Of `m` daughters the one
  at `h` comes to `m - 1 - h`, and so does the head.
-/
def mirror
    (rule : Rule) : Rule where
  lhs := rule.lhs
  rhs := rule.rhs.reverse
  head := rule.head.map (fun h => rule.length - 1 - h)
  head_eq_none_iff := by
    rw [Option.map_eq_none_iff, rule.head_eq_none_iff,
      List.reverse_eq_nil_iff]
  head_lt := by
    intro h hHead
    rcases Option.map_eq_some_iff.mp hHead with
      ⟨head, hSome, rfl⟩
    have hBound := rule.head_lt head hSome
    rw [List.length_reverse]
    unfold length
    omega

@[simp] theorem lhs_mirror
    (rule : Rule) :
    rule.mirror.lhs = rule.lhs :=
  rfl

@[simp] theorem length_mirror
    (rule : Rule) :
    rule.mirror.length = rule.length :=
  List.length_reverse

/- A daughter is found again from the other end. -/
theorem daughter_mirror
    (rule : Rule)
    {k l : Nat}
    (hSum : k + l + 1 = rule.length) :
    rule.mirror.rhs[k]? = rule.rhs[l]? :=
  List.getElem?_reverse' hSum

theorem head_mirror
    (rule : Rule)
    {head : Nat}
    (hHead : rule.head = some head) :
    rule.mirror.head = some (rule.length - 1 - head) :=
  Option.map_eq_some_iff.mpr ⟨head, hHead, rfl⟩

/- The head is the same daughter as before. -/
@[simp] theorem headSymbol_mirror
    (rule : Rule) :
    rule.mirror.headSymbol = rule.headSymbol := by
  unfold headSymbol
  cases hHead : rule.head with
  | none => simp [mirror, hHead]
  | some head =>
      have hBound : head < rule.length :=
        rule.head_lt head hHead
      rw [rule.head_mirror hHead]
      exact rule.daughter_mirror (by omega)

/- Turning a rule around twice gives it back. -/
@[simp] theorem mirror_mirror
    (rule : Rule) :
    rule.mirror.mirror = rule := by
  have hHead : rule.mirror.mirror.head = rule.head := by
    cases hHead : rule.head with
    | none => simp [mirror, hHead]
    | some head =>
        have hBound : head < rule.length :=
          rule.head_lt head hHead
        rw [rule.mirror.head_mirror (rule.head_mirror hHead),
          length_mirror, Option.some.injEq]
        omega
  have hRhs : rule.mirror.mirror.rhs = rule.rhs :=
    List.reverse_reverse rule.rhs
  rcases rule with ⟨lhs, rhs, head, hNone, hLt⟩
  rw [Rule.mk.injEq]
  exact ⟨rfl, hRhs, hHead⟩

end Rule

------------------------------------------------------------
-- Grammars Turned Around
------------------------------------------------------------

namespace Grammar

/- The same rules in the same order, each turned around. -/
def mirror
    (G : Grammar) : Grammar :=
  ofRules (G.rules.map Rule.mirror) (by
    rw [Array.size_map]
    exact G.size_pos)

/-
  The second grammar has the rules of the first one turned
  around, at the same places of the rule table.
-/
structure Mirrors
    (G H : Grammar) : Prop where
  size_eq : G.rules.size = H.rules.size
  rule_cast : ∀ r : G.RuleId,
    H.rule (r.cast size_eq) = (G.rule r).mirror

theorem mirrors_mirror
    (G : Grammar) :
    G.Mirrors G.mirror where
  size_eq := by
    simp only [mirror, ofRules, Array.size_map]
  rule_cast := by
    intro r
    exact Array.getElem_map ..

namespace Mirrors

variable {G H : Grammar}

/- Each of the two grammars turns the other one around. -/
theorem symm
    (hMirrors : G.Mirrors H) :
    H.Mirrors G where
  size_eq := hMirrors.size_eq.symm
  rule_cast := by
    intro r
    have hRule :=
      hMirrors.rule_cast (r.cast hMirrors.size_eq.symm)
    change H.rule r = _ at hRule
    rw [hRule, Rule.mirror_mirror]

/- A rule is the same rule to both grammars. -/
def place
    (hMirrors : G.Mirrors H)
    (r : G.RuleId) : H.RuleId :=
  r.cast hMirrors.size_eq

variable (hMirrors : G.Mirrors H)

include hMirrors

@[simp] theorem rule_place
    (r : G.RuleId) :
    H.rule (hMirrors.place r) = (G.rule r).mirror :=
  hMirrors.rule_cast r

@[simp] theorem place_symm
    (r : G.RuleId) :
    hMirrors.symm.place (hMirrors.place r) = r :=
  rfl

/- Both grammars have the same nonterminals. -/
theorem isNonterminal_eq
    (symbol : Symbol) :
    H.isNonterminal symbol = G.isNonterminal symbol := by
  have hHalf :
      ∀ {G H : Grammar}, G.Mirrors H →
        G.isNonterminal symbol = true →
          H.isNonterminal symbol = true := by
    intro G H hMirrors hSymbol
    rcases G.isNonterminal_iff.mp hSymbol with ⟨r, rfl⟩
    exact H.isNonterminal_iff.mpr
      ⟨hMirrors.place r, by simp⟩
  exact Bool.eq_iff_iff.mpr
    ⟨hHalf hMirrors.symm, hHalf hMirrors⟩

/- Both grammars have the same head corners. -/
theorem isHeadCornerOf_eq
    (lower upper : Symbol) :
    H.isHeadCornerOf lower upper =
      G.isHeadCornerOf lower upper := by
  have hDaughter :
      ∀ {G H : Grammar}, G.Mirrors H →
        ∀ upper lower,
          G.Daughter Rule.headSymbol upper lower →
            H.Daughter Rule.headSymbol upper lower := by
    rintro G H hMirrors _ lower ⟨r, rfl, hHead⟩
    exact ⟨hMirrors.place r, by simp, by simpa using hHead⟩
  rw [Bool.eq_iff_iff, H.isHeadCornerOf_iff,
    G.isHeadCornerOf_iff]
  exact
    ⟨Relation.ReflTransGen.mono (hDaughter hMirrors.symm) _ _,
      Relation.ReflTransGen.mono (hDaughter hMirrors) _ _⟩

theorem isHeadCornerOf_place
    {r : G.RuleId}
    {upper : Symbol}
    (hCorner : G.isHeadCornerOf (G.rule r).lhs upper = true) :
    H.isHeadCornerOf (H.rule (hMirrors.place r)).lhs upper =
      true := by
  rwa [hMirrors.isHeadCornerOf_eq, hMirrors.rule_place]

/-
  The daughter behind a dot is found again before the dot
  turned around.
-/
theorem daughter_place
    {r : G.RuleId}
    {dot : Nat}
    {symbol : Symbol}
    (hDaughter : (G.rule r).rhs[dot]? = some symbol) :
    (G.rule r).length - dot =
        (G.rule r).length - (dot + 1) + 1 ∧
      (H.rule (hMirrors.place r)).rhs[
        (G.rule r).length - (dot + 1)]? = some symbol := by
  have hBound : dot < (G.rule r).length :=
    (List.getElem?_eq_some_iff.mp hDaughter).1
  refine ⟨by omega, ?_⟩
  rw [hMirrors.rule_place]
  exact ((G.rule r).daughter_mirror (by omega)).trans
    hDaughter

theorem head_place
    {r : G.RuleId}
    {head : Nat}
    (hHead : (G.rule r).head = some head) :
    (H.rule (hMirrors.place r)).head =
      some ((G.rule r).length - (head + 1)) := by
  rw [hMirrors.rule_place, (G.rule r).head_mirror hHead,
    Nat.sub_sub, Nat.add_comm 1 head]

end Mirrors

end Grammar

end Constituency
