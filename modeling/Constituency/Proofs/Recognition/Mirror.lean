import Constituency.Proofs.Grammar.Mirror
import Constituency.Proofs.Inference.Closure
import Constituency.Proofs.Parse.Outcome
import Mathlib.Data.Set.Image

/-
  This file shows that recognition from heads has no
  preferred direction: turning the grammar and the words
  around turns every item of the final chart around, and
  finds no others.

  Key definitions include:
    * `Span.mirror`
    * `ItemKey.mirror`

  Main declarations:
    * `ItemKey.mirror_mirror`
    * `Infers.mem_mirror`
    * `Closure.mem_mirror`
    * `Grammar.headCorner_mirror`
-/

namespace Constituency

variable {G H : Grammar}

------------------------------------------------------------
-- Keys Turned Around
------------------------------------------------------------

namespace Span

/- The span counted from the end of `n` words. -/
def mirror
    (n : Nat)
    (span : Span) : Span :=
  ⟨n - span.stop, n - span.start⟩

theorem mirror_mirror
    {n : Nat}
    {span : Span}
    (hOrder : span.start ≤ span.stop)
    (hStop : span.stop ≤ n) :
    (span.mirror n).mirror n = span := by
  rcases span with ⟨i, j⟩
  simp only [mirror, Span.mk.injEq] at hOrder hStop ⊢
  omega

end Span

namespace ItemKey

/-
  The same item of the grammar turned around, over `n` words
  turned around. A left dot becomes a right one.
-/
def mirror
    (hMirrors : G.Mirrors H)
    (n : Nat) : ItemKey G → ItemKey H
  | .single r dot span =>
      .single (hMirrors.place r) ((G.rule r).length - dot)
        (span.mirror n)
  | .double r left right span =>
      .double (hMirrors.place r) ((G.rule r).length - right)
        ((G.rule r).length - left) (span.mirror n)
  | .goal symbol span => .goal symbol (span.mirror n)
  | .completed r span =>
      .completed (hMirrors.place r) (span.mirror n)

/- Turning a key around twice gives it back. -/
theorem mirror_mirror
    (hMirrors : G.Mirrors H)
    {n : Nat}
    {key : ItemKey G}
    (hKey : key.WellFormed)
    (hStop : key.span.stop ≤ n) :
    (key.mirror hMirrors n).mirror hMirrors.symm n = key := by
  have hSpan := Span.mirror_mirror hKey.start_le_stop hStop
  cases key with
  | single r dot span =>
      rcases span with ⟨i, j⟩
      rw [wellFormed_single_iff] at hKey
      simp only [mirror, single.injEq,
        Grammar.Mirrors.place_symm,
        Grammar.Mirrors.rule_place, Rule.length_mirror]
      exact ⟨trivial, by omega, hSpan⟩
  | double r left right span =>
      rcases span with ⟨i, j⟩
      rw [wellFormed_double_iff] at hKey
      simp only [mirror, double.injEq,
        Grammar.Mirrors.place_symm,
        Grammar.Mirrors.rule_place, Rule.length_mirror]
      exact ⟨trivial, by omega, by omega, hSpan⟩
  | goal symbol span =>
      simp only [mirror, goal.injEq]
      exact ⟨trivial, hSpan⟩
  | completed r span =>
      simp only [mirror, completed.injEq,
        Grammar.Mirrors.place_symm]
      exact ⟨trivial, hSpan⟩

end ItemKey

------------------------------------------------------------
-- Inference Turned Around
------------------------------------------------------------

section

variable {hMirrors : G.Mirrors H}
variable {n : Nat}
variable {known : List (Item G)}
variable {others : List (Item H)}

/- A demand is made again over the span turned around. -/
theorem Demanded.mirror
    (hKnown : ∀ x ∈ known,
      x.key.mirror hMirrors n ∈ others.map Item.key)
    {r : G.RuleId}
    {h m : Nat}
    (hDemanded : Demanded known r ⟨h, m⟩) :
    Demanded others (hMirrors.place r) ⟨n - m, n - h⟩ := by
  rcases hDemanded with ⟨upper, hGoal, hCorner⟩
  rcases List.mem_map.mp hGoal with ⟨goal, hMember, hKey⟩
  have hMirror := hKnown goal hMember
  rw [hKey] at hMirror
  exact ⟨upper, hMirror,
    hMirrors.isHeadCornerOf_place hCorner⟩

end

/- A word is found again from the other end. -/
theorem getElem?_reverse_of_some
    {words : List Symbol}
    {k : Nat}
    {a : Symbol}
    (hWord : words[k]? = some a) :
    words.length - k = words.length - (k + 1) + 1 ∧
      words.reverse[words.length - (k + 1)]? = some a := by
  have hBound := (List.getElem?_eq_some_iff.mp hWord).1
  refine ⟨by omega, ?_⟩
  exact (List.getElem?_reverse' (by omega)).trans hWord

section

variable {hMirrors : G.Mirrors H}
variable {words : List Symbol}
variable {seeds others : List (Item H)}

/-
  If the known keys turned around are in a closure, so is
  what follows from them: each rule of inference turns into
  the one for the other side.
-/
theorem Infers.mem_mirror
    {known : List (Item G)}
    {item new : Item G}
    (hOthers :
      Closure words.reverse [.combine] seeds others)
    (hKnown : ∀ x ∈ known,
      x.key.mirror hMirrors words.length ∈
        others.map Item.key)
    (hItem : item ∈ known)
    (hInfers : Infers words known .combine item new) :
    new.key.mirror hMirrors words.length ∈
      others.map Item.key := by
  have hKey := hKnown item hItem
  have hFound :
      ∀ {b : G.RuleId} {i j : Nat} {below : List (Item G)},
        ⟨.completed b ⟨i, j⟩, below⟩ ∈ known →
          .completed (hMirrors.place b)
              ⟨words.length - j, words.length - i⟩ ∈
            others.map Item.key :=
    fun hMember => hKnown _ hMember
  have hTerminal :
      ∀ {a : Symbol}, G.isNonterminal a = false →
        H.isNonterminal a = false :=
    fun hTerminal =>
      (hMirrors.isNonterminal_eq _).trans hTerminal
  have hEnds :
      ∀ {i j : Nat}, i ≤ j →
        words.length - j ≤ words.length - i :=
    fun hOrder => Nat.sub_le_sub_left hOrder words.length
  cases hInfers with
  | preComplete =>
      apply hOthers.preComplete
      rw [hMirrors.rule_place, Rule.length_mirror]
      simpa only [ItemKey.mirror, Nat.sub_self,
        Nat.sub_zero] using hKey
  | predictLeft hDemanded hDaughter hStart hSpan hStop =>
      rcases hMirrors.daughter_place hDaughter with
        ⟨_, hMirror⟩
      exact hOthers.predictRight hKey
        (hDemanded.mirror hKnown) hMirror (hEnds hStop)
        (hEnds hSpan) (hEnds hStart)
  | predictRight hDemanded hDaughter hStart hSpan hStop =>
      rcases hMirrors.daughter_place hDaughter with
        ⟨hDot, hMirror⟩
      rw [ItemKey.mirror, hDot] at hKey
      exact hOthers.predictLeft hKey
        (hDemanded.mirror hKnown) hMirror (hEnds hStop)
        (hEnds hSpan) (hEnds hStart)
  | completeLeft hDemanded hDaughter hBelow =>
      rcases hMirrors.daughter_place hDaughter with
        ⟨hDot, hMirror⟩
      rw [ItemKey.mirror, hDot]
      exact hOthers.completeRight hKey
        (hDemanded.mirror hKnown) (by simpa using hMirror)
        (hFound hBelow)
  | completeRight hDemanded hDaughter hBelow =>
      rcases hMirrors.daughter_place hDaughter with
        ⟨hDot, hMirror⟩
      rw [ItemKey.mirror, hDot] at hKey
      exact hOthers.completeLeft hKey
        (hDemanded.mirror hKnown) (by simpa using hMirror)
        (hFound hBelow)
  | scanLeft hDemanded hDaughter hName hWord hStart =>
      rcases hMirrors.daughter_place hDaughter with
        ⟨hDot, hMirror⟩
      rcases getElem?_reverse_of_some hWord with
        ⟨hPlace, hBack⟩
      have hBefore := hEnds hStart
      rw [hPlace] at hBefore
      rw [ItemKey.mirror, hDot, Span.mirror, hPlace]
      exact hOthers.scanRight hKey
        (hDemanded.mirror hKnown) hMirror (hTerminal hName)
        hBack hBefore
  | scanRight hDemanded hDaughter hName hWord hStop =>
      rcases hMirrors.daughter_place hDaughter with
        ⟨hDot, hMirror⟩
      rcases getElem?_reverse_of_some hWord with
        ⟨hPlace, hBack⟩
      rw [ItemKey.mirror, hDot, Span.mirror, hPlace] at hKey
      exact hOthers.scanLeft hKey
        (hDemanded.mirror hKnown) hMirror (hTerminal hName)
        hBack (hEnds hStop)
  | narrowFirst hStart hStop =>
      exact hOthers.narrow hKey (hEnds hStop) (hEnds hStart)
        (Nat.le_refl _)
  | narrowLast hStart hStop =>
      exact hOthers.narrow hKey (Nat.le_refl _) (hEnds hStop)
        (hEnds hStart)
  | scanHead hCorner hHead hDaughter hName hWord hStart
      hStop =>
      rcases hMirrors.daughter_place hDaughter with
        ⟨hDot, hMirror⟩
      rcases getElem?_reverse_of_some hWord with
        ⟨hPlace, hBack⟩
      have hBefore := hEnds hStart
      rw [hPlace] at hBefore
      rw [ItemKey.mirror, hDot, Span.mirror, hPlace]
      exact hOthers.scanHead hKey
        (hMirrors.isHeadCornerOf_place hCorner)
        (hMirrors.head_place hHead) hMirror
        (hTerminal hName) hBack (hEnds hStop) hBefore
  | @scanEmpty r _ _ _ _ _ hCorner hEmpty hStart hStop =>
      have hOther :
          (H.rule (hMirrors.place r)).rhs = [] := by
        rw [hMirrors.rule_place]
        exact List.reverse_eq_nil_iff.mpr hEmpty
      have hNone : (G.rule r).length = 0 :=
        List.length_eq_zero_iff.mpr hEmpty
      rw [ItemKey.mirror, hNone]
      exact hOthers.scanEmpty hKey
        (hMirrors.isHeadCornerOf_place hCorner) hOther
        (hEnds hStop) (hEnds hStart)
  | projectInside hBelow hCorner hHead hDaughter hStart
      hStop =>
      rcases hMirrors.daughter_place hDaughter with
        ⟨hDot, hMirror⟩
      rw [ItemKey.mirror, hDot]
      exact hOthers.project hKey (hFound hBelow)
        (hMirrors.isHeadCornerOf_place hCorner)
        (hMirrors.head_place hHead) (by simpa using hMirror)
        (hEnds hStop) (hEnds hStart)
  | projectUp hGoal hCorner hHead hDaughter hStart hStop =>
      rcases hMirrors.daughter_place hDaughter with
        ⟨hDot, hMirror⟩
      rcases List.mem_map.mp hGoal with
        ⟨goal, hMember, hSame⟩
      have hAround := hKnown goal hMember
      rw [hSame] at hAround
      rw [ItemKey.mirror, hDot]
      exact hOthers.project hAround (hFound hItem)
        (hMirrors.isHeadCornerOf_place hCorner)
        (hMirrors.head_place hHead) (by simpa using hMirror)
        (hEnds hStop) (hEnds hStart)

------------------------------------------------------------
-- Charts Turned Around
------------------------------------------------------------

/- All keys turned around are found the other way round. -/
theorem Closure.mem_mirror
    {start : Symbol}
    {items : List (Item G)}
    (hItems :
      Closure words Algorithm.headCorner.steps
        (Algorithm.headCorner.seeds G start words) items)
    (hOthers :
      Closure words.reverse Algorithm.headCorner.steps
        (Algorithm.headCorner.seeds H start words.reverse)
        others) :
    ∀ x ∈ items,
      x.key.mirror hMirrors words.length ∈
        others.map Item.key := by
  refine hItems.deduction.forall_mem ?_ ?_
  · intro first hFirst
    have hSeed := hOthers.seeded _ List.mem_cons_self
    rw [List.mem_singleton.mp hFirst]
    simpa [ItemKey.mirror, Span.mirror, Saturation.seed]
      using hSeed
  · intro known step item new hKnown hStep hItem hInfers
    rw [List.mem_singleton.mp hStep] at hInfers
    exact hInfers.mem_mirror hOthers hKnown hItem

end

namespace Grammar

/-
  Recognition from heads is the same in both directions:
  with the grammar and the words turned around, the final
  chart has the keys of the other one turned around.
-/
theorem headCorner_mirror
    {start : Symbol}
    (hStart : G.isNonterminal start = true)
    (words : List Symbol) :
    ∃ parse mirrored,
      (G.parse .headCorner start none words).result =
          .ok parse ∧
        (G.mirror.parse .headCorner start none
            words.reverse).result =
          .ok mirrored ∧
        {key | key ∈
            mirrored.chart.items.toList.map Item.key} =
          ItemKey.mirror G.mirrors_mirror words.length ''
            {key | key ∈
              parse.chart.items.toList.map Item.key} := by
  have hMirrors := G.mirrors_mirror
  have hOtherStart : G.mirror.isNonterminal start = true :=
    (hMirrors.isNonterminal_eq start).trans hStart
  rcases parse_closure .headCorner hStart words with
    ⟨parse, hParse, _, _, _, hItems⟩
  rcases parse_closure .headCorner hOtherStart
      words.reverse with
    ⟨mirrored, hMirrored, _, _, _, hOthers⟩
  refine ⟨parse, mirrored, hParse, hMirrored, ?_⟩
  apply Set.Subset.antisymm
  · intro key hKey
    rcases List.mem_map.mp hKey with ⟨x, hx, rfl⟩
    have hWellFormed :=
      hOthers.deduction.wellFormed Algorithm.wellFormed_seeds
        x hx
    have hStop :=
      hOthers.deduction.stop_le Algorithm.wellFormed_seeds
        Algorithm.stop_seeds x hx
    have hBack := @Closure.mem_mirror _ _ hMirrors.symm
      words.reverse parse.chart.items.toList start
      mirrored.chart.items.toList hOthers
      (by rwa [List.reverse_reverse]) x hx
    rw [List.length_reverse] at hStop hBack
    exact ⟨_, hBack,
      ItemKey.mirror_mirror hMirrors.symm hWellFormed hStop⟩
  · rintro _ ⟨key, hKey, rfl⟩
    rcases List.mem_map.mp hKey with ⟨x, hx, rfl⟩
    exact hItems.mem_mirror hOthers x hx

/- The rule `S -> S b*` turned around is `S -> b* S`. -/
theorem repeated_mirror :
    repeated.isNonterminal "S" = true ∧
      repeated.mirror.rules.toList.map Rule.rhs =
          [["b", "S"], []] ∧
        ∃ parse mirrored,
          (repeated.parse .headCorner "S" none
              ["b", "c"]).result = .ok parse ∧
            (repeated.mirror.parse .headCorner "S" none
                ["c", "b"]).result = .ok mirrored ∧
            {key | key ∈
                mirrored.chart.items.toList.map Item.key} =
              ItemKey.mirror repeated.mirrors_mirror 2 ''
                {key | key ∈
                  parse.chart.items.toList.map Item.key} := by
  have hStart : repeated.isNonterminal "S" = true := by
    decide
  have hRules :
      repeated.mirror.rules.toList.map Rule.rhs =
        [["b", "S"], []] := by
    decide +kernel
  exact ⟨hStart, hRules,
    headCorner_mirror hStart ["b", "c"]⟩

end Grammar

end Constituency
