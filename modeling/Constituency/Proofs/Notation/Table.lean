import Constituency.Notation.Draft

/-
  This file defines rule tables as syntax trees, whose shape
  is that of the notation

    table  = (clause `;`)* clause?
    clause = name `->` row (`|` row)*
    row    = ((name | quoted) `*`?)*

  and shows that drafts read exactly the lexemes of such
  trees, and end with the alternatives that they write down.

  Key definitions include:
    * `Term`
    * `Member`
    * `Row`
    * `Clause`
    * `RuleTable`
    * `Draft.pushAll?`
    * `Draft.Reads`

  Main declarations:
    * `RuleTable.exists_pushAll?`
    * `Draft.Reads.push`
    * `Draft.Reads.exists_table`
    * `exists_table_iff`
-/

namespace Constituency

namespace Notation

------------------------------------------------------------
-- Syntax Trees
------------------------------------------------------------

/- A right-hand symbol as it is written. -/
inductive Term where
  | name (letters : List Char)
  | quoted (content : List Char)

namespace Term

def lexeme : Term → Lexeme
  | name letters => .name letters
  | quoted content => .quoted content

/- Quotes are no part of a symbol. -/
def symbol : Term → Symbol
  | name letters => String.ofList letters
  | quoted content => String.ofList content

end Term

/- A right-hand symbol, which may be followed by `*`. -/
structure Member where
  term : Term
  marked : Bool

namespace Member

def lexemes
    (member : Member) : List Lexeme :=
  member.term.lexeme ::
    if member.marked then [.star] else []

def entry
    (member : Member) : Symbol × Bool :=
  (member.term.symbol, member.marked)

end Member

/- One alternative. -/
abbrev Row :=
  List Member

namespace Row

def lexemes
    (row : Row) : List Lexeme :=
  row.flatMap Member.lexemes

def spec
    (lhs : List Char)
    (row : Row) : RuleSpec :=
  ⟨String.ofList lhs, row.map Member.entry⟩

end Row

/- A left-hand side and its alternatives. -/
structure Clause where
  lhs : List Char
  first : Row
  others : List Row

namespace Clause

def lexemes
    (clause : Clause) : List Lexeme :=
  .name clause.lhs :: .arrow :: (clause.first.lexemes ++
    clause.others.flatMap (fun row => .bar :: row.lexemes))

def specs
    (clause : Clause) : List RuleSpec :=
  (clause.first :: clause.others).map (Row.spec clause.lhs)

/- The lexemes of clauses that `;` follows. -/
def closedLexemes
    (clauses : List Clause) : List Lexeme :=
  clauses.flatMap
    (fun clause => clause.lexemes ++ [.semicolon])

end Clause

/- Clauses with `;` after each but possibly the last. -/
structure RuleTable where
  closed : List Clause
  last : Option Clause

namespace RuleTable

def lexemes
    (table : RuleTable) : List Lexeme :=
  Clause.closedLexemes table.closed ++
    table.last.toList.flatMap Clause.lexemes

/- The alternatives that the table writes down, in order. -/
def specs
    (table : RuleTable) : List RuleSpec :=
  table.closed.flatMap Clause.specs ++
    table.last.toList.flatMap Clause.specs

end RuleTable

------------------------------------------------------------
-- Reading Several Lexemes
------------------------------------------------------------

namespace Draft

/- Read lexemes one after the other. -/
def pushAll?
    (draft : Draft)
    (lexemes : List Lexeme) : Option Draft :=
  lexemes.foldlM Draft.push? draft

@[simp]
theorem pushAll?_nil
    (draft : Draft) :
    draft.pushAll? [] = some draft :=
  rfl

@[simp]
theorem pushAll?_cons
    (draft : Draft)
    (lexeme : Lexeme)
    (lexemes : List Lexeme) :
    draft.pushAll? (lexeme :: lexemes) =
      (draft.push? lexeme).bind (·.pushAll? lexemes) :=
  List.foldlM_cons

theorem pushAll?_append
    (draft : Draft)
    (front back : List Lexeme) :
    draft.pushAll? (front ++ back) =
      (draft.pushAll? front).bind (·.pushAll? back) :=
  List.foldlM_append

/- A mark goes to the symbol before it. -/
@[simp]
theorem markLast_append
    (rhs : List (Symbol × Bool))
    (entry : Symbol × Bool) :
    markLast (rhs ++ [entry]) = rhs ++ [(entry.1, true)] := by
  induction rhs with
  | nil => rfl
  | cons first rhs ih =>
      cases rhs with
      | nil => rfl
      | cons second rhs =>
          simp only [List.cons_append, markLast] at ih ⊢
          rw [ih]

end Draft

------------------------------------------------------------
-- Trees Are Read
------------------------------------------------------------

/- Reading a member adds it to the alternative begun. -/
theorem Member.pushAll?_lexemes
    (member : Member)
    (done : List RuleSpec)
    (lhs : Symbol)
    (rhs : List (Symbol × Bool))
    (markable : Bool) :
    (Draft.inside done lhs rhs markable).pushAll?
        member.lexemes =
      some (.inside done lhs (rhs ++ [member.entry])
        (!member.marked)) := by
  rcases member with ⟨term, marked⟩
  cases term <;> cases marked <;>
    simp [lexemes, entry, Term.lexeme, Term.symbol,
      Draft.push?]

namespace Row

/- Reading a row adds it to the alternative begun. -/
theorem exists_pushAll?
    (row : Row)
    (done : List RuleSpec)
    (lhs : Symbol)
    (rhs : List (Symbol × Bool))
    (markable : Bool) :
    ∃ later,
      (Draft.inside done lhs rhs markable).pushAll?
          row.lexemes =
        some (.inside done lhs
          (rhs ++ row.map Member.entry) later) := by
  induction row generalizing rhs markable with
  | nil => exact ⟨markable, by simp [lexemes]⟩
  | cons member row ih =>
      rcases ih (rhs ++ [member.entry]) (!member.marked) with
        ⟨later, hRow⟩
      refine ⟨later, ?_⟩
      change Draft.pushAll? _
        (member.lexemes ++ Row.lexemes row) = _
      rw [Draft.pushAll?_append, member.pushAll?_lexemes,
        Option.bind_some, hRow, List.append_assoc]
      rfl

/- Reading further rows adds an alternative for each. -/
theorem exists_pushAll?_others
    (rows : List Row)
    (lhs : List Char)
    (done : List RuleSpec)
    (rhs : List (Symbol × Bool))
    (markable : Bool) :
    ∃ before last later,
      (Draft.inside done (String.ofList lhs) rhs
          markable).pushAll?
          (rows.flatMap (fun row => .bar :: row.lexemes)) =
        some (.inside before (String.ofList lhs) last later) ∧
      before ++ [⟨String.ofList lhs, last⟩] =
        done ++ ⟨String.ofList lhs, rhs⟩ ::
          rows.map (Row.spec lhs) := by
  induction rows generalizing done rhs markable with
  | nil => exact ⟨done, rhs, markable, by simp, by simp⟩
  | cons row rows ih =>
      rcases row.exists_pushAll?
          (done ++ [⟨String.ofList lhs, rhs⟩])
          (String.ofList lhs) [] false with
        ⟨between, hRow⟩
      rcases ih (done ++ [⟨String.ofList lhs, rhs⟩])
          (row.map Member.entry) between with
        ⟨before, last, later, hRows, hSpecs⟩
      refine ⟨before, last, later, ?_, ?_⟩
      · rw [List.flatMap_cons, List.cons_append,
          Draft.pushAll?_cons]
        change Draft.pushAll? _ (row.lexemes ++ _) = _
        rw [Draft.pushAll?_append, hRow]
        exact hRows
      · rw [hSpecs]
        simp [Row.spec]

end Row

/- Reading a clause ends inside its last alternative. -/
theorem Clause.exists_pushAll?
    (clause : Clause)
    (done : List RuleSpec) :
    ∃ before lhs last later,
      (Draft.between done).pushAll? clause.lexemes =
        some (.inside before lhs last later) ∧
      before ++ [⟨lhs, last⟩] = done ++ clause.specs := by
  rcases clause.first.exists_pushAll? done
      (String.ofList clause.lhs) [] false with
    ⟨markable, hFirst⟩
  rcases Row.exists_pushAll?_others clause.others clause.lhs
      done (clause.first.map Member.entry) markable with
    ⟨before, last, later, hOthers, hSpecs⟩
  refine ⟨before, String.ofList clause.lhs, last, later,
    ?_, hSpecs⟩
  change Draft.pushAll? (.inside done _ [] false) _ = _
  rw [Draft.pushAll?_append, hFirst]
  exact hOthers

/- Reading closed clauses ends between clauses. -/
theorem Clause.pushAll?_closedLexemes
    (clauses : List Clause)
    (done : List RuleSpec) :
    (Draft.between done).pushAll? (closedLexemes clauses) =
      some (.between (done ++ clauses.flatMap specs)) := by
  induction clauses generalizing done with
  | nil => simp [closedLexemes]
  | cons clause clauses ih =>
      rcases clause.exists_pushAll? done with
        ⟨before, lhs, last, later, hClause, hSpecs⟩
      change Draft.pushAll? _
        ((clause.lexemes ++ [.semicolon]) ++
          closedLexemes clauses) = _
      rw [Draft.pushAll?_append, Draft.pushAll?_append,
        hClause]
      change Draft.pushAll?
        (.between (before ++ [⟨lhs, last⟩])) _ = _
      rw [hSpecs, ih, List.append_assoc]
      rfl

/- The text may end after a table, and writes it down. -/
theorem RuleTable.exists_pushAll?
    (table : RuleTable) :
    ∃ draft,
      Draft.empty.pushAll? table.lexemes = some draft ∧
        draft.finish? = some table.specs := by
  rcases table with ⟨closed, last⟩
  have hClosed := Clause.pushAll?_closedLexemes closed []
  unfold RuleTable.lexemes RuleTable.specs Draft.empty
  rw [Draft.pushAll?_append, hClosed]
  cases last with
  | none => exact ⟨_, rfl, by simp [Draft.finish?]⟩
  | some clause =>
      rcases clause.exists_pushAll?
          ([] ++ closed.flatMap Clause.specs) with
        ⟨before, lhs, rhs, later, hClause, hSpecs⟩
      refine ⟨_, by simpa using hClause, ?_⟩
      simpa [Draft.finish?] using hSpecs

------------------------------------------------------------
-- What Is Read Is A Tree
------------------------------------------------------------

namespace Clause

/- The clause with these rows, the last one apart. -/
def ofRows
    (lhs : List Char)
    (row : Row) : List Row → Clause
  | [] => ⟨lhs, row, []⟩
  | first :: others => ⟨lhs, first, others ++ [row]⟩

theorem lexemes_ofRows
    (lhs : List Char)
    (row : Row)
    (earlier : List Row) :
    (ofRows lhs row earlier).lexemes =
      .name lhs :: .arrow ::
        (earlier.flatMap (fun other => other.lexemes ++ [.bar])
          ++ row.lexemes) := by
  have hBars : ∀ rows : List Row,
      rows.flatMap (fun other => .bar :: other.lexemes) ++
          .bar :: row.lexemes =
        .bar :: (rows.flatMap
          (fun other => other.lexemes ++ [.bar]) ++
            row.lexemes) := by
    intro rows
    induction rows with
    | nil => rfl
    | cons other rows ih => simp [ih]
  cases earlier with
  | nil => simp [ofRows, lexemes]
  | cons first others =>
      simp [ofRows, lexemes, hBars]

theorem specs_ofRows
    (lhs : List Char)
    (row : Row)
    (earlier : List Row) :
    (ofRows lhs row earlier).specs =
      earlier.map (Row.spec lhs) ++ [row.spec lhs] := by
  cases earlier <;> simp [ofRows, specs]

end Clause

namespace Draft

/-
  The draft after reading these lexemes: some clauses closed
  by `;`, and perhaps a part of the next one. Only a symbol
  without a mark can still be marked.
-/
inductive Reads : List Lexeme → Draft → Prop
  | between
      (closed : List Clause) :
      Reads (Clause.closedLexemes closed)
        (.between (closed.flatMap Clause.specs))
  | named
      (closed : List Clause)
      (lhs : List Char) :
      Reads (Clause.closedLexemes closed ++ [.name lhs])
        (.named (closed.flatMap Clause.specs)
          (String.ofList lhs))
  | inside
      (closed : List Clause)
      (lhs : List Char)
      (earlier : List Row)
      (row : Row)
      (markable : Bool)
      (hMarkable : markable = true →
        ∃ front term, row = front ++ [⟨term, false⟩]) :
      Reads
        (Clause.closedLexemes closed ++
          (Clause.ofRows lhs row earlier).lexemes)
        (.inside
          (closed.flatMap Clause.specs ++
            earlier.map (Row.spec lhs))
          (String.ofList lhs)
          (row.map Member.entry) markable)

namespace Reads

variable {lexemes : List Lexeme}
variable {draft next : Draft}

/- One more symbol can be read inside an alternative. -/
theorem term
    (closed : List Clause)
    (lhs : List Char)
    (earlier : List Row)
    (row : Row)
    (term : Term) :
    Reads
      (Clause.closedLexemes closed ++
        (Clause.ofRows lhs row earlier).lexemes ++
          [term.lexeme])
      (.inside
        (closed.flatMap Clause.specs ++
          earlier.map (Row.spec lhs))
        (String.ofList lhs)
        (row.map Member.entry ++ [(term.symbol, false)])
        true) := by
  have hReads := Reads.inside closed lhs earlier
    (row ++ [⟨term, false⟩]) true (fun _ => ⟨row, term, rfl⟩)
  simpa [Clause.lexemes_ofRows, Row.lexemes, Member.lexemes,
    Member.entry] using hReads

/- One more lexeme keeps to the shape of the notation. -/
theorem push
    (hReads : Reads lexemes draft)
    {lexeme : Lexeme}
    (hPush : draft.push? lexeme = some next) :
    Reads (lexemes ++ [lexeme]) next := by
  cases hReads with
  | between closed =>
      cases lexeme with
      | name letters =>
          cases hPush
          exact .named closed letters
      | _ => cases hPush
  | named closed lhs =>
      cases lexeme with
      | arrow =>
          cases hPush
          have hReads :=
            Reads.inside closed lhs [] [] false (by simp)
          simpa [Clause.lexemes_ofRows, Row.lexemes]
            using hReads
      | _ => cases hPush
  | inside closed lhs earlier row markable hMarkable =>
      cases lexeme with
      | name letters =>
          cases hPush
          exact term closed lhs earlier row (.name letters)
      | quoted content =>
          cases hPush
          exact term closed lhs earlier row (.quoted content)
      | star =>
          cases markable with
          | false => cases hPush
          | true =>
              cases hPush
              -- The last symbol is unmarked, so it can be.
              rcases hMarkable rfl with ⟨front, term, rfl⟩
              have hReads := Reads.inside closed lhs earlier
                (front ++ [⟨term, true⟩]) false (by simp)
              simpa [Clause.lexemes_ofRows, Row.lexemes,
                Member.lexemes, Member.entry] using hReads
      | bar =>
          cases hPush
          have hReads := Reads.inside closed lhs
            (earlier ++ [row]) [] false (by simp)
          simpa [Clause.lexemes_ofRows, Row.lexemes,
            Row.spec] using hReads
      | semicolon =>
          cases hPush
          have hReads := Reads.between
            (closed ++ [Clause.ofRows lhs row earlier])
          simpa [Clause.closedLexemes, Clause.specs_ofRows,
            Row.spec] using hReads
      | arrow => cases hPush

/- Reading on keeps to the shape of the notation. -/
theorem pushAll
    (hReads : Reads lexemes draft)
    {more : List Lexeme}
    (hPush : draft.pushAll? more = some next) :
    Reads (lexemes ++ more) next := by
  induction more generalizing lexemes draft with
  | nil =>
      cases hPush
      simpa using hReads
  | cons lexeme more ih =>
      rw [pushAll?_cons, Option.bind_eq_some_iff] at hPush
      rcases hPush with ⟨middle, hFirst, hMore⟩
      have hAll := ih (hReads.push hFirst) hMore
      simpa using hAll

/- Where the text may end, a table has been read. -/
theorem exists_table
    (hReads : Reads lexemes draft)
    {specs : List RuleSpec}
    (hFinish : draft.finish? = some specs) :
    ∃ table : RuleTable,
      table.lexemes = lexemes ∧ table.specs = specs := by
  cases hReads with
  | between closed =>
      cases hFinish
      exact ⟨⟨closed, none⟩, by simp [RuleTable.lexemes],
        by simp [RuleTable.specs]⟩
  | named closed lhs => cases hFinish
  | inside closed lhs earlier row markable hMarkable =>
      cases hFinish
      refine ⟨⟨closed, some (Clause.ofRows lhs row earlier)⟩,
        by simp [RuleTable.lexemes], ?_⟩
      simp [RuleTable.specs, Clause.specs_ofRows, Row.spec]

end Reads

/- Nothing has been read at the start. -/
theorem reads_empty : Reads [] empty :=
  .between []

end Draft

/- Drafts read tables, and the text may end after no less. -/
theorem exists_table_iff
    {lexemes : List Lexeme}
    {specs : List RuleSpec} :
    (∃ table : RuleTable,
      table.lexemes = lexemes ∧ table.specs = specs) ↔
      ∃ draft, Draft.empty.pushAll? lexemes = some draft ∧
        draft.finish? = some specs := by
  constructor
  · rintro ⟨table, rfl, rfl⟩
    exact table.exists_pushAll?
  · intro hRead
    rcases hRead with ⟨draft, hPush, hFinish⟩
    exact (Draft.reads_empty.pushAll hPush).exists_table hFinish

end Notation

end Constituency
