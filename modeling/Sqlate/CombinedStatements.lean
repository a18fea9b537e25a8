/-
Sqlate/CombinedStatements.lean

What the text of `combineQueries` says.

The text is that of the first operand, the word UNION and that of the second.
In the grammar an operand without parentheses has no ORDER BY, no locks and no
limit, so that these clauses of a second operand are over the union
(`parsesAs_sorted`), and those of a first one are no SQL.  The union itself is
kept in `m_queryString` only, which rendering does not read: a builder that
`combineQueries` has filled takes part in the next one with what its members
say.

`combinesBoth_run` puts it together for every run of a pool of builders: a
union is one of exactly the two statements as long as the operands have none
of these clauses and have not been filled.
-/
import Sqlate.CombinedQueries
import Sqlate.LockModes
import Sqlate.UnionGrammar

namespace Sqlate

open SqlLexer (Closed Yields Follows lexemes)

variable {G : Phrases}

/-! ### The statement of a builder -/

/-- FROM and the joins, when the first numbered leaf gets number `n`. -/
def FromHas (n : Nat) (b : SqlSelectQueryBuilder) : Option (FromClause G) → Prop
  | none => b.table = [] ∧ b.joins = []
  | some f =>
      b.table = f.table.text ∧
        List.Forall₂ StmtJoin.Requested (SelectRequest.joinsFrom n b.joins) f.joins

/-- The statement has the clauses that the members of the builder say. -/
structure SelectStmt.HasClauses (s : SelectStmt G) (n : Nat) (b : SqlSelectQueryBuilder) : Prop where
  duplicates : s.duplicates.asked = (b.distinct, b.distinctOn)
  columns : s.targets.map StmtTarget.asked = b.columns
  fromClause : FromHas n b s.fromClause
  whereClause : ConditionRequested (b.whereCondition.toTree
    (n + (b.joins.flatMap fun j => j.condition.boundValues).length)) s.whereClause
  groupBy : s.groupBy.map Phrase.text = b.groupColumns
  orderBy : s.orderBy.map (fun e => (e.1.text, e.2)) = b.sortColumns
  locks : s.lockedTables = b.lockTablesForUpdate.map fun table => (table, b.lockNoWait)
  limit : s.limit = b.limit

/-- The builder says this, and its text is a sentence for it. -/
structure IsStatementOf (n : Nat) (b : SqlSelectQueryBuilder) (s : SelectStmt G) : Prop where
  clauses : s.HasClauses n b
  yields : Yields (b.textFrom n).toQString s.yield

/-- No ORDER BY, no locks and no limit. -/
structure SqlSelectQueryBuilder.Bare (b : SqlSelectQueryBuilder) : Prop where
  sortColumns : b.sortColumns = []
  lockTablesForUpdate : b.lockTablesForUpdate = []
  limit : b.limit = none

theorem lockedTables_eq_nil_iff (s : SelectStmt G) : s.lockedTables = [] ↔ s.locks = [] := by
  constructor
  · intro h
    cases hlocks : s.locks with
    | nil => rfl
    | cons l ls =>
        rw [SelectStmt.lockedTables, hlocks, List.flatMap_cons, List.append_eq_nil_iff,
          List.map_eq_nil_iff] at h
        exact absurd h.1 l.tables_ne
  · intro h
    rw [SelectStmt.lockedTables, h]
    rfl

theorem SelectStmt.HasClauses.tail_iff {s : SelectStmt G} {n : Nat} {b : SqlSelectQueryBuilder}
    (h : s.HasClauses n b) : s.tail = .none ↔ b.Bare := by
  constructor
  · intro htail
    obtain ⟨horder, hlocks, hlimit⟩ : s.orderBy = [] ∧ s.locks = [] ∧ s.limit = none := by
      simpa [tail, Tail.none] using htail
    constructor
    · rw [← h.orderBy, horder]
      rfl
    · have hlocked := h.locks
      rw [(lockedTables_eq_nil_iff s).mpr hlocks] at hlocked
      exact List.map_eq_nil_iff.mp hlocked.symm
    · rw [← h.limit, hlimit]
  · intro hbare
    have horder : s.orderBy = [] := by
      have hcolumns := h.orderBy
      rw [hbare.sortColumns] at hcolumns
      exact List.map_eq_nil_iff.mp hcolumns
    have hlocks : s.locks = [] := by
      have hlocked := h.locks
      rw [hbare.lockTablesForUpdate] at hlocked
      exact (lockedTables_eq_nil_iff s).mp hlocked
    have hlimit : s.limit = none := h.limit.trans hbare.limit
    rw [SelectStmt.tail, horder, hlocks, hlimit]
    rfl

/-! ### The text of a union -/

def combinedText (b1 : SqlSelectQueryBuilder) (n1 : Nat) (type : UnionType)
    (b2 : SqlSelectQueryBuilder) (n2 : Nat) : SqlText :=
  b1.textFrom n1 ++ unionName type ++ b2.textFrom n2

theorem follows_unionName (type : UnionType) {t : QString} {ws : List QString} (ht : Yields t ws) :
    Follows ((unionName type).toQString ++ t) (unionWords type ++ ws) := by
  have hfresh : SqlLexer.fresh (unionName type).toQString := by cases type <;> decide
  have hwords : lexemes (unionName type).toQString = unionWords type := by cases type <;> decide
  refine ⟨?_, hwords ▸ ht.fresh_append hfresh⟩
  cases type <;> rfl

/-- Behind a text whose quotes and comments are closed, UNION is read. -/
theorem lexemes_combinedText {b1 b2 : SqlSelectQueryBuilder} {n1 n2 : Nat} (type : UnionType)
    (h : Closed (b1.textFrom n1).toQString) :
    lexemes (combinedText b1 n1 type b2 n2).toQString =
      lexemes (b1.textFrom n1).toQString ++ (unionWords type
        ++ lexemes (b2.textFrom n2).toQString) := by
  have hfresh : SqlLexer.fresh (unionName type).toQString := by cases type <;> decide
  have hwords : lexemes (unionName type).toQString = unionWords type := by cases type <;> decide
  have hdelimits : ∀ t, SqlLexer.delimits ((unionName type).toQString ++ t) := by
    intro t
    cases type <;> rfl
  rw [combinedText, SqlText.toQString_append, SqlText.toQString_append, List.append_assoc,
    SqlLexer.lexemes_append_of_delimits h (hdelimits _), SqlLexer.lexemes_append_of_fresh hfresh,
    hwords]

/-- Every text begins with SELECT. -/
theorem exists_lexemes_textFrom (n : Nat) (b : SqlSelectQueryBuilder) :
    ∃ ws, lexemes (b.textFrom n).toQString = latin1 "SELECT" :: ws := by
  have hfresh : SqlLexer.fresh (latin1 "SELECT ") := by decide
  have hword : lexemes (latin1 "SELECT ") = kw "SELECT" := by decide
  refine ⟨(lexemes (b.textFrom n).toQString).tail, ?_⟩
  simp only [SqlSelectQueryBuilder.textFrom, SqlSelectQueryBuilder.selectClause, List.append_assoc]
  rw [SqlText.toQString_append, SqlText.toQString_sql, SqlLexer.lexemes_append_of_fresh hfresh, hword]
  rfl

/-- **The clauses of a second operand are over the union.** -/
theorem parsesAs_sorted {b1 b2 : SqlSelectQueryBuilder} {n1 n2 : Nat} {s1 s2 : SelectStmt G}
    (type : UnionType) (h1 : IsStatementOf n1 b1 s1) (hbare : b1.Bare) (h2 : IsStatementOf n2 b2 s2) :
    ParsesAs (combinedText b1 n1 type b2 n2).toQString
      ((Query.union type (.select s1) (.select s2.withoutTail)).withTail s2.tail) := by
  have hyields := h1.yields.follows (follows_unionName type h2.yields)
  rw [← List.append_assoc, ← SqlText.toQString_append, ← SqlText.toQString_append] at hyields
  refine ⟨hyields.closed, .union type (.operand (.simple s1 (h1.clauses.tail_iff.mpr hbare)))
    (.simple s2.withoutTail rfl), s2.tail, ?_, rfl⟩
  show s1.yield ++ unionWords type ++ s2.withoutTail.yield ++ s2.tail.yield = _
  rw [combinedText, hyields.lexemes, List.append_assoc, ← s2.yield_eq_withoutTail, List.append_assoc]

/-! ### What a builder stands for -/

/-- A builder stands for what its members say, or for the union it was filled with. -/
inductive Content
  | members (b : SqlSelectQueryBuilder)
  | union (type : UnionType) (first second : Content)

/-- The query is what is stood for; the numbers of the operands of an earlier union
are not looked at. -/
def Content.Is : Nat → Content → Query G → Prop
  | n, .members b, q => ∃ s, q = .select s ∧ IsStatementOf n b s
  | _, .union type first second, q =>
      ∃ q1 q2, q = .union type q1 q2 ∧ (∃ n1, first.Is n1 q1) ∧ ∃ n2, second.Is n2 q2

/-- The text is the union of exactly what the two operands stand for. -/
def UnionOfBoth (G : Phrases) (type : UnionType) (n1 : Nat) (c1 : Content) (n2 : Nat) (c2 : Content)
    (text : QString) : Prop :=
  ∃ q1 q2 : Query G, c1.Is n1 q1 ∧ c2.Is n2 q2 ∧ ParsesAs text (.union type q1 q2)

/-- What the members say is a statement without the clauses of a tail. -/
def SqlSelectQueryBuilder.IsOperand (G : Phrases) (n : Nat) (b : SqlSelectQueryBuilder) : Prop :=
  b.Bare ∧ ∃ s : SelectStmt G, IsStatementOf n b s

section
variable {b1 b2 : SqlSelectQueryBuilder} {n1 n2 : Nat} {c1 c2 : Content} {type : UnionType}

theorem unionOfBoth_of_isOperand (type : UnionType) (h1 : b1.IsOperand G n1) (h2 : b2.IsOperand G n2) :
    UnionOfBoth G type n1 (.members b1) n2 (.members b2) (combinedText b1 n1 type b2 n2).toQString := by
  obtain ⟨hbare1, s1, hs1⟩ := h1
  obtain ⟨hbare2, s2, hs2⟩ := h2
  have htail : s2.tail = .none := hs2.clauses.tail_iff.mpr hbare2
  have hwithout : s2.withoutTail = s2 := by
    obtain ⟨horder, hlocks, hlimit⟩ : s2.orderBy = [] ∧ s2.locks = [] ∧ s2.limit = none := by
      simpa [SelectStmt.tail, Tail.none] using htail
    rw [SelectStmt.withoutTail, ← horder, ← hlocks, ← hlimit]
  refine ⟨.select s1, .select s2, ⟨s1, rfl, hs1⟩, ⟨s2, rfl, hs2⟩, ?_⟩
  have hparses := parsesAs_sorted type hs1 hbare1 hs2
  rw [htail, hwithout] at hparses
  exact hparses

/-- The two sides of the union that the text is read as. -/
theorem UnionOfBoth.exists_sides (h : UnionOfBoth G type n1 c1 n2 c2
      (combinedText b1 n1 type b2 n2).toQString)
    (hclosed : Closed (b1.textFrom n1).toQString) :
    ∃ (left : SetClause G) (right : SetOperand G), c1.Is n1 left.query ∧ c2.Is n2 right.query ∧
      left.yield ++ (unionWords type ++ right.yield) =
        lexemes (b1.textFrom n1).toQString ++ (unionWords type
          ++ lexemes (b2.textFrom n2).toQString) := by
  obtain ⟨q1, q2, h1, h2, -, clause, tail, hyield, hquery⟩ := h
  obtain ⟨rfl, hclause⟩ := Query.union_of_withTail hquery
  rw [lexemes_combinedText type hclosed] at hyield
  obtain ⟨ws, hselect⟩ := exists_lexemes_textFrom n1 b1
  cases clause with
  | operand o =>
      rw [hselect] at hyield
      obtain ⟨s, htail, rfl⟩ := SetOperand.eq_simple hyield
      cases hclause
  | union type' left right =>
      obtain ⟨rfl, rfl, rfl⟩ := Query.union.inj hclause
      refine ⟨left, right, h1, h2, ?_⟩
      rw [← hyield]
      show _ = left.yield ++ unionWords type' ++ right.yield ++ []
      rw [List.append_nil, List.append_assoc]

/-- **A first operand with its own members**: then so is the second, and neither has
a clause of a tail. -/
theorem UnionOfBoth.isOperand (h : UnionOfBoth G type n1 (.members b1) n2 c2
      (combinedText b1 n1 type b2 n2).toQString) :
    b1.IsOperand G n1 ∧ ∃ (s2 : SelectStmt G), s2.tail = .none ∧ c2.Is n2 (.select s2) := by
  have hclosed : Closed (b1.textFrom n1).toQString := by
    obtain ⟨_, _, ⟨s, _, hs⟩, _⟩ := h
    exact hs.yields.closed
  obtain ⟨left, right, ⟨s1, hleft, hs1⟩, h2, hyield⟩ := h.exists_sides hclosed
  obtain ⟨ws1, hselect1⟩ := exists_lexemes_textFrom n1 b1
  obtain ⟨ws2, hselect2⟩ := exists_lexemes_textFrom n2 b2
  cases left with
  | union type' left right => cases hleft
  | operand o =>
      have hfront := hyield
      rw [hselect1] at hfront
      obtain ⟨s, htail, rfl⟩ := SetOperand.eq_simple hfront
      obtain rfl : s = s1 := Query.select.inj hleft
      -- the left side is the whole text of the first operand, the right side of the second
      rw [hs1.yields.lexemes] at hyield
      have hright : right.yield = lexemes (b2.textFrom n2).toQString :=
        List.append_cancel_left (List.append_cancel_left hyield)
      have hfront2 : right.yield ++ [] = latin1 "SELECT" :: ws2 := by
        rw [List.append_nil, hright, hselect2]
      obtain ⟨s2, htail2, rfl⟩ := SetOperand.eq_simple hfront2
      exact ⟨⟨hs1.clauses.tail_iff.mp htail, s, hs1⟩, s2, htail2, h2⟩

/-- Quotes, comments and brackets of the text match, and UNION is in brackets. -/
def TextEnclosed (t : SqlText) : Prop := Closed t.toQString ∧ Enclosed (lexemes t.toQString)

/-- So it is in a text that is a statement. -/
theorem IsStatementOf.textEnclosed (hG : G.Enclosed) {n : Nat} {b : SqlSelectQueryBuilder}
    {s : SelectStmt G} (h : IsStatementOf n b s) : TextEnclosed (b.textFrom n) := by
  refine ⟨h.yields.closed, ?_⟩
  rw [h.yields.lexemes]
  exact s.enclosed hG

/-- **A first operand that was filled** says two unions, the text has one. -/
theorem not_unionOfBoth_filled (hG : G.Enclosed) {type' : UnionType} {first second : Content}
    (h1 : TextEnclosed (b1.textFrom n1)) (h2 : Enclosed (lexemes (b2.textFrom n2).toQString)) :
    ¬ UnionOfBoth G type n1 (.union type' first second) n2 c2
      (combinedText b1 n1 type b2 n2).toQString := by
  intro h
  obtain ⟨left, right, ⟨q1, q2, hleft, _⟩, _, hyield⟩ := h.exists_sides h1.1
  obtain ⟨ws, hselect⟩ := exists_lexemes_textFrom n1 b1
  have hcount := congrArg (sqlBrackets.scan (0, 0)) hyield
  rw [Brackets.scan_append, Brackets.scan_append, Brackets.scan_append, Brackets.scan_append,
    left.scan_yield hG, scan_unionWords_outside, right.enclosed hG, h1.2, scan_unionWords_outside,
    h2] at hcount
  have hunions : left.unions = 0 := by simpa using congrArg Prod.snd hcount
  cases left with
  | operand o =>
      rw [hselect] at hyield
      obtain ⟨s, htail, rfl⟩ := SetOperand.eq_simple hyield
      cases hleft
  | union type'' left right => cases hunions

end

/-! ### Runs -/

/-- The builders, and which of them were filled with what, until they are assembled from
their members. -/
structure UnionHistory where
  pool : SelectPool
  filled : Nat → Option (UnionType × Content × Content)

namespace UnionHistory

def new (db : QString) : UnionHistory := ⟨SelectPool.new db, fun _ => none⟩

def content (h : UnionHistory) (i : Nat) : Content :=
  match h.filled i with
  | none => .members (h.pool i)
  | some (type, first, second) => .union type first second

def step [CaseFolding] (h : UnionHistory) (e : PoolStep) : UnionHistory where
  pool := h.pool.step e
  filled :=
    match e with
    | .step i .query =>
        if (h.pool i).assembled then h.filled else Function.update h.filled i none
    | .step _ _ => h.filled
    | .combineQueries this query1 query2 type =>
        if (h.pool this).acceptsCombination then
          Function.update h.filled this (some (type, h.content query1, h.content query2))
        else h.filled

/-- The number that the first numbered leaf of a first operand gets. -/
def firstNumber (h : UnionHistory) (query1 : Nat) : Nat := (h.pool query1).nextNumber

/-- The same of the second operand, which is rendered after the first. -/
def secondNumber (h : UnionHistory) (query1 query2 : Nat) : Nat :=
  let p := h.pool.set query1 (h.pool query1).toString.2
  ((p query2).setBindedValuesOffset (p query1).bindValues.length).nextNumber

/-- The builder that is filled says the union of exactly what both operands stand for. -/
def CombinesBoth [CaseFolding] (G : Phrases) (h : UnionHistory) : PoolStep → Prop
  | .step _ _ => True
  | .combineQueries this query1 query2 type =>
      (h.pool this).acceptsCombination →
        UnionOfBoth G type (h.firstNumber query1) (h.content query1)
          (h.secondNumber query1 query2) (h.content query2)
          ((h.step (.combineQueries this query1 query2 type)).pool this).queryString.toQString

/-- Both operands have their own members, which say a statement without ORDER BY, locks
and limit. -/
def Separable (G : Phrases) (h : UnionHistory) : PoolStep → Prop
  | .step _ _ => True
  | .combineQueries this query1 query2 _ =>
      (h.pool this).acceptsCombination →
        (h.filled query1 = none ∧ (h.pool query1).IsOperand G (h.firstNumber query1)) ∧
          h.filled query2 = none ∧
            (h.pool query2).IsOperand G (h.secondNumber query1 query2)

/-- In what the members of a filled operand say, UNION is in brackets only. -/
def MembersEnclosed (h : UnionHistory) : PoolStep → Prop
  | .step _ _ => True
  | .combineQueries _ query1 query2 _ =>
      (h.filled query1 ≠ none → TextEnclosed ((h.pool query1).textFrom (h.firstNumber query1))) ∧
        (h.filled query2 ≠ none →
          TextEnclosed ((h.pool query2).textFrom (h.secondNumber query1 query2)))

theorem content_of_none {h : UnionHistory} {i : Nat} (hi : h.filled i = none) :
    h.content i = .members (h.pool i) := by
  rw [content, hi]

theorem content_of_some {h : UnionHistory} {i : Nat} (hi : h.filled i ≠ none) :
    ∃ type first second, h.content i = .union type first second := by
  obtain ⟨⟨type, first, second⟩, hf⟩ := Option.ne_none_iff_exists'.mp hi
  refine ⟨type, first, second, ?_⟩
  rw [content, hf]

/-- The text of an accepted union. -/
theorem queryString_step [CaseFolding] {h : UnionHistory} {this : Nat}
    (haccepts : (h.pool this).acceptsCombination) (query1 query2 : Nat) (type : UnionType) :
    ((h.step (.combineQueries this query1 query2 type)).pool this).queryString =
      combinedText (h.pool query1) (h.firstNumber query1) type (h.pool query2)
        (h.secondNumber query1 query2) := by
  have hfirst : (h.pool query1).toString.1 = (h.pool query1).textFrom (h.firstNumber query1) := by
    rw [SqlSelectQueryBuilder.toString_eq]
    rfl
  -- the second operand has its values and its offset from before, and the members it had
  have hsecond : ∀ offset n,
      (((h.pool.set query1 (h.pool query1).toString.2) query2).setBindedValuesOffset offset).textFrom n
        = (h.pool query2).textFrom n := by
    intro offset n
    by_cases h12 : query2 = query1
    · subst h12
      rw [SelectPool.set_same, SqlSelectQueryBuilder.toString_eq]
      rfl
    · rw [SelectPool.set_of_ne h12]
      rfl
  show (h.pool.combineQueries this query1 query2 type this).queryString = _
  rw [SelectPool.combineQueries, if_pos haccepts, SelectPool.set_same]
  show (h.pool query1).toString.1 ++ unionName type
    ++ (SelectPool.set _ query2 _ query2).toString.1 = _
  rw [SelectPool.set_same, hfirst, SqlSelectQueryBuilder.toString_eq
    (SqlSelectQueryBuilder.setBindedValuesOffset _ _)]
  show _ ++ _ ++ SqlSelectQueryBuilder.textFrom _ _ = _
  rw [hsecond]
  rfl

section
variable [CaseFolding] {h : UnionHistory} {e : PoolStep}

theorem CombinesBoth.of_separable (he : h.Separable G e) : h.CombinesBoth G e := by
  cases e with
  | step i s => trivial
  | combineQueries this query1 query2 type =>
      intro haccepts
      obtain ⟨⟨hnone1, h1⟩, hnone2, h2⟩ := he haccepts
      rw [queryString_step haccepts, content_of_none hnone1, content_of_none hnone2]
      exact unionOfBoth_of_isOperand type h1 h2

/-- Behind a first operand with members of its own, the second has members of its own
too; what they are does not depend on the grammar of the parts. -/
theorem CombinesBoth.operands {this query1 query2 : Nat} {type : UnionType}
    (he : h.CombinesBoth G (.combineQueries this query1 query2 type))
    (haccepts : (h.pool this).acceptsCombination) (hnone1 : h.filled query1 = none) :
    (h.pool query1).IsOperand G (h.firstNumber query1) ∧ h.filled query2 = none ∧
      (h.pool query2).IsOperand G (h.secondNumber query1 query2) := by
  have hunion := he haccepts
  rw [queryString_step haccepts, content_of_none hnone1] at hunion
  obtain ⟨h1, s2, htail, h2⟩ := hunion.isOperand
  refine ⟨h1, ?_⟩
  by_cases hnone2 : h.filled query2 = none
  · rw [content_of_none hnone2] at h2
    obtain ⟨s, hs, hstatement⟩ := h2
    obtain rfl : s2 = s := Query.select.inj hs
    exact ⟨hnone2, hstatement.clauses.tail_iff.mp htail, s2, hstatement⟩
  · obtain ⟨type', first, second, hcontent⟩ := content_of_some hnone2
    rw [hcontent] at h2
    obtain ⟨q1, q2, hquery, -⟩ := h2
    cases hquery

/-- A first operand that was filled has lost its union. -/
theorem CombinesBoth.not_filled (hG : G.Enclosed) {this query1 query2 : Nat} {type : UnionType}
    (hmembers : h.MembersEnclosed (.combineQueries this query1 query2 type))
    (he : h.CombinesBoth G (.combineQueries this query1 query2 type))
    (haccepts : (h.pool this).acceptsCombination) : h.filled query1 = none := by
  by_contra hfilled1
  have hunion := he haccepts
  rw [queryString_step haccepts] at hunion
  have hsecond : Enclosed
      (lexemes ((h.pool query2).textFrom (h.secondNumber query1 query2)).toQString) := by
    by_cases hnone2 : h.filled query2 = none
    · obtain ⟨q1, q2, -, h2, -⟩ := hunion
      rw [content_of_none hnone2] at h2
      obtain ⟨s2, -, hs2⟩ := h2
      exact (hs2.textEnclosed hG).2
    · exact (hmembers.2 hnone2).2
  obtain ⟨type', first, second, hcontent⟩ := content_of_some hfilled1
  rw [hcontent] at hunion
  exact not_unionOfBoth_filled hG (hmembers.1 hfilled1) hsecond hunion

theorem CombinesBoth.separable (hG : G.Enclosed) (hmembers : h.MembersEnclosed e)
    (he : h.CombinesBoth G e) : h.Separable G e := by
  cases e with
  | step i s => trivial
  | combineQueries this query1 query2 type =>
      intro haccepts
      have hnone1 := CombinesBoth.not_filled hG hmembers he haccepts
      obtain ⟨h1, hnone2, h2⟩ := he.operands haccepts hnone1
      exact ⟨⟨hnone1, h1⟩, hnone2, h2⟩

/-- **Which unions are unions of both.**  In every run in which each accepted union has
two operands with members of their own, without ORDER BY, locks and limit, every builder
that is filled says the union of exactly the two.  In the grammar, where UNION does not
stand in a column or a condition but in brackets, there are no other such runs. -/
theorem combinesBoth_run (G : Phrases) (db : QString) (es : List PoolStep) :
    (Runs.Along step (Separable G) (new db) es → Runs.Along step (CombinesBoth G) (new db) es) ∧
      (G.Enclosed → Runs.Along step MembersEnclosed (new db) es →
        Runs.Along step (CombinesBoth G) (new db) es → Runs.Along step (Separable G) (new db) es) := by
  constructor
  · intro hes
    exact Runs.along_of_invariant (I := fun _ => True) (fun _ _ _ _ => trivial)
      (fun _ _ _ he => .of_separable he) trivial hes
  · intro hG hmembers hes
    exact Runs.along_of_invariant (I := fun _ => True) (fun _ _ _ _ => trivial)
      (fun _ _ _ he => he.2.separable hG he.1) trivial (hmembers.and hes)

end

/-! ### Two runs -/

/-- A SELECT of one column. -/
def columnStatement {column : QString} (h : IsPhrase G .target column) : SelectStmt G where
  duplicates := .all
  targets := [.plain ⟨column, h⟩]
  targets_ne _ := List.cons_ne_nil _ _
  fromClause := none
  whereClause := none
  groupBy := []
  orderBy := []
  locks := []
  limit := none

theorem isOperand_addColumn (db : QString) {column : QString} (h : IsPhrase G .target column)
    (n : Nat) : ((SqlSelectQueryBuilder.new db).addColumn column []).IsOperand G n := by
  refine ⟨⟨rfl, rfl, rfl⟩, columnStatement h, ?_, ?_⟩
  · constructor <;> first | rfl | exact ⟨rfl, rfl⟩ | trivial
  · have hfresh : SqlLexer.fresh (latin1 "SELECT ") := by decide
    have hword : lexemes (latin1 "SELECT ") = kw "SELECT" := by decide
    have hyields := h.closed.yields.fresh_append hfresh
    rw [hword] at hyields
    have htext : (((SqlSelectQueryBuilder.new db).addColumn column []).textFrom n).toQString =
        latin1 "SELECT " ++ column := by
      simp [SqlSelectQueryBuilder.textFrom, SqlSelectQueryBuilder.selectClause,
        SqlSelectQueryBuilder.tailClauses, SqlSelectQueryBuilder.joinsTextFrom,
        SqlConditionalQueryBuilderBase.whereTextFrom, SqlSelectQueryBuilder.addColumn,
        SqlSelectQueryBuilder.new, SqlConditionalQueryBuilderBase.new, SqlQueryBuilderBase.new,
        SqlCondition.hasSubConditions, SqlCondition.new, SqlSelectQueryBuilder.columnToString,
        SqlText.join]
    have hyield : (columnStatement h).yield = kw "SELECT" ++ lexemes column := by
      simp [SelectStmt.yield, columnStatement, Duplicates.yield, commaSeparated, StmtTarget.yield]
    rw [htext, hyield]
    exact hyields

/-- Any text with brackets that match is a part of a statement. -/
def enclosedPhrases : Phrases := fun _ ws => Enclosed ws

/-- Two builders with a column each. -/
def twoColumns : List PoolStep :=
  [.step 0 (.call (.addColumn (latin1 "a") [])), .step 1 (.call (.addColumn (latin1 "b") []))]

/-- The union of two columns. -/
theorem combinesBoth_run_twoColumns :
    let _ : CaseFolding := .ascii
    let es := twoColumns ++ [.combineQueries 2 0 1 .unionAll]
    Runs.Along step (CombinesBoth enclosedPhrases) (new []) es
      ∧ Runs.Along step (Separable enclosedPhrases) (new []) es := by
  intro _ es
  have ha : IsPhrase enclosedPhrases .target (latin1 "a") :=
    ⟨by decide, by decide, enclosed_words (by decide)⟩
  have hb : IsPhrase enclosedPhrases .target (latin1 "b") :=
    ⟨by decide, by decide, enclosed_words (by decide)⟩
  have hseparable : Runs.Along step (Separable enclosedPhrases) (new []) es :=
    ⟨trivial, trivial,
      fun _ => ⟨⟨rfl, isOperand_addColumn [] ha _⟩, rfl, isOperand_addColumn [] hb _⟩, trivial⟩
  have hmembers : Runs.Along step MembersEnclosed (new []) es :=
    ⟨trivial, trivial, ⟨fun h => absurd rfl h, fun h => absurd rfl h⟩, trivial⟩
  have hboth := (combinesBoth_run enclosedPhrases [] es).1 hseparable
  exact ⟨hboth, (combinesBoth_run enclosedPhrases [] es).2 (fun _ _ h => h) hmembers hboth⟩

/-- The second one has a limit. -/
def limitedSecond : List PoolStep :=
  twoColumns ++ [.step 1 (.call (.addLimit 0 1)), .combineQueries 2 0 1 .union]

/-- Whatever may be a part of a statement, the limit is one of the union. -/
theorem not_combinesBoth_limitedSecond :
    let _ : CaseFolding := .ascii
    (((Runs.run step (new []) limitedSecond).pool 2).queryString.toQString =
        latin1 "SELECT a UNION SELECT b OFFSET 0 LIMIT 1")
      ∧ ∀ G, ¬ Runs.Along step (CombinesBoth G) (new []) limitedSecond := by
  intro _
  refine ⟨by decide, ?_⟩
  rintro G ⟨-, -, -, hboth, -⟩
  have hlimit := (hboth.operands (by decide) rfl).2.2.1.limit
  exact absurd hlimit (by decide)

end UnionHistory

end Sqlate
