/-
Sqlate/SelectAnswers.lean

What a program gets when it executes a SELECT builder.

A request is what the calls of the program say, with the conditions as calls and without
texts and numbers; `QueryRequest.plan` is what it asks for.  The text of the builder goes
through the server's reader, and the values through the placeholders of all the conditions;
what comes out is the answer to the request (`SqlSelectQueryBuilder.Asks.query`), also when
the builder has been assembled before and its numbers go on, so in any run
(`select_answers`).

Locks do not change an answer, and nor does whether the server waits for them.  The builder
writes IS and IS NOT before any operand; a request can be answered if they get NULL only.
-/
import Mathlib.Data.Set.List
import Sqlate.ColumnLabels
import Sqlate.SelectServer
import Sqlate.StatementRuns

namespace Sqlate

/-! ### What is asked for -/

/-- A join with its ON condition. -/
structure JoinRequest where
  type : JoinType
  table : QString
  op : LogicOperator
  calls : List ConditionCall

/-- A request for rows. -/
structure QueryRequest where
  distinct : Bool
  distinctOn : QString
  columns : List (QString × QString)
  table : QString
  joins : List JoinRequest
  logicOp : LogicOperator
  calls : List ConditionCall
  groupColumns : List QString
  sortColumns : List (QString × SortOrder)
  locks : List QString
  /-- Offset and length. -/
  limit : Option (UInt32 × UInt32)

namespace QueryRequest

def new : QueryRequest where
  distinct := false
  distinctOn := []
  columns := []
  table := []
  joins := []
  logicOp := .and
  calls := []
  groupColumns := []
  sortColumns := []
  locks := []
  limit := none

def conditional (q : QueryRequest) : ConditionalCall → QueryRequest
  | .setTable table => { q with table := table }
  | .whereCondition call => { q with calls := q.calls ++ [call] }
  | .assignWhereCondition op calls => { q with logicOp := op, calls := calls }

/-- What one more call asks for. -/
def add (q : QueryRequest) : SelectCall → QueryRequest
  | .conditional call => q.conditional call
  | .setDistinct flag => { q with distinct := flag }
  | .setDistinctOn distinctExpr => { q with distinctOn := distinctExpr }
  | .addColumn columnName label => { q with columns := q.columns ++ [(columnName, label)] }
  | .addJoin type table op calls => { q with joins := q.joins ++ [⟨type, table, op, calls⟩] }
  | .addSortColumn column order => { q with sortColumns := q.sortColumns ++ [(column, order)] }
  | .removeSortColumn _ column =>
      { q with sortColumns := q.sortColumns.eraseP fun col => col.1 = column }
  | .addGroupColumn column => { q with groupColumns := q.groupColumns ++ [column] }
  | .addLimit offset length => { q with limit := some (offset, length) }
  | .lockExclusive table | .tryLockExclusive table => { q with locks := q.locks ++ [table] }

def tables (q : QueryRequest) : List QString := q.table :: q.joins.map JoinRequest.table

def names (q : QueryRequest) : SelectNames where
  tables := q.tables
  joinTypes := q.joins.map JoinRequest.type
  distinct := q.distinct
  columns := q.columns.map Prod.fst
  groupColumns := q.groupColumns
  sortColumns := q.sortColumns.map Prod.fst
  locks := q.locks

end QueryRequest

section
variable [CaseFolding]

def JoinRequest.condition (j : JoinRequest) : SqlCondition := applyCalls (.new j.op) j.calls

def JoinRequest.info (j : JoinRequest) : JoinInfo := ⟨j.type, j.table, j.condition⟩

/-- The joins, behind some tables. -/
def JoinRequest.plans (S : Server) (given : QString → QVariant) :
    List QString → List JoinRequest → List PlanJoin
  | _, [] => []
  | before, j :: js =>
      let here := before ++ [j.table]
      ⟨j.type, lower j.table, fun x =>
          (lastOperator j.op j.calls).connective.fold (S.truthsOf (.tables here) given x.record true j.calls) = .true⟩
        :: plans S given here js

namespace QueryRequest

def whereCondition (q : QueryRequest) : SqlCondition := applyCalls (.new q.logicOp) q.calls

/-- **What a request asks for**; `given` are the values of the program's own placeholders. -/
def plan (q : QueryRequest) (S : Server) (given : QString → QVariant) : Plan where
  distinct := q.distinct
  targets := q.columns.map fun col => (columnLabel col.1 col.2, columnValueOf q.tables col.1)
  table := lower q.table
  joins := JoinRequest.plans S given [q.table] q.joins
  condition x :=
    !q.whereCondition.hasSubConditions
      || (lastOperator q.logicOp q.calls).connective.fold
          (S.truthsOf (.tables q.tables) given x.record true q.calls) = .true
  groupBy := q.groupColumns.map (columnValueOf q.tables)
  orderBy := q.sortColumns.map fun col => (columnValueOf q.tables col.1, col.2)
  limit := q.limit.map fun l => (l.1.toNat, l.2.toNat)

end QueryRequest

/-- Every join has a condition, about the tables up to its own. -/
def PlainJoins : List QString → List JoinRequest → Prop
  | _, [] => True
  | before, j :: js =>
      let here := before ++ [j.table]
      (j.type ≠ .crossJoin ∧ NamedCalls (.tables here) true j.calls ∧ TestsNullOf j.calls
        ∧ j.condition.subConditions ≠ [])
        ∧ PlainJoins here js

/-- A request that the server can answer. -/
structure QueryRequest.Plain (q : QueryRequest) : Prop where
  allowed : q.names.allowed
  distinctOn : q.distinctOn = []
  columns : q.columns ≠ []
  labels : ∀ col ∈ q.columns, col.2 = [] ∨ isName col.2
  tables : ∀ t ∈ q.tables, isPlainName t
  locks : ∀ t ∈ q.locks, isPlainName t
  joins : PlainJoins [q.table] q.joins
  condition : NamedCalls (.tables q.tables) true q.calls
  tests : TestsNullOf q.calls
  limit : ∀ l ∈ q.limit, l.1 ≠ SqlSelectQueryBuilder.noLimit

/-- The builder has got what is asked for. -/
structure SqlSelectQueryBuilder.Asks (b : SqlSelectQueryBuilder) (q : QueryRequest) : Prop where
  table : b.table = q.table
  whereCondition : b.whereCondition = q.whereCondition
  bindedValuesOffset : b.bindedValuesOffset = 0
  distinct : b.distinct = q.distinct
  distinctOn : b.distinctOn = q.distinctOn
  columns : b.columns = q.columns
  joins : b.joins = q.joins.map JoinRequest.info
  groupColumns : b.groupColumns = q.groupColumns
  sortColumns : b.sortColumns = q.sortColumns
  lockTablesForUpdate : b.lockTablesForUpdate = q.locks
  limit : (b.limitOffset, b.limitLength) =
    q.limit.getD (SqlSelectQueryBuilder.noLimit, SqlSelectQueryBuilder.noLimit)

end

/-! ### Conditions -/

/-- There is the name of a table in front. -/
theorem Scope.dot_mem_of_tables {tables : List QString} {w c : QString}
    (h : (Scope.tables tables).column w = some c) : QChar.ofChar '.' ∈ lower w := by
  obtain ⟨table, -, hcolumn⟩ := List.exists_of_findSome?_eq_some h
  simp only [qualifiedColumn, Bool.and_eq_true, Option.ite_none_right_eq_some] at hcolumn
  have hprefix := List.isPrefixOf_iff_prefix.1 hcolumn.1.1.2
  exact hprefix.subset (List.mem_append_right _ (List.mem_singleton_self _))

theorem Scope.not_clause_of_tables {tables : List QString} {w c : QString}
    (h : (Scope.tables tables).column w = some c) : w ∉ clauseWords := by
  have hclause : ∀ v ∈ clauseWords, QChar.ofChar '.' ∉ lower v := by decide
  exact fun hw => hclause w hw (Scope.dot_mem_of_tables h)

theorem not_clause_of_isPlaceholder {w : QString} (h : isPlaceholder w = true) : w ∉ clauseWords := by
  have hclause : ∀ v ∈ clauseWords, isPlaceholder v = false := by decide
  intro hw
  rw [hclause w hw] at h
  cases h

/-- A word that is told by its lower case. -/
theorem not_clause_of_lower {w v : QString} (h : lower w = v) (hv : v ∉ clauseWords.map lower) :
    w ∉ clauseWords := by
  rintro hw
  rw [← h] at hv
  exact hv (List.mem_map_of_mem hw)

/-- Operands that are known are inside of a condition. -/
theorem IsOperand.not_clause {scope : Scope} (hscope : ∀ {w c}, scope.column w = some c → w ∉ clauseWords)
    {ws : List QString} (h : IsOperand ws) {o : Operand} (ho : operandOf scope ws = some o) :
    ∀ w ∈ ws, w ∉ clauseWords := by
  have hopen : latin1 "(" ∉ clauseWords := by decide
  have hclose : latin1 ")" ∉ clauseWords := by decide
  cases h with
  | @name w hw =>
      rw [List.forall_mem_singleton]
      rw [operandOf] at ho
      split_ifs at ho with hplaceholder hnull
      · exact not_clause_of_isPlaceholder hplaceholder
      · exact not_clause_of_lower hnull (by decide)
      · obtain ⟨c, hcolumn, -⟩ := Option.map_eq_some_iff.1 ho
        exact hscope hcolumn
  | @call w hw =>
      rw [operandOf] at ho
      split_ifs at ho with hnow
      have hw := not_clause_of_lower hnow (by decide)
      simp [hw, hopen, hclose]
  | @callName w v hw hv =>
      rw [operandOf] at ho
      split_ifs at ho with hlower
      obtain ⟨c, hcolumn, -⟩ := Option.map_eq_some_iff.1 ho
      have hw := not_clause_of_lower hlower (by decide)
      simp [hw, hscope hcolumn, hopen, hclose]

theorem Comparison.Named.resolves {scope : Scope} {a : Comparison} (h : a.Named scope) (S : Server) :
    a.read.resolves scope := by
  -- with any values
  let parameters : Parameters := fun w =>
    if w = placeholderName a.number then some a.comparedValue.bindForm else none
  have hbound : a.Bound (fun w => (parameters w).getD .invalid) parameters :=
    ⟨fun _ => if_pos rfl, fun _ _ => rfl⟩
  exact (h.truth (S := S) (r := fun _ => .invalid) hbound).1

/-- The words of a comparison are inside of a condition. -/
theorem Comparison.Named.not_clause {scope : Scope}
    (hscope : ∀ {w c}, scope.column w = some c → w ∉ clauseWords) {a : Comparison} (h : a.Named scope)
    (S : Server) : ∀ w ∈ wordLayout.leaf a, w ∉ clauseWords := by
  have hresolves := h.resolves S
  rw [ReadComparison.resolves, Bool.and_eq_true, Option.isSome_iff_exists, Option.isSome_iff_exists] at hresolves
  obtain ⟨⟨left, hleft⟩, right, hright⟩ := hresolves
  have hcompare : ∀ w ∈ compareWords a.compareOp, w ∉ clauseWords := by
    cases a.compareOp <;> decide
  intro w hw
  have hw : w ∈ words a.column ++ compareWords a.compareOp ++ words a.rightHandSide.toQString := hw
  rw [List.append_assoc, List.mem_append, List.mem_append] at hw
  rcases hw with hw | hw | hw
  · exact IsOperand.not_clause hscope h.readable.isOperand_column hleft w hw
  · exact hcompare w hw
  · exact IsOperand.not_clause hscope h.readable.isOperand_rightHandSide hright w hw

theorem not_clause_write {t : ConnTree Comparison} (ht : t.Full)
    (hleaf : ∀ a ∈ t.leaves, ∀ w ∈ wordLayout.leaf a, w ∉ clauseWords) :
    ∀ w ∈ wordLayout.write t, w ∉ clauseWords := by
  have hopen : ∀ w ∈ wordLayout.opening, w ∉ clauseWords := by decide
  have hclose : ∀ w ∈ wordLayout.closing, w ∉ clauseWords := by decide
  have hseparator : ∀ op, ∀ w ∈ wordLayout.separator op, w ∉ clauseWords := by
    intro op
    cases op <;> decide
  have hrespects : Layout.Respects (fun x _ => ∀ w ∈ x, w ∉ clauseWords) wordLayout wordLayout := by
    constructor
    · intro x _ hx
      rw [List.forall_mem_append, List.forall_mem_append]
      exact ⟨⟨hopen, hx⟩, hclose⟩
    · intro op x _ x' _ hx hx'
      rw [List.forall_mem_append, List.forall_mem_append]
      exact ⟨⟨hx, hseparator op⟩, hx'⟩
  exact Layout.rel_write hrespects t ht hleaf

/-- **A condition is read inside of a SELECT**, and has the truth value that is asked for. -/
theorem isCondition_of_named [CaseFolding] (S : Server) (scope : Scope)
    (hscope : ∀ {w c}, scope.column w = some c → w ∉ clauseWords)
    {given : QString → QVariant} {parameters : Parameters} {op : LogicOperator}
    {calls : List ConditionCall} (hnamed : NamedCalls scope true calls) (htests : TestsNullOf calls)
    (hne : (applyCalls (.new op) calls).subConditions ≠ []) (n : Nat)
    (hbound : BoundFrom parameters n (applyCalls (.new op) calls).boundValues)
    (hdeferred : ∀ w, IsDeferred w → (parameters w).getD .invalid = given w) :
    ∃ e, IsCondition (words ((applyCalls (.new op) calls).textFrom n).toQString) e
      ∧ SelectQuery.conditionAccepted scope (some e)
      ∧ ∀ r, e.eval (S.truth parameters scope r)
          = (lastOperator op calls).connective.fold (S.truthsOf scope given r true calls) := by
  obtain ⟨e, hread, hatoms, hresolves, heval⟩ := conditionRead_of_named S hnamed hne n hbound hdeferred
  have haccepted : SelectQuery.conditionAccepted scope (some e) := by
    refine List.all_eq_true.2 fun a ha => ?_
    have hsql : a.isSql := by
      rw [hatoms] at ha
      obtain ⟨leaf, hleaf, rfl⟩ := List.mem_map.1 ha
      exact isSql_of_testsNull htests n leaf hleaf
    rw [hsql, List.all_eq_true.1 hresolves a ha]
    rfl
  refine ⟨e, ⟨hread, ?_⟩, haccepted, heval⟩
  have hfull := (applyCalls (.new op) calls).toTree_full n
  -- that the names are known does not depend on the row
  have hmeans : (applyCalls (.new op) calls).Means S scope given (fun _ => .invalid) _ :=
    means_applyCalls hnamed hne
  rw [textFrom_eq_write, words_write _ hfull]
  exact not_clause_write hfull fun a ha => (hmeans.named n a ha).not_clause hscope S

/-! ### The words of the text -/

/-- A text that begins a new word. -/
def Begins (t : QString) : Prop := ∀ c ∈ t.head?, separates c = true

theorem Begins.nil : Begins [] := fun _ hc => by cases hc

theorem Begins.append {s t : QString} (hs : Begins s) (ht : Begins t) : Begins (s ++ t) := by
  cases s with
  | nil => exact ht
  | cons c s => exact hs

/-- A clause begins with a space. -/
theorem Begins.of_space {s : String} (h : (latin1 s).head? = some (QChar.ofChar ' ')) (t : QString) :
    Begins (latin1 s ++ t) := by
  intro c hc
  rw [List.head?_append, h] at hc
  exact separates_of_mem rfl separates_space c hc

theorem isName_number (n : Nat) : isName (QString.number n) = true := by
  have hname : ∀ c ∈ QString.number n, charKind c = .name := by
    intro c hc
    have hmem : c ∈ placeholderName n := List.mem_cons_of_mem (QChar.ofChar ':') hc
    have hname := isName_placeholderName n
    generalize placeholderName n = w at hmem hname
    simp only [isName, Bool.and_eq_true, List.all_eq_true, decide_eq_true_eq] at hname
    exact hname.1.2 c hmem
  have hnot : lower (QString.number n) ∉ keywords := by
    -- no keyword begins with a digit
    have hkeyword : keywords.all (fun w => !w.head?.any SqlLexer.isDigit) = true := by decide
    intro hmem
    obtain ⟨c, s, hcons⟩ := List.exists_cons_of_ne_nil (QString.number_ne_nil n)
    have hdigit := QString.val_of_mem_number (hcons ▸ List.mem_cons_self : c ∈ QString.number n)
    have hhead : (lower (QString.number n)).head? = some c := by
      rw [hcons]
      show some (if 0x41 ≤ c.val ∧ c.val ≤ 0x5A then c + 0x20 else c) = some c
      rw [if_neg (by omega)]
    have hletter := List.all_eq_true.1 hkeyword _ hmem
    rw [hhead] at hletter
    simp [SqlLexer.isDigit] at hletter
    omega
  simpa [isName, QString.number_ne_nil, hnot] using hname

def targetColumn (t : Target) : QString × QString := (t.1.text, t.2.elim [] NameWord.text)

/-- A label in quotes. -/
theorem words_columnToString (t : Target) :
    words (SqlText.toQString (SqlSelectQueryBuilder.columnToString (targetColumn t))) = targetYield t := by
  obtain ⟨column, label⟩ := t
  cases label with
  | none =>
      show words (SqlText.toQString (raw column.text)) = _
      rw [SqlText.toQString_raw, words_of_isName column.isName]
      rfl
  | some label =>
      have hname := label.isName
      simp only [isName, Bool.and_eq_true, List.all_eq_true, decide_eq_true_eq, Bool.not_eq_true',
        List.isEmpty_eq_false_iff] at hname
      have hquote : SqlLexer.doubleQuote ∉ label.text := by
        intro hmem
        exact absurd (hname.1.2 _ hmem) (by decide)
      have hlabel : label.text ≠ [] := hname.1.1
      have has : words (latin1 " AS ") = kw "AS" := by decide
      have hmark : words (latin1 "\"") = kw "\"" := by decide
      have hseparates : separates (QChar.ofChar '"') = true := by decide
      show words (SqlText.toQString (SqlSelectQueryBuilder.columnToString (column.text, label.text))) = _
      rw [SqlSelectQueryBuilder.toQString_columnToString hlabel, SqlSelectQueryBuilder.labelClause,
        SqlSelectQueryBuilder.quotedAs_of_not_mem hquote]
      simp only [List.append_assoc]
      rw [words_name column.isName (separates_of_mem rfl separates_space),
        words_piece rfl separates_space has, words_piece rfl hseparates hmark,
        words_name label.isName (separates_of_mem rfl hseparates), hmark]
      rfl

theorem words_raw {w : QString} (h : isName w = true) : words (raw w).toQString = [w] := by
  rw [SqlText.toQString_raw, words_of_isName h]

theorem PlainName.isEmpty_text (n : PlainName) : n.text.isEmpty = false := by
  have hname := n.isName
  simp only [Sqlate.isName, Bool.and_eq_true, Bool.not_eq_true'] at hname
  exact hname.1.1

/-- A list with commas between its parts. -/
theorem words_list {α : Type} {f : α → SqlText} {write : α → List QString} (as : List α)
    (h : ∀ a ∈ as, words (SqlText.toQString (f a)) = write a) :
    words (SqlText.join (as.map f) (sql ", ")).toQString = commaSeparated (as.map write) := by
  have hcomma : words (latin1 ", ") = kw "," := by decide
  have hseparates : separates (QChar.ofChar ',') = true := by decide
  rw [words_join rfl hseparates rfl separates_space hcomma, List.map_map]
  congr 1
  exact List.map_congr_left h

theorem words_selectClause (b : SqlSelectQueryBuilder) {t : Target} {ts : List Target} {table : PlainName}
    (hdistinctOn : b.distinctOn = []) (hcolumns : b.columns = (t :: ts).map targetColumn)
    (htable : b.table = table.text) :
    words b.selectClause.toQString
      = kw "SELECT" ++ ((if b.distinct then kw "DISTINCT" else [])
        ++ (commaSeparated ((t :: ts).map targetYield) ++ (kw "FROM" ++ [table.text]))) := by
  have hselect : words (latin1 "SELECT ") = kw "SELECT" := by decide
  have hdistinct : words (latin1 "DISTINCT ") = kw "DISTINCT" := by decide
  have hfrom : words (latin1 " FROM ") = kw "FROM" := by decide
  have hempty : b.table.isEmpty = false := by
    rw [htable]
    exact table.isEmpty_text
  have hlist : words (SqlText.join ((t :: ts).map fun t => SqlSelectQueryBuilder.columnToString (targetColumn t))
      (sql ", ")).toQString = commaSeparated ((t :: ts).map targetYield) :=
    words_list _ fun t _ => words_columnToString t
  have hrest : words ((SqlText.join ((t :: ts).map (SqlSelectQueryBuilder.columnToString ∘ targetColumn))
      (sql ", ")).toQString ++ (latin1 " FROM " ++ table.text))
        = commaSeparated ((t :: ts).map targetYield) ++ (kw "FROM" ++ [table.text]) := by
    rw [words_append_of_right (Begins.of_space rfl _), words_piece rfl separates_space hfrom,
      words_of_isName table.isName]
    exact congrArg (· ++ _) hlist
  rw [SqlSelectQueryBuilder.selectClause, hdistinctOn, hempty, hcolumns, htable, List.map_map]
  simp only [List.isEmpty_nil, Bool.not_true, Bool.not_false, if_true, Bool.false_eq_true, if_false,
    List.append_nil, SqlText.toQString_append, SqlText.toQString_sql, SqlText.toQString_raw, List.append_assoc]
  rw [words_piece rfl separates_space hselect]
  congr 1
  cases b.distinct with
  | true =>
      show words (latin1 "DISTINCT " ++ _) = _
      rw [words_piece rfl separates_space hdistinct, hrest]
      rfl
  | false => exact hrest

theorem Begins.sql {s : String} (h : (latin1 s).head? = some (QChar.ofChar ' ')) (t : SqlText) :
    Begins (SqlText.toQString (sql s ++ t)) := by
  rw [SqlText.toQString_append, SqlText.toQString_sql]
  exact Begins.of_space h _

theorem Begins.ite {p : Prop} [Decidable p] {t : SqlText} (ht : Begins t.toQString) :
    Begins (SqlText.toQString (if p then t else [])) := by
  split_ifs
  · exact ht
  · exact Begins.nil

/-- Clauses one behind the other. -/
theorem words_clauses {s t u v : SqlText} (ht : Begins t.toQString) (hu : Begins u.toQString)
    (hv : Begins v.toQString) : words (SqlText.toQString (s ++ t ++ u ++ v))
      = words s.toQString ++ (words t.toQString ++ (words u.toQString ++ words v.toQString)) := by
  rw [SqlText.toQString_append, SqlText.toQString_append, SqlText.toQString_append,
    words_append_of_right hv, words_append_of_right hu, words_append_of_right ht, List.append_assoc,
    List.append_assoc]

/-- GROUP BY and ORDER BY. -/
theorem words_listClause {α : Type} {f : α → SqlText} {write : α → List QString} {s w : String}
    (hlast : (latin1 s).getLast? = some (QChar.ofChar ' ')) (hs : words (latin1 s) = kw w ++ kw "BY")
    (h : ∀ a, words (SqlText.toQString (f a)) = write a) (o : Option (α × List α)) :
    words (SqlText.toQString (if !(SelectQuery.listed o).isEmpty then
        sql s ++ SqlText.join ((SelectQuery.listed o).map f) (sql ", ") else []))
      = clause w (fun x => kw "BY" ++ commaSeparated ((x.1 :: x.2).map write)) o := by
  cases o with
  | none => rfl
  | some x =>
      show words (SqlText.toQString (sql s ++ SqlText.join ((x.1 :: x.2).map f) (sql ", "))) = _
      rw [SqlText.toQString_append, SqlText.toQString_sql, words_piece hlast separates_space hs,
        words_list _ fun a _ => h a]
      rfl

theorem words_sortColumnToString (c : SortColumn) :
    words (SqlText.toQString (SqlSelectQueryBuilder.sortColumnToString (c.1.text, c.2))) = sortYield c := by
  have horder : words (orderToString c.2).toQString = orderWords c.2 := by
    cases c.2 <;> decide
  have hbegins : Begins (orderToString c.2).toQString := by
    cases c.2
    · exact separates_of_mem rfl separates_space
    · exact separates_of_mem rfl separates_space
  rw [SqlSelectQueryBuilder.sortColumnToString, SqlText.toQString_append, SqlText.toQString_raw,
    words_name c.1.isName hbegins, horder]
  rfl

/-- FOR UPDATE OF. -/
theorem words_lockClause (o : Option ((PlainName × List PlainName) × Bool)) {noWait : Bool}
    (hnoWait : ∀ x ∈ o, x.2 = noWait) :
    words (SqlText.toQString (if !(SelectQuery.listed (o.map Prod.fst)).isEmpty then
        sql " FOR UPDATE OF "
          ++ SqlText.join ((SelectQuery.listed (o.map Prod.fst)).map fun t => raw t.text) (sql ", ")
          ++ (if noWait then sql " NOWAIT" else []) else []))
      = clause "FOR" (fun x => (kw "UPDATE" ++ kw "OF")
        ++ (commaSeparated ((x.1.1 :: x.1.2).map fun t => [t.text]) ++ if x.2 then kw "NOWAIT" else [])) o := by
  cases o with
  | none => rfl
  | some x =>
      obtain rfl := hnoWait x rfl
      have hfor : words (latin1 " FOR UPDATE OF ") = kw "FOR" ++ (kw "UPDATE" ++ kw "OF") := by decide
      have hword : words (SqlText.toQString (if x.2 then sql " NOWAIT" else []))
          = if x.2 then kw "NOWAIT" else [] := by
        cases x.2 <;> decide
      have hbegins : Begins (SqlText.toQString (if x.2 then sql " NOWAIT" else [])) := by
        cases x.2
        · exact Begins.nil
        · exact separates_of_mem rfl separates_space
      have hlist := words_list (x.1.1 :: x.1.2) (f := fun t : PlainName => raw t.text)
        fun t _ => words_raw t.isName
      show words (SqlText.toQString (sql " FOR UPDATE OF "
        ++ SqlText.join ((x.1.1 :: x.1.2).map fun t => raw t.text) (sql ", ") ++ _)) = _
      simp only [SqlText.toQString_append, SqlText.toQString_sql, List.append_assoc]
      rw [words_piece rfl separates_space hfor, words_append_of_right hbegins, hword, hlist]
      rfl

theorem words_limitClause (offset length : UInt32) {o : Option (Nat × Nat)}
    (ho : o = if offset ≠ SqlSelectQueryBuilder.noLimit then some (offset.toNat, length.toNat) else none) :
    words (SqlText.toQString (if offset ≠ SqlSelectQueryBuilder.noLimit then
        sql " OFFSET " ++ raw (QString.number offset.toNat)
          ++ sql " LIMIT " ++ raw (QString.number length.toNat) else []))
      = clause "OFFSET" (fun l => [QString.number l.1] ++ (kw "LIMIT" ++ [QString.number l.2])) o := by
  have hoffset : words (latin1 " OFFSET ") = kw "OFFSET" := by decide
  have hlimit : words (latin1 " LIMIT ") = kw "LIMIT" := by decide
  rw [ho]
  split_ifs
  · simp only [SqlText.toQString_append, SqlText.toQString_sql, SqlText.toQString_raw, List.append_assoc]
    rw [words_piece rfl separates_space hoffset, words_name (isName_number _) (Begins.of_space rfl _),
      words_piece rfl separates_space hlimit, words_of_isName (isName_number _)]
    rfl
  · rfl

/-- The builder has the clauses behind the conditions. -/
structure SqlSelectQueryBuilder.HasTail (b : SqlSelectQueryBuilder) (c : SelectQuery.Clauses) : Prop where
  groupBy : b.groupColumns = (SelectQuery.listed c.groupBy).map NameWord.text
  orderBy : b.sortColumns = (SelectQuery.listed c.orderBy).map fun s => (s.1.text, s.2)
  locks : b.lockTablesForUpdate = (SelectQuery.listed (c.locks.map Prod.fst)).map PlainName.text
  noWait : ∀ x ∈ c.locks, x.2 = b.lockNoWait
  limit : c.limit = if b.limitOffset ≠ SqlSelectQueryBuilder.noLimit then
    some (b.limitOffset.toNat, b.limitLength.toNat) else none

theorem SqlSelectQueryBuilder.HasTail.words_tailClauses {b : SqlSelectQueryBuilder}
    {c : SelectQuery.Clauses} (h : b.HasTail c) : words b.tailClauses.toQString = c.tailYield := by
  have hgroup : words (SqlText.toQString (if !b.groupColumns.isEmpty then
      sql " GROUP BY " ++ SqlText.join (b.groupColumns.map raw) (sql ", ") else []))
        = clause "GROUP" (fun x => kw "BY" ++ commaSeparated ((x.1 :: x.2).map fun n => [n.text])) c.groupBy := by
    rw [h.groupBy, List.map_map, List.isEmpty_map]
    exact words_listClause (w := "GROUP") rfl (by decide) (fun n => words_raw n.isName) c.groupBy
  have horder : words (SqlText.toQString (if !b.sortColumns.isEmpty then
      sql " ORDER BY " ++ SqlText.join (b.sortColumns.map sortColumnToString) (sql ", ") else []))
        = clause "ORDER" (fun x => kw "BY" ++ commaSeparated ((x.1 :: x.2).map sortYield)) c.orderBy := by
    rw [h.orderBy, List.map_map, List.isEmpty_map]
    exact words_listClause (w := "ORDER") rfl (by decide) words_sortColumnToString c.orderBy
  have hlocks : words (SqlText.toQString (if !b.lockTablesForUpdate.isEmpty then
      sql " FOR UPDATE OF " ++ SqlText.join (b.lockTablesForUpdate.map raw) (sql ", ")
        ++ (if b.lockNoWait then sql " NOWAIT" else []) else []))
        = clause "FOR" (fun x => (kw "UPDATE" ++ kw "OF") ++ (commaSeparated ((x.1.1 :: x.1.2).map fun t => [t.text])
          ++ if x.2 then kw "NOWAIT" else [])) c.locks := by
    rw [h.locks, List.map_map, List.isEmpty_map]
    exact words_lockClause c.locks h.noWait
  rw [SqlSelectQueryBuilder.tailClauses, words_clauses (Begins.ite (Begins.sql rfl _)), hgroup, horder, hlocks,
    words_limitClause _ _ h.limit]
  · rfl
  · rw [List.append_assoc]
    exact Begins.ite (Begins.sql rfl _)
  · rw [List.append_assoc, List.append_assoc]
    exact Begins.ite (Begins.sql rfl _)

/-! ### The clauses that are read -/

theorem begins_joinsTextFrom (n : Nat) (js : List JoinInfo) :
    Begins (SqlSelectQueryBuilder.joinsTextFrom n js).toQString := by
  cases js with
  | nil => exact Begins.nil
  | cons j js =>
      simp only [SqlSelectQueryBuilder.joinsTextFrom, List.append_assoc]
      cases j.type <;> exact Begins.sql rfl _

/-- One join, in front of the others. -/
theorem words_joinText (type : JoinType) (table : PlainName) (t : SqlText) {u : SqlText}
    (hu : Begins u.toQString) :
    words (SqlText.toQString (joinTypeToString type ++ raw table.text ++ sql " ON " ++ t ++ u))
      = joinWords type ++ ([table.text] ++ (kw "ON" ++ words t.toQString)) ++ words u.toQString := by
  have htype : words (joinTypeToString type).toQString = joinWords type := by
    cases type <;> decide
  have hlast : ∀ c ∈ (joinTypeToString type).toQString.getLast?, separates c = true := by
    cases type <;> exact separates_of_mem rfl separates_space
  have hon : words (latin1 " ON ") = kw "ON" := by decide
  rw [SqlText.toQString_append, words_append_of_right hu]
  congr 1
  simp only [SqlText.toQString_append, SqlText.toQString_sql, SqlText.toQString_raw, List.append_assoc]
  rw [words_append_of_left hlast, htype, words_name table.isName (Begins.of_space rfl _),
    words_piece rfl separates_space hon]

section
variable [CaseFolding] {S : QueryServer} {given : QString → QVariant} {parameters : Parameters}

/-- What the server reads of the joins, behind some tables. -/
structure JoinsRead (S : QueryServer) (given : QString → QVariant) (parameters : Parameters)
    (before : List QString) (n : Nat) (js : List JoinRequest) (us : List (List QString × QueryJoin)) :
    Prop where
  isJoin : ∀ x ∈ us, IsJoin x.1 x.2
  words : words (SqlSelectQueryBuilder.joinsTextFrom n (js.map JoinRequest.info)).toQString
    = us.flatMap Prod.fst
  tables : us.map (fun x => x.2.table.text) = js.map JoinRequest.table
  types : us.map (fun x => x.2.type) = js.map JoinRequest.type
  resolves : SelectQuery.joinsResolve before (us.map Prod.snd)
  plans : SelectQuery.planJoins S parameters before (us.map Prod.snd)
    = JoinRequest.plans S.toServer given before js

/-- **The joins are read**, and ask for what is asked for; their values are bound from `n` on. -/
theorem exists_joinsRead (hdeferred : ∀ w, IsDeferred w → (parameters w).getD .invalid = given w)
    {before : List QString} {js : List JoinRequest} (hplain : PlainJoins before js)
    (htables : ∀ j ∈ js, isPlainName j.table) (n : Nat)
    (hbound : BoundFrom parameters n (js.flatMap fun j => j.condition.boundValues)) :
    ∃ us, JoinsRead S given parameters before n js us := by
  -- a condition sees one table more than the one before it, and its values are bound behind
  induction js generalizing before n with
  | nil => exact ⟨[], nofun, rfl, rfl, rfl, rfl, rfl⟩
  | cons j js ih =>
      obtain ⟨⟨htype, hnamed, htests, hne⟩, hjs⟩ := hplain
      obtain ⟨hplainName, htables⟩ := List.forall_mem_cons.1 htables
      rw [List.flatMap_cons] at hbound
      obtain ⟨us, hus⟩ := ih hjs htables _ hbound.right
      obtain ⟨e, hcondition, hresolves, heval⟩ := isCondition_of_named S.toServer
        (.tables (before ++ [j.table])) Scope.not_clause_of_tables hnamed htests hne n hbound.left hdeferred
      let table : PlainName := ⟨j.table, hplainName⟩
      refine ⟨(joinWords j.type ++ ([table.text] ++ (kw "ON" ++ words (j.condition.textFrom n).toQString)),
        ⟨j.type, table, e⟩) :: us, ?_, ?_, ?_, ?_, ?_, ?_⟩
      · exact List.forall_mem_cons.2 ⟨.mk htype table hcondition, hus.isJoin⟩
      · rw [List.flatMap_cons, ← hus.words]
        exact words_joinText j.type table _ (begins_joinsTextFrom _ _)
      · exact congrArg (j.table :: ·) hus.tables
      · exact congrArg (j.type :: ·) hus.types
      · show (SelectQuery.conditionAccepted (.tables (before ++ [j.table])) (some e)
          && SelectQuery.joinsResolve (before ++ [j.table]) (us.map Prod.snd)) = true
        rw [hresolves, hus.resolves]
        rfl
      · show (⟨_, _, _⟩ : PlanJoin) :: SelectQuery.planJoins S parameters (before ++ [j.table]) (us.map Prod.snd)
          = (⟨_, _, _⟩ : PlanJoin) :: JoinRequest.plans S.toServer given (before ++ [j.table]) js
        rw [hus.plans]
        congr 2
        funext x
        exact congrArg (fun y => decide (y = Truth.true)) (heval x.record)

/-- **The WHERE clause is read.** -/
theorem exists_whereRead {b : SqlConditionalQueryBuilderBase} {op : LogicOperator}
    {calls : List ConditionCall} (hb : b.whereCondition = applyCalls (.new op) calls) {tables : List QString}
    (hnamed : NamedCalls (.tables tables) true calls) (htests : TestsNullOf calls) (n : Nat)
    (hbound : BoundFrom parameters n b.whereValues)
    (hdeferred : ∀ w, IsDeferred w → (parameters w).getD .invalid = given w) :
    ∃ condition : Option (List QString × ConnExpr ReadComparison),
      (∀ x ∈ condition, IsCondition x.1 x.2)
        ∧ words (b.whereTextFrom n).toQString = clause "WHERE" Prod.fst condition
        ∧ SelectQuery.conditionAccepted (.tables tables) (condition.map Prod.snd)
        ∧ ∀ r, ((condition.map Prod.snd).all fun e => e.eval (S.truth parameters (.tables tables) r) = .true)
          = (!(applyCalls (.new op) calls).hasSubConditions
            || (lastOperator op calls).connective.fold
              (S.truthsOf (.tables tables) given r true calls) = .true) := by
  rw [SqlConditionalQueryBuilderBase.whereTextFrom, ← hb]
  by_cases hsub : b.whereCondition.hasSubConditions = true
  · have hvalues : b.whereValues = (applyCalls (.new op) calls).boundValues := by
      rw [SqlConditionalQueryBuilderBase.whereValues, if_pos hsub, hb]
    have hne : (applyCalls (.new op) calls).subConditions ≠ [] := by
      rw [hb] at hsub
      simpa [SqlCondition.hasSubConditions] using hsub
    rw [hvalues] at hbound
    obtain ⟨e, hcondition, hresolves, heval⟩ := isCondition_of_named S.toServer (.tables tables)
      Scope.not_clause_of_tables hnamed htests hne n hbound hdeferred
    refine ⟨some (words (b.whereCondition.textFrom n).toQString, e), ?_, ?_, hresolves, fun r => ?_⟩
    · rintro _ ⟨⟩
      rw [hb]
      exact hcondition
    · rw [if_pos hsub, SqlText.toQString_append, SqlText.toQString_sql,
        words_piece rfl separates_space (by decide : words (latin1 " WHERE ") = kw "WHERE")]
      rfl
    · rw [hsub]
      show decide (e.eval _ = _) = _
      rw [heval]
      rfl
  · refine ⟨none, fun _ hx => (by cases hx), ?_, rfl, fun r => ?_⟩
    · rw [if_neg hsub]
      rfl
    · rw [Bool.eq_false_of_not_eq_true hsub]
      rfl

end

/-! ### The answer -/

theorem begins_tailClauses (b : SqlSelectQueryBuilder) : Begins b.tailClauses.toQString := by
  rw [SqlSelectQueryBuilder.tailClauses, SqlText.toQString_append, SqlText.toQString_append,
    SqlText.toQString_append]
  refine (((Begins.ite (Begins.sql rfl _)).append (Begins.ite (Begins.sql rfl _))).append ?_).append ?_
  · rw [List.append_assoc]
    exact Begins.ite (Begins.sql rfl _)
  · rw [List.append_assoc, List.append_assoc]
    exact Begins.ite (Begins.sql rfl _)

theorem exists_listed {α : Type} (as : List α) : ∃ o, SelectQuery.listed o = as := by
  cases as with
  | nil => exact ⟨none, rfl⟩
  | cons a as => exact ⟨some (a, as), rfl⟩

/-- A list whose elements all come from others. -/
theorem exists_map_eq {α β : Type} {f : α → β} {bs : List β} (h : ∀ b ∈ bs, ∃ a, f a = b) :
    ∃ as : List α, as.map f = bs := by
  have hrange : bs ∈ Set.range (List.map f) := by
    rw [Set.range_list_map]
    exact h
  exact hrange

section
variable [CaseFolding] {S : QueryServer} {given : QString → QVariant} {parameters : Parameters}
  {b : SqlSelectQueryBuilder} {q : QueryRequest}

/-- The columns that are named have their table in front. -/
theorem QueryRequest.Plain.isColumn (hq : q.Plain) {w : QString}
    (hw : w ∈ q.columns.map Prod.fst ++ q.groupColumns ++ q.sortColumns.map Prod.fst) :
    Sqlate.isColumn (.tables q.tables) w = true := by
  have hallowed := hq.allowed
  simp only [SelectNames.allowed, Bool.and_eq_true] at hallowed
  exact List.all_eq_true.1 hallowed.1.1.1.2 w hw

theorem QueryRequest.Plain.isName (hq : q.Plain) {w : QString}
    (hw : w ∈ q.columns.map Prod.fst ++ q.groupColumns ++ q.sortColumns.map Prod.fst) :
    Sqlate.isName w = true := by
  obtain ⟨c, -, -, hname⟩ := exists_of_isColumn (hq.isColumn hw)
  exact hname

/-- The columns of the result. -/
theorem QueryRequest.Plain.exists_targets (hq : q.Plain) :
    ∃ t ts, q.columns = (t :: ts).map targetColumn ∧ t.1.text ≠ latin1 "DISTINCT" := by
  have hcolumns : ∀ col ∈ q.columns, ∃ t, targetColumn t = col := by
    rintro ⟨column, label⟩ hcol
    have hname : Sqlate.isName column = true :=
      hq.isName (List.mem_append_left _ (List.mem_append_left _ (List.mem_map_of_mem hcol)))
    obtain rfl | hlabel := hq.labels _ hcol
    · exact ⟨(⟨column, hname⟩, none), rfl⟩
    · exact ⟨(⟨column, hname⟩, some ⟨label, hlabel⟩), rfl⟩
  obtain ⟨targets, htargets⟩ := exists_map_eq hcolumns
  cases targets with
  | nil => exact absurd htargets.symm hq.columns
  | cons t ts =>
      refine ⟨t, ts, htargets.symm, fun htext => ?_⟩
      have hmem : t.1.text ∈ q.columns.map Prod.fst := by
        rw [← htargets]
        exact List.mem_cons_self
      obtain ⟨c, -, hcolumn, -⟩ := exists_of_isColumn
        (hq.isColumn (List.mem_append_left _ (List.mem_append_left _ hmem)))
      -- the first column is not taken for DISTINCT
      have hdot := Scope.dot_mem_of_tables hcolumn
      rw [htext] at hdot
      revert hdot
      decide

/-- The clauses behind the conditions. -/
theorem QueryRequest.Plain.exists_tail (hq : q.Plain) (noWait : Bool) :
    ∃ (groupBy : Option (NameWord × List NameWord)) (orderBy : Option (SortColumn × List SortColumn))
      (locks : Option ((PlainName × List PlainName) × Bool)),
      (SelectQuery.listed groupBy).map NameWord.text = q.groupColumns
        ∧ (SelectQuery.listed orderBy).map (fun s => (s.1.text, s.2)) = q.sortColumns
        ∧ (SelectQuery.listed (locks.map Prod.fst)).map PlainName.text = q.locks
        ∧ ∀ x ∈ locks, x.2 = noWait := by
  have hgroup : ∀ w ∈ q.groupColumns, ∃ n : NameWord, n.text = w := fun w hw =>
    ⟨⟨w, hq.isName (List.mem_append_left _ (List.mem_append_right _ hw))⟩, rfl⟩
  have hsort : ∀ col ∈ q.sortColumns, ∃ s : SortColumn, (s.1.text, s.2) = col := fun col hcol =>
    ⟨(⟨col.1, hq.isName (List.mem_append_right _ (List.mem_map_of_mem hcol))⟩, col.2), rfl⟩
  have hlock : ∀ w ∈ q.locks, ∃ n : PlainName, n.text = w := fun w hw => ⟨⟨w, hq.locks w hw⟩, rfl⟩
  obtain ⟨names, hnames⟩ := exists_map_eq hgroup
  obtain ⟨sorts, hsorts⟩ := exists_map_eq hsort
  obtain ⟨tables, htables⟩ := exists_map_eq hlock
  obtain ⟨groupBy, rfl⟩ := exists_listed names
  obtain ⟨orderBy, rfl⟩ := exists_listed sorts
  obtain ⟨locked, rfl⟩ := exists_listed tables
  refine ⟨groupBy, orderBy, locked.map fun x => (x, noWait), hnames, hsorts, ?_, ?_⟩
  · have hfst : (Prod.fst ∘ fun x : PlainName × List PlainName => (x, noWait)) = id := rfl
    rw [Option.map_map, hfst, Option.map_id]
    exact htables
  · intro x hx
    obtain ⟨y, -, rfl⟩ := Option.map_eq_some_iff.1 hx
    rfl

/-- The limit that is asked for is written. -/
theorem SqlSelectQueryBuilder.Asks.limit_eq (h : b.Asks q) (hq : q.Plain) :
    (q.limit.map fun l => (l.1.toNat, l.2.toNat))
      = if b.limitOffset ≠ noLimit then some (b.limitOffset.toNat, b.limitLength.toNat) else none := by
  have hlimit := h.limit
  cases hasked : q.limit with
  | none =>
      rw [hasked] at hlimit
      obtain ⟨hoffset, -⟩ := Prod.mk.inj hlimit
      rw [if_neg (not_not_intro hoffset)]
      rfl
  | some l =>
      rw [hasked] at hlimit
      obtain ⟨hoffset, hlength⟩ := Prod.mk.inj hlimit
      rw [hoffset, hlength, if_pos (hq.limit l hasked)]
      rfl

/-- The clauses say what a request asks for; values are bound from `n` on. -/
structure SelectQuery.Clauses.Says (S : QueryServer) (given : QString → QVariant) (parameters : Parameters)
    (n : Nat) (c : SelectQuery.Clauses) (q : QueryRequest) : Prop where
  distinct : c.distinct = q.distinct
  columns : q.columns = (c.target :: c.targets).map targetColumn
  table : c.table.text = q.table
  joins : JoinsRead S given parameters [q.table] n q.joins c.joins
  resolves : conditionAccepted (.tables q.tables) (c.condition.map Prod.snd)
  condition : ∀ r, ((c.condition.map Prod.snd).all fun e =>
      e.eval (S.truth parameters (.tables q.tables) r) = .true)
    = (!q.whereCondition.hasSubConditions
      || (lastOperator q.logicOp q.calls).connective.fold
        (S.truthsOf (.tables q.tables) given r true q.calls) = .true)
  groupBy : (SelectQuery.listed c.groupBy).map NameWord.text = q.groupColumns
  orderBy : (SelectQuery.listed c.orderBy).map (fun s => (s.1.text, s.2)) = q.sortColumns
  locks : (SelectQuery.listed (c.locks.map Prod.fst)).map PlainName.text = q.locks
  limit : c.limit = q.limit.map fun l => (l.1.toNat, l.2.toNat)

namespace SelectQuery.Clauses.Says
variable {n : Nat} {c : SelectQuery.Clauses}

theorem tables (h : c.Says S given parameters n q) : c.query.tables = q.tables := by
  show c.table.text :: (c.joins.map Prod.snd).map (fun j => j.table.text)
    = q.table :: q.joins.map JoinRequest.table
  rw [List.map_map, ← h.joins.tables, h.table]
  rfl

theorem names (h : c.Says S given parameters n q) : c.query.names = q.names := by
  have htypes : (c.joins.map Prod.snd).map QueryJoin.type = q.joins.map JoinRequest.type := by
    rw [List.map_map, ← h.joins.types]
    rfl
  have hcolumns : (c.target :: c.targets).map (fun t => t.1.text) = q.columns.map Prod.fst := by
    rw [h.columns, List.map_map]
    rfl
  have hsorted : (SelectQuery.listed c.orderBy).map (fun s => s.1.text) = q.sortColumns.map Prod.fst := by
    rw [← h.orderBy, List.map_map]
    rfl
  show SelectNames.mk c.query.tables ((c.joins.map Prod.snd).map QueryJoin.type) c.distinct
      ((c.target :: c.targets).map fun t => t.1.text) ((SelectQuery.listed c.groupBy).map NameWord.text)
      ((SelectQuery.listed c.orderBy).map fun s => s.1.text)
      ((SelectQuery.listed (c.locks.map Prod.fst)).map PlainName.text) = q.names
  rw [h.tables, htypes, h.distinct, hcolumns, h.groupBy, hsorted, h.locks]
  rfl

theorem query_resolves (h : c.Says S given parameters n q) (hallowed : q.names.allowed) :
    c.query.resolves := by
  show (c.query.names.allowed && SelectQuery.joinsResolve [c.table.text] (c.joins.map Prod.snd)
    && conditionAccepted (.tables c.query.tables) (c.condition.map Prod.snd)) = true
  rw [h.names, hallowed, h.table, h.joins.resolves, h.tables, h.resolves]
  rfl

/-- The server finds what is asked for. -/
theorem plan (h : c.Says S given parameters n q) :
    c.query.plan S parameters = q.plan S.toServer given := by
  have hshown : (c.target :: c.targets).map (fun t => (columnLabel t.1.text (t.2.elim [] NameWord.text),
      columnValueOf q.tables t.1.text))
        = q.columns.map fun col => (columnLabel col.1 col.2, columnValueOf q.tables col.1) := by
    rw [h.columns, List.map_map]
    rfl
  have hgrouped : (SelectQuery.listed c.groupBy).map (fun n => columnValueOf q.tables n.text)
      = q.groupColumns.map (columnValueOf q.tables) := by
    rw [← h.groupBy, List.map_map]
    rfl
  have hsorted : (SelectQuery.listed c.orderBy).map (fun s => (columnValueOf q.tables s.1.text, s.2))
      = q.sortColumns.map fun col => (columnValueOf q.tables col.1, col.2) := by
    rw [← h.orderBy, List.map_map]
    rfl
  have hmeets : (fun x : Joined => (c.condition.map Prod.snd).all fun e =>
        e.eval (S.truth parameters (.tables q.tables) x.record) = .true) = (q.plan S.toServer given).condition :=
    funext fun x => h.condition x.record
  rw [SelectQuery.plan, h.tables]
  show Plan.mk c.distinct ((c.target :: c.targets).map _) (lower c.table.text)
      (SelectQuery.planJoins S parameters [c.table.text] (c.joins.map Prod.snd)) _
      ((SelectQuery.listed c.groupBy).map _) ((SelectQuery.listed c.orderBy).map _) c.limit
    = q.plan S.toServer given
  rw [h.distinct, hshown, h.table, h.joins.plans, hgrouped, hsorted, h.limit]
  exact congrArg (fun meets => Plan.mk q.distinct _ _ _ meets _ _ _) hmeets

end SelectQuery.Clauses.Says

/-- **The text of a builder is read as what is asked for**, when its numbers go on from `n`. -/
theorem SqlSelectQueryBuilder.Asks.exists_clauses (h : b.Asks q) (hq : q.Plain) (n : Nat)
    (hbound : BoundFrom parameters n b.boundValues)
    (hdeferred : ∀ w, IsDeferred w → (parameters w).getD .invalid = given w) :
    ∃ c : SelectQuery.Clauses, c.WellFormed ∧ words (b.textFrom n).toQString = c.yield
      ∧ c.Says S given parameters n q := by
  have hinfos : b.joins.flatMap (fun j => j.condition.boundValues)
      = q.joins.flatMap fun j => j.condition.boundValues := by
    rw [h.joins, List.flatMap_map]
    rfl
  rw [boundValues, hinfos] at hbound
  obtain ⟨htable, htables⟩ := List.forall_mem_cons.1 hq.tables
  obtain ⟨t, ts, htargets, hdistinct⟩ := hq.exists_targets
  obtain ⟨us, hus⟩ := exists_joinsRead (S := S) hdeferred hq.joins (List.forall_mem_map.1 htables) n hbound.left
  obtain ⟨condition, hcondition, hwhere, hresolves, heval⟩ := exists_whereRead (S := S)
    h.whereCondition hq.condition hq.tests _ hbound.right hdeferred
  obtain ⟨groupBy, orderBy, locks, hgroup, horder, hlocks, hnoWait⟩ := hq.exists_tail b.lockNoWait
  let table : PlainName := ⟨q.table, htable⟩
  have hfrom : b.table = table.text := h.table
  let c : SelectQuery.Clauses := {
    distinct := q.distinct, target := t, targets := ts, table, joins := us, condition, groupBy, orderBy, locks
    limit := q.limit.map fun l => (l.1.toNat, l.2.toNat) }
  have htail : b.HasTail c := ⟨h.groupColumns.trans hgroup.symm, h.sortColumns.trans horder.symm,
    h.lockTablesForUpdate.trans hlocks.symm, hnoWait, h.limit_eq hq⟩
  have hjoined : words (joinsTextFrom n b.joins).toQString = us.flatMap Prod.fst := by
    rw [h.joins]
    exact hus.words
  refine ⟨c, ⟨hdistinct, hus.isJoin, hcondition⟩, ?_,
    ⟨rfl, htargets, rfl, hus, hresolves, heval, hgroup, horder, hlocks, rfl⟩⟩
  rw [textFrom, hinfos, words_clauses (begins_joinsTextFrom n _) (separates_whereTextFrom _ _)
    (begins_tailClauses b), words_selectClause b (h.distinctOn.trans hq.distinctOn)
    (h.columns.trans htargets) hfrom, hjoined, hwhere, htail.words_tailClauses, h.distinct]
  simp only [SelectQuery.Clauses.yield, List.append_assoc]
  rfl

/-- **A SELECT answers what is asked for.** -/
theorem SqlSelectQueryBuilder.Asks.query (h : b.Asks q) (hb : b.assembled = false) (hq : q.Plain)
    {binds : List (QString × QVariant)} (hbinds : NoneGenerated binds) (rows : Rows) :
    S.query (Builder.statement (k := .select) b.assemble binds) rows
      = some ((q.plan S.toServer (givenBy binds)).answer S rows) := by
  have hnow : QVariant.sqlNow ∉ b.boundValues := by
    simp [boundValues, sqlNow_not_mem_boundValues, sqlNow_not_mem_whereValues]
  have hcalls : Builder.bindCalls (k := .select) b.assemble = QSqlResult.bindCalls (b.bindValues ++ b.boundValues) := by
    rw [assemble_eq b hb]
    rfl
  have hstatement : Builder.queryString (k := .select) b.assemble = b.textFrom b.bindValues.length := by
    rw [assemble_eq b hb]
    show b.textFrom (b.bindedValuesOffset + b.bindValues.length) = _
    rw [h.bindedValuesOffset, Nat.zero_add]
  -- the values of earlier assemblies keep the numbers before
  have hparameter : BoundFrom (Builder.statement (k := .select) b.assemble binds).boundValue
      b.bindValues.length b.boundValues := boundFrom_statement b.bindValues hcalls hbinds hnow
  obtain ⟨c, hwellFormed, hwords, hasked⟩ := h.exists_clauses (S := S) hq _ hparameter
    fun w hw => boundValue_statement_deferred hcalls hw.notGenerated
  rw [QueryServer.query, lastQuery_statement, hstatement, hwords, SelectQuery.read_yield hwellFormed,
    Option.bind_some, if_pos (hasked.query_resolves hq.allowed), hasked.plan]

/-! ### Runs -/

omit [CaseFolding] in
/-- A loop that ends has removed the first column with the name. -/
theorem SqlSelectQueryBuilder.removeSortColumnLoop_eq_some {column : QString} {fuel : Nat}
    {cols cols' : List (QString × SortOrder)} (h : removeSortColumnLoop column 0 fuel cols = some cols') :
    cols' = cols.eraseP fun col => col.1 = column := by
  cases fuel with
  | zero => cases h
  | succ fuel =>
      cases cols with
      | nil => exact (Option.some.inj h).symm
      | cons col cols =>
          by_cases hcol : col.1 = column
          · have hround : removeSortColumnLoop column 0 (fuel + 1) (col :: cols) = some cols := if_pos hcol
            rw [hround] at h
            rw [List.eraseP_cons_of_pos (by simpa using hcol)]
            exact (Option.some.inj h).symm
          · have hfront : (col :: cols)[0]? = some col := rfl
            rw [removeSortColumnLoop_of_ne hfront hcol] at h
            cases h

omit [CaseFolding] in
/-- The call returns. -/
def SelectCall.Returns (b : SqlSelectQueryBuilder) : SelectCall → Prop
  | .removeSortColumn fuel column => (b.removeSortColumn fuel column).isSome
  | _ => True

theorem SqlSelectQueryBuilder.Asks.conditional (h : b.Asks q) (c : ConditionalCall) :
    SqlSelectQueryBuilder.Asks ((SelectCall.conditional c).apply b) (q.conditional c) := by
  cases c with
  | setTable table => exact { h with table := rfl }
  | whereCondition call =>
      refine { h with whereCondition := ?_ }
      show call.apply b.whereCondition = applyCalls (.new q.logicOp) (q.calls ++ [call])
      rw [h.whereCondition, applyCalls_append]
      rfl
  | assignWhereCondition op calls => exact { h with whereCondition := rfl }

/-- A call of the program, on both sides. -/
theorem SqlSelectQueryBuilder.Asks.call (h : b.Asks q) {c : SelectCall} (hc : c.Returns b) :
    SqlSelectQueryBuilder.Asks (c.apply b) (q.add c) := by
  cases c with
  | conditional c => exact h.conditional c
  | setDistinct flag => exact { h with distinct := rfl }
  | setDistinctOn distinctExpr => exact { h with distinctOn := rfl }
  | addColumn columnName label =>
      exact { h with columns := congrArg (· ++ [(columnName, label)]) h.columns }
  | addJoin type table op calls =>
      refine { h with joins := ?_ }
      show b.joins ++ [⟨type, table, applyCalls (.new op) calls⟩] = List.map _ (q.joins ++ [⟨type, table, op, calls⟩])
      rw [h.joins, List.map_append]
      rfl
  | addSortColumn column order =>
      exact { h with sortColumns := congrArg (· ++ [(column, order)]) h.sortColumns }
  | removeSortColumn fuel column =>
      -- the loop has returned, with the first column of the name removed
      obtain ⟨b', hb'⟩ := Option.isSome_iff_exists.1 hc
      obtain ⟨cols, hcols, rfl⟩ := Option.map_eq_some_iff.1 hb'
      have happly : (SelectCall.removeSortColumn fuel column).apply b = { b with sortColumns := cols } := by
        rw [SelectCall.apply, hb', Option.getD_some]
      have hremoved := removeSortColumnLoop_eq_some hcols
      rw [h.sortColumns] at hremoved
      rw [happly]
      exact { h with sortColumns := hremoved }
  | addGroupColumn column =>
      exact { h with groupColumns := congrArg (· ++ [column]) h.groupColumns }
  | addLimit offset length => exact { h with limit := rfl }
  | lockExclusive table =>
      exact { h with lockTablesForUpdate := congrArg (· ++ [table]) h.lockTablesForUpdate }
  | tryLockExclusive table =>
      exact { h with lockTablesForUpdate := congrArg (· ++ [table]) h.lockTablesForUpdate }

/-- An assembly does not change what is asked for. -/
theorem SqlSelectQueryBuilder.Asks.assemble (h : b.Asks q) : b.assemble.Asks q := by
  cases hb : b.assembled with
  | true => rwa [assemble_of_assembled b hb]
  | false =>
      rw [assemble_eq b hb]
      exact { h with }

/-- What a program has asked for after a step. -/
def QueryRequest.step (q : QueryRequest) : Step .select → QueryRequest
  | .call c => q.add c
  | .query | .invalidateQuery => q

omit [CaseFolding] in
/-- The step returns. -/
def StepReturns (b : Builder .select) : Step .select → Prop
  | .call c => SelectCall.Returns b c
  | _ => True

/-- The builder has got what the program has asked for. -/
theorem asks_after {db : QString} {steps : List (Step .select)}
    (h : Runs.Along Builder.step StepReturns (Builder.new db .select) steps) :
    SqlSelectQueryBuilder.Asks (Builder.after db steps) (Runs.run QueryRequest.step .new steps) := by
  have hstep : ∀ (b : Builder .select) (q : QueryRequest) (e : Step .select),
      SqlSelectQueryBuilder.Asks b q → StepReturns b e → True →
        SqlSelectQueryBuilder.Asks (b.step e) (q.step e) := by
    intro b q e hasks he _
    cases e with
    | call c => exact hasks.call he
    | query => exact hasks.assemble
    | invalidateQuery => exact { hasks with }
  have hnew : SqlSelectQueryBuilder.Asks (.new db) .new :=
    ⟨rfl, rfl, rfl, rfl, rfl, rfl, rfl, rfl, rfl, rfl, rfl⟩
  exact Runs.run_related_along hstep hnew h (Runs.along_true _ _)

/-- **What a program gets from a SELECT builder.**  Whatever it has done with the builder, with
assemblies in between: if it has invalidated the last of them, the statement answers what the
calls have asked for. -/
theorem select_answers (S : QueryServer) {db : QString} {steps : List (Step .select)}
    (hreturns : Runs.Along Builder.step StepReturns (Builder.new db .select) steps)
    (hfresh : (Builder.after db steps).assembled = false)
    (hplain : (Runs.run QueryRequest.step .new steps).Plain) {binds : List (QString × QVariant)}
    (hbinds : NoneGenerated binds) (rows : Rows) :
    S.query ((Builder.after db steps).assemble.statement binds) rows
      = some (((Runs.run QueryRequest.step .new steps).plan S.toServer (givenBy binds)).answer S rows) :=
  (asks_after hreturns).query hfresh hplain hbinds rows

end

/-- `plainServer`, with NULL behind all other values. -/
def plainQueryServer : QueryServer where
  toServer := plainServer
  same v w := v = w
  before v w := v ≠ .invalid || w = .invalid

/-- Persons of some name and where they live; the join comes after the first assembly. -/
def personSteps : List (Step .select) :=
  [.call (.conditional (.setTable (latin1 "person"))),
   .call (.addColumn (latin1 "person.name") []),
   .call (.conditional (personNamed (.string (latin1 "a")))),
   .query,
   .invalidateQuery,
   .call (.addColumn (latin1 "address.city") (latin1 "lives")),
   .call (.addJoin .leftOuterJoin (latin1 "address") .and
      [.addColumnCondition ⟨latin1 "person.id", List.cons_ne_nil _ _⟩ .equals
        ⟨latin1 "address.personid", List.cons_ne_nil _ _⟩]),
   .call (.addSortColumn (latin1 "address.city") .descendingOrder),
   .call (.addLimit 0 10)]

/-- The rows of a person who lives in `x`, of one of the same name, and of another one. -/
def personRows : Rows :=
  let person (id : UInt8) (name : QString) : QString × Record :=
    (latin1 "person", fun c =>
      if c = latin1 "id" then .other 2 [id] else if c = latin1 "name" then .string name else .invalid)
  let address : QString × Record :=
    (latin1 "address", fun c =>
      if c = latin1 "personid" then .other 2 [1]
      else if c = latin1 "city" then .string (latin1 "x") else .invalid)
  [person 1 (latin1 "a"), person 2 (latin1 "a"), person 3 (latin1 "b"), address]

theorem select_answers_personSteps :
    let _ : CaseFolding := .ascii
    plainQueryServer.query (Builder.statement (k := .select) (Builder.after [] personSteps).assemble []) personRows
      = some (((Runs.run QueryRequest.step .new personSteps).plan plainServer (givenBy [])).answer plainQueryServer
          personRows) := by
  intro _
  let q := Runs.run QueryRequest.step .new personSteps
  have hjoins : PlainJoins [q.table] q.joins := by
    have hleft : isColumn (.tables [latin1 "person", latin1 "address"]) (latin1 "person.id") := by decide
    have hright : isColumn (.tables [latin1 "person", latin1 "address"]) (latin1 "address.personid") := by decide
    exact ⟨⟨by decide, ⟨⟨hleft, hright⟩, trivial⟩, ⟨rfl, trivial⟩, List.cons_ne_nil _ _⟩, trivial⟩
  have hcondition : NamedCalls (.tables q.tables) true q.calls := by
    have hcolumn : isColumn (.tables [latin1 "person", latin1 "address"]) (latin1 "person.name") := by decide
    exact ⟨hcolumn, trivial⟩
  have hlimit : ∀ l ∈ q.limit, l.1 ≠ SqlSelectQueryBuilder.noLimit := by
    intro l hl
    obtain rfl : (0, 10) = l := Option.some.inj hl
    decide
  have hplain : q.Plain := {
    allowed := by decide
    distinctOn := rfl
    columns := List.cons_ne_nil _ _
    labels := by decide
    tables := by decide
    locks := by decide
    joins := hjoins
    condition := hcondition
    tests := ⟨nofun, trivial⟩
    limit := hlimit }
  have hreturns : Runs.Along Builder.step StepReturns (Builder.new [] .select) personSteps :=
    ⟨trivial, trivial, trivial, trivial, trivial, trivial, trivial, trivial, trivial, trivial⟩
  exact select_answers plainQueryServer hreturns rfl hplain (fun _ h => absurd h List.not_mem_nil) personRows

example :
    let _ : CaseFolding := .ascii
    ((Runs.run QueryRequest.step .new personSteps).plan plainServer (givenBy [])).answer plainQueryServer personRows
      = ⟨[latin1 "name", latin1 "lives"],
          [[.string (latin1 "a"), .invalid], [.string (latin1 "a"), .string (latin1 "x")]]⟩ := by
  decide

end Sqlate
