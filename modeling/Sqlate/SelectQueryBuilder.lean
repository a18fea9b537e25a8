/-
Sqlate/SelectQueryBuilder.lean

`SqlSelectQueryBuilder`: its members, its calls and the text it assembles.

Unlike the update and the delete builder, this one does not clear the bind
list when it assembles again: `toString` appends, and the placeholders of the
new text go on from the number reached before (plus the offset that
`combineQueries` may have written into the builder).  `toString_eq` says so.
-/
import Sqlate.BuilderBase

namespace Sqlate

inductive JoinType
  | innerJoin | leftOuterJoin | rightOuterJoin | fullOuterJoin | crossJoin
  deriving DecidableEq, Repr

inductive UnionType
  | union | unionAll
  deriving DecidableEq, Repr

/-- `Qt::SortOrder`. -/
inductive SortOrder
  | ascendingOrder | descendingOrder
  deriving DecidableEq, Repr

structure JoinInfo where
  type : JoinType
  table : QString
  condition : SqlCondition
  deriving Repr

structure SqlSelectQueryBuilder extends SqlConditionalQueryBuilderBase where
  columns : List (QString × QString)
  joins : List JoinInfo
  sortColumns : List (QString × SortOrder)
  groupColumns : List QString
  lockTablesForUpdate : List QString
  distinctOn : QString
  lockNoWait : Bool
  distinct : Bool
  limitOffset : UInt32
  limitLength : UInt32
  deriving Repr

def orderToString : SortOrder → SqlText
  | .ascendingOrder => sql " ASC"
  | .descendingOrder => sql " DESC"

def joinTypeToString : JoinType → SqlText
  | .innerJoin => sql " INNER JOIN "
  | .leftOuterJoin => sql " LEFT OUTER JOIN "
  | .rightOuterJoin => sql " RIGHT OUTER JOIN "
  | .fullOuterJoin => sql " FULL OUTER JOIN "
  | .crossJoin => sql " CROSS JOIN "

namespace SqlSelectQueryBuilder

/-- The unsigned value of the initialiser `-1`, the mark of an unset limit. -/
def noLimit : UInt32 := 0xFFFFFFFF

def new (db : QString) : SqlSelectQueryBuilder where
  toSqlConditionalQueryBuilderBase := .new db
  columns := []
  joins := []
  sortColumns := []
  groupColumns := []
  lockTablesForUpdate := []
  distinctOn := []
  lockNoWait := false
  distinct := false
  limitOffset := noLimit
  limitLength := noLimit

/-! ### Modifications -/

def addColumn (b : SqlSelectQueryBuilder) (columnName label : QString) : SqlSelectQueryBuilder :=
  { b with columns := b.columns ++ [(columnName, label)] }

def addJoin (b : SqlSelectQueryBuilder) (type : JoinType) (table : QString)
    (condition : SqlCondition) : SqlSelectQueryBuilder :=
  { b with joins := b.joins ++ [⟨type, table, condition⟩] }

def addSortColumn (b : SqlSelectQueryBuilder) (column : QString) (order : SortOrder) :
    SqlSelectQueryBuilder :=
  { b with sortColumns := b.sortColumns ++ [(column, order)] }

/-- The loop of `removeSortColumn`, for at most `fuel` rounds: `none` when it
has not returned by then.  The iterator is never advanced. -/
def removeSortColumnLoop (column : QString) (it : Nat) :
    Nat → List (QString × SortOrder) → Option (List (QString × SortOrder))
  | 0, _ => none
  | fuel + 1, cols =>
      match cols[it]? with
      | none => some cols
      | some col =>
          if col.1 = column then some (cols.eraseIdx it)
          -- the next round looks at the same element again
          else removeSortColumnLoop column it fuel cols

def removeSortColumn (b : SqlSelectQueryBuilder) (fuel : Nat) (column : QString) :
    Option SqlSelectQueryBuilder :=
  (removeSortColumnLoop column 0 fuel b.sortColumns).map fun cols =>
    { b with sortColumns := cols }

def addGroupColumn (b : SqlSelectQueryBuilder) (column : QString) : SqlSelectQueryBuilder :=
  { b with groupColumns := b.groupColumns ++ [column] }

def addLimit (b : SqlSelectQueryBuilder) (offset length : UInt32) : SqlSelectQueryBuilder :=
  { b with limitOffset := offset, limitLength := length }

def lockExclusive (b : SqlSelectQueryBuilder) (table : QString) : SqlSelectQueryBuilder :=
  { b with lockTablesForUpdate := b.lockTablesForUpdate ++ [table], lockNoWait := false }

def tryLockExclusive (b : SqlSelectQueryBuilder) (table : QString) : SqlSelectQueryBuilder :=
  { b with lockTablesForUpdate := b.lockTablesForUpdate ++ [table], lockNoWait := true }

/-! ### The text -/

/-- A selected column; a quote in the label is escaped by a backslash. -/
def columnToString (col : QString × QString) : SqlText :=
  if col.2.isEmpty then raw col.1
  else
    let quotedAs := col.2.flatMap fun c =>
      if c = QChar.ofChar '"' then latin1 "\\\"" else [c]
    raw col.1 ++ sql " AS \"" ++ raw quotedAs ++ sql "\""

def sortColumnToString (sortCol : QString × SortOrder) : SqlText :=
  raw sortCol.1 ++ orderToString sortCol.2

/-- One round of the loop over the joins. -/
def joinToString (acc : SqlText × SqlConditionalQueryBuilderBase) (j : JoinInfo) :
    SqlText × SqlConditionalQueryBuilderBase :=
  let r := acc.2.conditionToString j.condition
  (acc.1 ++ joinTypeToString j.type ++ raw j.table ++ sql " ON " ++ r.1, r.2)

/-- The text up to the joins. -/
def selectClause (b : SqlSelectQueryBuilder) : SqlText :=
  sql "SELECT "
    ++ (if b.distinct then sql "DISTINCT " else [])
    -- the source asserts here that `m_distinct` is not set
    ++ (if !b.distinctOn.isEmpty then sql "DISTINCT ON(" ++ raw b.distinctOn ++ sql ") " else [])
    ++ SqlText.join (b.columns.map columnToString) (sql ", ")
    ++ (if !b.table.isEmpty then sql " FROM " ++ raw b.table else [])

/-- The text after the WHERE clause. -/
def tailClauses (b : SqlSelectQueryBuilder) : SqlText :=
  (if !b.groupColumns.isEmpty then
      sql " GROUP BY " ++ SqlText.join (b.groupColumns.map raw) (sql ", ") else [])
    ++ (if !b.sortColumns.isEmpty then
      sql " ORDER BY " ++ SqlText.join (b.sortColumns.map sortColumnToString) (sql ", ") else [])
    ++ (if !b.lockTablesForUpdate.isEmpty then
      sql " FOR UPDATE OF " ++ SqlText.join (b.lockTablesForUpdate.map raw) (sql ", ")
        ++ (if b.lockNoWait then sql " NOWAIT" else []) else [])
    ++ (if b.limitOffset ≠ noLimit then
      sql " OFFSET " ++ raw (QString.number b.limitOffset.toNat)
        ++ sql " LIMIT " ++ raw (QString.number b.limitLength.toNat) else [])

def toString (b : SqlSelectQueryBuilder) : SqlText × SqlSelectQueryBuilder :=
  -- the bind list is not cleared: a second rendering appends to it
  let r := b.joins.foldl joinToString (b.selectClause, b.toSqlConditionalQueryBuilderBase)
  let w := r.2.appendWhere r.1
  (w.1 ++ b.tailClauses, { b with toSqlConditionalQueryBuilderBase := w.2 })

/-- The part of `query()` before the statement is prepared. -/
def assemble (b : SqlSelectQueryBuilder) : SqlSelectQueryBuilder :=
  if !b.assembled then
    let r := b.toString
    { r.2 with queryString := r.1, assembled := true }
  else b

/-! ### What the text depends on -/

/-- The values of the numbered leaves: those of the ON conditions in join
order, then those of the WHERE condition. -/
def boundValues (b : SqlSelectQueryBuilder) : List QVariant :=
  b.joins.flatMap (fun j => j.condition.boundValues) ++ b.whereValues

/-- The joins, when their first numbered leaf gets number `n`. -/
def joinsTextFrom (n : Nat) : List JoinInfo → SqlText
  | [] => []
  | j :: js =>
      joinTypeToString j.type ++ raw j.table ++ sql " ON " ++ j.condition.textFrom n
        ++ joinsTextFrom (n + j.condition.boundValues.length) js

/-- The text, when the first numbered leaf gets number `n`. -/
def textFrom (n : Nat) (b : SqlSelectQueryBuilder) : SqlText :=
  b.selectClause ++ joinsTextFrom n b.joins
    ++ b.whereTextFrom (n + (b.joins.flatMap fun j => j.condition.boundValues).length)
    ++ b.tailClauses

theorem foldl_joinToString (js : List JoinInfo) (t : SqlText)
    (base : SqlConditionalQueryBuilderBase) :
    js.foldl joinToString (t, base)
      = (t ++ joinsTextFrom base.nextNumber js,
         base.register (js.flatMap fun j => j.condition.boundValues)) := by
  induction js generalizing t base with
  | nil => simp [joinsTextFrom]
  | cons j js ih =>
      rw [List.foldl_cons, joinToString, ih]
      simp [base.conditionToString_eq, joinsTextFrom, List.append_assoc]

/-- **Specification of `toString`**. -/
theorem toString_eq (b : SqlSelectQueryBuilder) :
    b.toString = (b.textFrom b.nextNumber,
      { b with toSqlConditionalQueryBuilderBase := b.register b.boundValues }) := by
  simp only [toString, foldl_joinToString, SqlConditionalQueryBuilderBase.appendWhere_eq,
    SqlConditionalQueryBuilderBase.nextNumber_register,
    SqlConditionalQueryBuilderBase.register_register]
  rfl

theorem assemble_of_assembled (b : SqlSelectQueryBuilder) (h : b.assembled = true) :
    b.assemble = b := by
  simp [assemble, h]

/-- **Specification of the assembly of a SELECT**. -/
theorem assemble_eq (b : SqlSelectQueryBuilder) (h : b.assembled = false) :
    b.assemble = { b with
      toSqlConditionalQueryBuilderBase :=
        { b.register b.boundValues with queryString := b.textFrom b.nextNumber, assembled := true } } := by
  simp [assemble, h, toString_eq]

@[simp] theorem marks_orderToString (o : SortOrder) : SqlText.marks (orderToString o) = [] := by
  cases o <;> exact SqlText.marks_sql _

@[simp] theorem marks_joinTypeToString (j : JoinType) :
    SqlText.marks (joinTypeToString j) = [] := by
  cases j <;> exact SqlText.marks_sql _

theorem marks_columnToString (col : QString × QString) :
    SqlText.marks (columnToString col) = [] := by
  rw [columnToString]
  split <;> simp

theorem marks_selectClause (b : SqlSelectQueryBuilder) : SqlText.marks b.selectClause = [] := by
  rw [selectClause]
  split_ifs <;> simp [SqlText.marks_join, marks_columnToString, List.flatMap_map]

theorem marks_tailClauses (b : SqlSelectQueryBuilder) : SqlText.marks b.tailClauses = [] := by
  rw [tailClauses]
  split_ifs <;> simp [SqlText.marks_join, sortColumnToString, List.flatMap_map]

theorem marks_joinsTextFrom (n : Nat) (js : List JoinInfo) :
    SqlText.marks (joinsTextFrom n js)
      = (js.flatMap fun j => j.condition.boundValues).zipIdx n := by
  induction js generalizing n with
  | nil => rfl
  | cons j js ih => simp [joinsTextFrom, ih, marks_textFrom, List.zipIdx_append]

/-- The generated placeholders are the numbered leaves, in order. -/
theorem marks_textFrom (n : Nat) (b : SqlSelectQueryBuilder) :
    SqlText.marks (b.textFrom n) = b.boundValues.zipIdx n := by
  simp [textFrom, boundValues, marks_selectClause, marks_joinsTextFrom, marks_tailClauses,
    SqlConditionalQueryBuilderBase.marks_whereTextFrom, List.zipIdx_append]

/-! ### Removing a sort column -/

/-- A round whose element has another name changes nothing, so that the loop
stays at that element. -/
theorem removeSortColumnLoop_of_ne {column : QString} {it : Nat}
    {cols : List (QString × SortOrder)} {col : QString × SortOrder}
    (hcol : cols[it]? = some col) (hne : col.1 ≠ column) (fuel : Nat) :
    removeSortColumnLoop column it fuel cols = none := by
  induction fuel with
  | zero => rfl
  | succ fuel ih =>
      rw [removeSortColumnLoop, hcol]
      show (if col.1 = column then _ else removeSortColumnLoop column it fuel cols) = none
      rw [if_neg hne, ih]

theorem removeSortColumnLoop_zero_cons (column : QString) (col : QString × SortOrder)
    (cols : List (QString × SortOrder)) (hcol : col.1 = column) :
    removeSortColumnLoop column 0 1 (col :: cols) = some cols := by
  show (if col.1 = column then some cols else none) = some cols
  rw [if_pos hcol]

/-- With another name in front, the loop does not end. -/
theorem removeSortColumn_of_ne {b : SqlSelectQueryBuilder} {column : QString}
    {col : QString × SortOrder} {cols : List (QString × SortOrder)}
    (hcols : b.sortColumns = col :: cols) (hne : col.1 ≠ column) (fuel : Nat) :
    b.removeSortColumn fuel column = none := by
  have hfirst : b.sortColumns[0]? = some col := by rw [hcols]; rfl
  rw [removeSortColumn, removeSortColumnLoop_of_ne hfirst hne]
  rfl

/-- **When a sort column is removed**: `removeSortColumn` returns, with the
first entry of that name removed, exactly when the list is empty or that entry
is its very first one. -/
theorem removeSortColumn_returns_iff (b : SqlSelectQueryBuilder) (column : QString) :
    (∃ fuel, b.removeSortColumn fuel column
        = some { b with sortColumns := b.sortColumns.eraseP fun col => col.1 = column }) ↔
      ∀ col ∈ b.sortColumns.head?, col.1 = column := by
  cases hcols : b.sortColumns with
  | nil =>
      constructor
      · intro _ col hcol
        cases hcol
      · intro _
        refine ⟨1, ?_⟩
        rw [removeSortColumn, hcols]
        rfl
  | cons col cols =>
      constructor
      · rintro ⟨fuel, h⟩ _ ⟨⟩
        by_contra hne
        rw [← hcols, removeSortColumn_of_ne hcols hne] at h
        cases h
      · intro h
        have hcol : col.1 = column := h col rfl
        refine ⟨1, ?_⟩
        rw [removeSortColumn, hcols, removeSortColumnLoop_zero_cons column col cols hcol,
          List.eraseP_cons_of_pos (by simpa using hcol)]
        rfl

/-- Sorted by `a` and by `b`, a builder does not return from removing `b`. -/
theorem removeSortColumn_second_hangs :
    ¬ ∃ fuel,
      (((new (latin1 "db")).addSortColumn (latin1 "a") .ascendingOrder).addSortColumn
          (latin1 "b") .ascendingOrder).removeSortColumn fuel (latin1 "b")
        = some ((new (latin1 "db")).addSortColumn (latin1 "a") .ascendingOrder) := by
  rintro ⟨fuel, h⟩
  have hne : latin1 "a" ≠ latin1 "b" := by decide
  rw [removeSortColumn_of_ne rfl hne] at h
  cases h

end SqlSelectQueryBuilder

end Sqlate
