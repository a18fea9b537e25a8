/-
Sqlate/UpdateDeleteQueryBuilder.lean

`SqlUpdateQueryBuilder` and `SqlDeleteQueryBuilder`.

Both clear the bind list when they assemble, so that every assembly numbers
its placeholders from the offset on.  In an UPDATE the SET list takes the
first numbers; a column set to `SqlNow` takes none, a column set to NULL does.
-/
import Sqlate.BuilderBase

namespace Sqlate

structure SqlUpdateQueryBuilder extends SqlConditionalQueryBuilderBase where
  columns : List (QString × QVariant)
  includeSubTables : Bool
  deriving Repr

structure SqlDeleteQueryBuilder extends SqlConditionalQueryBuilderBase where
  includeSubTables : Bool
  deriving Repr

namespace SqlConditionalQueryBuilderBase

/-- `m_bindValues.clear()`. -/
def clearBindValues (b : SqlConditionalQueryBuilderBase) : SqlConditionalQueryBuilderBase :=
  { b with bindValues := [] }

@[simp] theorem nextNumber_clearBindValues (b : SqlConditionalQueryBuilderBase) :
    b.clearBindValues.nextNumber = b.bindedValuesOffset := by
  simp [clearBindValues, nextNumber]

@[simp] theorem register_clearBindValues (b : SqlConditionalQueryBuilderBase)
    (vs : List QVariant) : b.clearBindValues.register vs = { b with bindValues := vs } := by
  simp [clearBindValues, register]

end SqlConditionalQueryBuilderBase

/-! ### UPDATE -/

namespace SqlUpdateQueryBuilder

def new (db : QString) : SqlUpdateQueryBuilder where
  toSqlConditionalQueryBuilderBase := .new db
  columns := []
  includeSubTables := true

def addColumnValue (b : SqlUpdateQueryBuilder) (columnName : QString) (value : QVariant) :
    SqlUpdateQueryBuilder :=
  { b with columns := b.columns ++ [(columnName, value)] }

/-- One round of the loop over the SET columns. -/
def columnToString (acc : SqlText × SqlConditionalQueryBuilderBase) (col : QString × QVariant) :
    SqlText × SqlConditionalQueryBuilderBase :=
  let stmt := acc.1 ++ raw col.1 ++ sql " = "
  if col.2.userType = .sqlNowType then
    (stmt ++ currentDateTime ++ sql ", ", acc.2)
  else
    let r := acc.2.registerBindValue col.2
    (stmt ++ r.1 ++ sql ", ", r.2)

/-- Remove the separator the loop left at the end. -/
def removeSeparator (t : SqlText) : SqlText :=
  if (sql ", ").isSuffixOf t then t.take (t.length - 2) else t

/-- The text up to the SET list. -/
def updateClause (b : SqlUpdateQueryBuilder) : SqlText :=
  sql "UPDATE " ++ (if !b.includeSubTables then sql "ONLY " else []) ++ raw b.table
    ++ sql " SET "

/-- The part of `query()` before the statement is prepared. -/
def assemble (b : SqlUpdateQueryBuilder) : SqlUpdateQueryBuilder :=
  if !b.assembled then
    -- the SET list comes first and takes the first numbers
    let r := b.columns.foldl columnToString (b.updateClause, b.clearBindValues)
    let w := r.2.appendWhere (removeSeparator r.1)
    { b with
      toSqlConditionalQueryBuilderBase :=
        { w.2 with queryString := SqlText.trimmed w.1, assembled := true } }
  else b

/-- The values of the SET columns that take a number. -/
def columnValues (b : SqlUpdateQueryBuilder) : List QVariant :=
  (b.columns.map Prod.snd).filter fun v => v.userType ≠ .sqlNowType

def boundValues (b : SqlUpdateQueryBuilder) : List QVariant := b.columnValues ++ b.whereValues

/-- The SET list, when its first numbered column gets number `n`. -/
def columnsTextFrom (n : Nat) : List (QString × QVariant) → SqlText
  | [] => []
  | col :: cols =>
      if col.2.userType = .sqlNowType then
        raw col.1 ++ sql " = " ++ currentDateTime ++ sql ", " ++ columnsTextFrom n cols
      else
        raw col.1 ++ sql " = " ++ [.bound n col.2] ++ sql ", " ++ columnsTextFrom (n + 1) cols

/-- The text, when the first number is `n`. -/
def textFrom (n : Nat) (b : SqlUpdateQueryBuilder) : SqlText :=
  SqlText.trimmed
    (removeSeparator (b.updateClause ++ columnsTextFrom n b.columns)
      ++ b.whereTextFrom (n + b.columnValues.length))

theorem foldl_columnToString (cols : List (QString × QVariant)) (t : SqlText)
    (base : SqlConditionalQueryBuilderBase) :
    cols.foldl columnToString (t, base)
      = (t ++ columnsTextFrom base.nextNumber cols,
         base.register ((cols.map Prod.snd).filter fun v => v.userType ≠ .sqlNowType)) := by
  induction cols generalizing t base with
  | nil => simp [columnsTextFrom]
  | cons col cols ih =>
      rw [List.foldl_cons, columnToString]
      by_cases hnow : col.2.userType = .sqlNowType
      · simp [hnow, ih, columnsTextFrom, List.append_assoc]
      · simp [hnow, ih, columnsTextFrom, List.append_assoc,
          SqlConditionalQueryBuilderBase.registerBindValue_eq]

theorem assemble_of_assembled (b : SqlUpdateQueryBuilder) (h : b.assembled = true) :
    b.assemble = b := by
  simp [assemble, h]

/-- **Specification of the assembly of an UPDATE**. -/
theorem assemble_eq (b : SqlUpdateQueryBuilder) (h : b.assembled = false) :
    b.assemble = { b with
      bindValues := b.boundValues
      queryString := b.textFrom b.bindedValuesOffset
      assembled := true } := by
  simp only [assemble, h, foldl_columnToString, SqlConditionalQueryBuilderBase.appendWhere_eq]
  simp [SqlConditionalQueryBuilderBase.clearBindValues,
    SqlConditionalQueryBuilderBase.register, SqlConditionalQueryBuilderBase.nextNumber,
    SqlConditionalQueryBuilderBase.whereTextFrom, SqlConditionalQueryBuilderBase.whereValues,
    textFrom, boundValues, columnValues]

theorem marks_columnsTextFrom (n : Nat) (cols : List (QString × QVariant)) :
    SqlText.marks (columnsTextFrom n cols)
      = ((cols.map Prod.snd).filter fun v => v.userType ≠ .sqlNowType).zipIdx n := by
  induction cols generalizing n with
  | nil => rfl
  | cons col cols ih =>
      by_cases hnow : col.2.userType = .sqlNowType
      · simp [columnsTextFrom, hnow, ih]
      · simp [columnsTextFrom, hnow, ih]

theorem marks_removeSeparator (t : SqlText) :
    SqlText.marks (removeSeparator t) = SqlText.marks t := by
  rw [removeSeparator]
  split
  · next hsuffix =>
    obtain ⟨s, rfl⟩ := List.isSuffixOf_iff_suffix.mp hsuffix
    have hlen : (sql ", ").length = 2 := rfl
    simp [hlen]
  · rfl

theorem marks_updateClause (b : SqlUpdateQueryBuilder) :
    SqlText.marks b.updateClause = [] := by
  rw [updateClause]
  split_ifs <;> simp

theorem marks_textFrom (n : Nat) (b : SqlUpdateQueryBuilder) :
    SqlText.marks (b.textFrom n) = b.boundValues.zipIdx n := by
  simp [textFrom, boundValues, columnValues, marks_removeSeparator, marks_updateClause,
    marks_columnsTextFrom, SqlConditionalQueryBuilderBase.marks_whereTextFrom,
    List.zipIdx_append]

end SqlUpdateQueryBuilder

/-! ### DELETE -/

namespace SqlDeleteQueryBuilder

def new (db : QString) : SqlDeleteQueryBuilder where
  toSqlConditionalQueryBuilderBase := .new db
  includeSubTables := true

/-- The text up to the WHERE clause. -/
def deleteClause (b : SqlDeleteQueryBuilder) : SqlText :=
  sql "DELETE FROM " ++ (if !b.includeSubTables then sql "ONLY " else []) ++ raw b.table

/-- The part of `query()` before the statement is prepared. -/
def assemble (b : SqlDeleteQueryBuilder) : SqlDeleteQueryBuilder :=
  if !b.assembled then
    let w := b.clearBindValues.appendWhere b.deleteClause
    { b with
      toSqlConditionalQueryBuilderBase :=
        { w.2 with queryString := SqlText.trimmed w.1, assembled := true } }
  else b

/-- The text, when the first number is `n`. -/
def textFrom (n : Nat) (b : SqlDeleteQueryBuilder) : SqlText :=
  SqlText.trimmed (b.deleteClause ++ b.whereTextFrom n)

theorem assemble_of_assembled (b : SqlDeleteQueryBuilder) (h : b.assembled = true) :
    b.assemble = b := by
  simp [assemble, h]

/-- **Specification of the assembly of a DELETE**. -/
theorem assemble_eq (b : SqlDeleteQueryBuilder) (h : b.assembled = false) :
    b.assemble = { b with
      bindValues := b.whereValues
      queryString := b.textFrom b.bindedValuesOffset
      assembled := true } := by
  simp only [assemble, h, SqlConditionalQueryBuilderBase.appendWhere_eq,
    SqlConditionalQueryBuilderBase.nextNumber_clearBindValues,
    SqlConditionalQueryBuilderBase.register_clearBindValues]
  rfl

theorem marks_deleteClause (b : SqlDeleteQueryBuilder) :
    SqlText.marks b.deleteClause = [] := by
  rw [deleteClause]
  split_ifs <;> simp

theorem marks_textFrom (n : Nat) (b : SqlDeleteQueryBuilder) :
    SqlText.marks (b.textFrom n) = b.whereValues.zipIdx n := by
  simp [textFrom, marks_deleteClause, SqlConditionalQueryBuilderBase.marks_whereTextFrom]

end SqlDeleteQueryBuilder

end Sqlate
