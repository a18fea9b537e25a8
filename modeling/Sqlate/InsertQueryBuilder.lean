/-
Sqlate/InsertQueryBuilder.lean

`SqlInsertQueryBuilder`.

The column names are kept in a list, in call order, and the values in a
`QMap`, in name order.  The text numbers its placeholders by list position;
what the builder binds are the values in map order.
-/
import Sqlate.Base.SortedMap
import Sqlate.BuilderBase

namespace Sqlate

structure SqlInsertQueryBuilder extends SqlQueryBuilderBase where
  columnNames : List QString
  values : SortedMap QString QVariant

namespace SqlText

/-- Write the elements of a list one after the other, each followed by a
comma. -/
def appendCommaSeparated (t : SqlText) (items : List SqlText) : SqlText :=
  items.foldl (fun t item => t ++ item ++ sql ",") t

/-- The last comma is overwritten by the closing parenthesis. -/
def closeList (t : SqlText) : SqlText := setLast t (QChar.ofChar ')')

theorem appendCommaSeparated_eq (t : SqlText) {items : List SqlText} (h : items ≠ []) :
    appendCommaSeparated t items = t ++ join items (sql ",") ++ sql "," := by
  induction items generalizing t with
  | nil => exact absurd rfl h
  | cons item items ih =>
      rw [appendCommaSeparated, List.foldl_cons, ← appendCommaSeparated]
      cases items with
      | nil => simp [appendCommaSeparated]
      | cons next rest =>
          rw [ih _ (by simp), join_cons_cons]
          simp only [List.append_assoc]

theorem closeList_appendCommaSeparated (t : SqlText) {items : List SqlText} (h : items ≠ []) :
    closeList (appendCommaSeparated t items) = t ++ join items (sql ",") ++ sql ")" := by
  have hcomma : sql "," = [Sym.ch (QChar.ofChar ',')] := rfl
  rw [appendCommaSeparated_eq t h, hcomma, closeList, setLast, List.dropLast_concat]
  rfl

end SqlText

namespace SqlInsertQueryBuilder

def new (db : QString) : SqlInsertQueryBuilder where
  toSqlQueryBuilderBase := .new db
  columnNames := []
  values := .empty

def addColumnValue (b : SqlInsertQueryBuilder) (columnName : QString) (value : QVariant) :
    SqlInsertQueryBuilder :=
  { b with
    columnNames := b.columnNames ++ [columnName]
    values := b.values.insert columnName value }

def addColumn (b : SqlInsertQueryBuilder) (columnName : QString) : SqlInsertQueryBuilder :=
  { b with columnNames := b.columnNames ++ [columnName] }

def setToDefaultValues (b : SqlInsertQueryBuilder) : SqlInsertQueryBuilder :=
  { b with values := .empty }

/-- The expression in the VALUES list for the column at position `index`. -/
def valueExpression (values : SortedMap QString QVariant) (index : Nat) (column : QString) :
    SqlText :=
  match values.find? column with
  | some value =>
      if value.userType = .sqlNowType then currentDateTime else [.bound index value]
  | none => sql "DEFAULT"

/-- The statement text. -/
def toText (b : SqlInsertQueryBuilder) : SqlText :=
  let queryString := sql "INSERT INTO " ++ raw b.table
  if b.columnNames.isEmpty then queryString ++ sql " DEFAULT VALUES"
  else
    let columns := (queryString ++ sql " (").appendCommaSeparated (b.columnNames.map raw)
    -- the index counts all columns, also those without a placeholder
    let expressions := b.columnNames.zipIdx.map fun c => valueExpression b.values c.2 c.1
    ((columns.closeList ++ sql " VALUES (").appendCommaSeparated expressions).closeList

/-- The part of `query()` before the statement is prepared. -/
def assemble (b : SqlInsertQueryBuilder) : SqlInsertQueryBuilder :=
  if !b.assembled then { b with queryString := b.toText, assembled := true } else b

theorem assemble_of_assembled (b : SqlInsertQueryBuilder) (h : b.assembled = true) :
    b.assemble = b := by
  simp [assemble, h]

/-- The values that `query()` binds, to `:0`, `:1` and so on. -/
def bindList (b : SqlInsertQueryBuilder) : List QVariant :=
  if b.columnNames.isEmpty then [] else b.values.values

end SqlInsertQueryBuilder

end Sqlate
