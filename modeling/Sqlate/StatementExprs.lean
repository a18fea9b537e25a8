/-
Sqlate/StatementExprs.lean

The statement expressions `select(…)`, `del()` and `insert()`.

Each expression is a template: what it is an expression of stands in the
template parameters, and the run time data in the members.  Here both are
fields; `none` is `detail::missing`.  A combinator whose assertions do not
hold does not compile, and gives `none`.

The template parameter with the list of joined tables is left out: nothing
looks at it.
-/
import Sqlate.Base.Runs
import Sqlate.ConditionExpr
import Sqlate.InsertQueryBuilder
import Sqlate.SelectQueryBuilder
import Sqlate.UpdateDeleteQueryBuilder

namespace Sqlate

variable [CaseFolding]

/-! ### SELECT -/

/-- `SQL_GROUP_BY_MAX_SIZE`, one more than the columns `groupBy` takes. -/
def groupByMaxSize : Nat := 5

/-- `SQL_ORDER_BY_MAX_SIZE`. -/
def orderByMaxSize : Nat := 3

/-- `SQL_SELECT_MAX_SIZE`. -/
def selectMaxSize : Nat := 45

/-- The first five fields are template parameters; of the type of the WHERE
expression only whether there is one. -/
structure SelectExpr where
  columnList : List QString
  tableT : Option QString
  hasWhere : Bool
  groupByList : List QString
  sortList : List QString
  whereCondition : SqlCondition
  joinInfos : List JoinInfo
  orderInfos : List (QString × SortOrder)

namespace SelectExpr

/-- The empty constructor. -/
def new (columnList : List QString) (tableT : Option QString) (hasWhere : Bool)
    (groupByList sortList : List QString) : SelectExpr where
  columnList := columnList
  tableT := tableT
  hasWhere := hasWhere
  groupByList := groupByList
  sortList := sortList
  whereCondition := .new .and
  joinInfos := []
  orderInfos := []

/-- The "copy" constructor: the members of `other` under new template
parameters. -/
def copy (other : SelectExpr) (columnList : List QString) (tableT : Option QString)
    (hasWhere : Bool) (groupByList sortList : List QString) : SelectExpr :=
  { new columnList tableT hasWhere groupByList sortList with
    whereCondition := other.whereCondition
    joinInfos := other.joinInfos
    orderInfos := other.orderInfos }

/-- Only one `from`.  The result is built by the empty constructor. -/
def from_ (e : SelectExpr) (table : QString) : Option SelectExpr :=
  if e.tableT.isNone then
    some (new e.columnList (some table) e.hasWhere e.groupByList e.sortList)
  else none

/-- Only one `where`. -/
def where_ (e : SelectExpr) (cond : ConditionArgument) : Option SelectExpr :=
  if !e.hasWhere then
    let s := e.copy e.columnList e.tableT true e.groupByList e.sortList
    some { s with whereCondition := assignCondition s.whereCondition cond }
  else none

/-- `MAKE_JOIN_METHOD`: joins come before WHERE. -/
def join (e : SelectExpr) (joinType : JoinType) (table : QString) (cond : ConditionArgument) :
    Option SelectExpr :=
  if !e.hasWhere then
    let s := e.copy e.columnList e.tableT e.hasWhere e.groupByList e.sortList
    let ji : JoinInfo :=
      { type := joinType, table := table, condition := assignCondition (.new .and) cond }
    some { s with joinInfos := s.joinInfos ++ [ji] }
  else none

/-- FROM comes before GROUP BY, and there is only one GROUP BY. -/
def groupBy (e : SelectExpr) (columns : List QString) : Option SelectExpr :=
  if e.tableT.isSome ∧ e.groupByList.length = 0 ∧ 1 ≤ columns.length
      ∧ columns.length < groupByMaxSize then
    some (e.copy e.columnList e.tableT e.hasWhere columns e.sortList)
  else none

/-- FROM comes before ORDER BY, and there is only one ORDER BY.  The overload
without sort orders is the one with ascending order for every column. -/
def orderBy (e : SelectExpr) (columns : List (QString × SortOrder)) : Option SelectExpr :=
  if e.tableT.isSome ∧ e.sortList.length = 0 ∧ 1 ≤ columns.length
      ∧ columns.length < orderByMaxSize then
    let s := e.copy e.columnList e.tableT e.hasWhere e.groupByList (columns.map Prod.fst)
    some { s with orderInfos := s.orderInfos ++ columns }
  else none

/-- A builder needs a table. -/
def queryBuilder (db : QString) (e : SelectExpr) : Option SqlSelectQueryBuilder :=
  e.tableT.map fun table =>
    let qb := e.columnList.foldl (fun qb c => qb.addColumn c []) (SqlSelectQueryBuilder.new db)
    let qb := { qb with table := table }
    let qb := e.joinInfos.foldl (fun qb ji => qb.addJoin ji.type ji.table ji.condition) qb
    let qb := { qb with whereCondition := e.whereCondition }
    let qb := e.groupByList.foldl SqlSelectQueryBuilder.addGroupColumn qb
    e.orderInfos.foldl (fun qb oi => qb.addSortColumn oi.1 oi.2) qb

omit [CaseFolding] in
/-- The builder of an expression, member by member. -/
theorem queryBuilder_eq (db : QString) (e : SelectExpr) :
    e.queryBuilder db = e.tableT.map fun table =>
      { SqlSelectQueryBuilder.new db with
        table := table
        columns := e.columnList.map fun c => (c, [])
        joins := e.joinInfos
        whereCondition := e.whereCondition
        groupColumns := e.groupByList
        sortColumns := e.orderInfos } := by
  have hcolumns := Runs.foldl_collect (fun qb c => SqlSelectQueryBuilder.addColumn qb c [])
    (fun c => (c, [])) (fun cs qb => { qb with columns := qb.columns ++ cs }) (fun qb => by simp)
    (fun cs qb c => by simp [SqlSelectQueryBuilder.addColumn])
  have hjoins := Runs.foldl_collect
    (fun qb ji => SqlSelectQueryBuilder.addJoin qb ji.type ji.table ji.condition) id
    (fun js qb => { qb with joins := qb.joins ++ js }) (fun qb => by simp)
    (fun js qb j => by simp [SqlSelectQueryBuilder.addJoin])
  have hgroups := Runs.foldl_collect SqlSelectQueryBuilder.addGroupColumn id
    (fun cs qb => { qb with groupColumns := qb.groupColumns ++ cs }) (fun qb => by simp)
    (fun cs qb c => by simp [SqlSelectQueryBuilder.addGroupColumn])
  have horders := Runs.foldl_collect
    (fun qb oi => SqlSelectQueryBuilder.addSortColumn qb oi.1 oi.2) id
    (fun os qb => { qb with sortColumns := qb.sortColumns ++ os }) (fun qb => by simp)
    (fun os qb o => by simp [SqlSelectQueryBuilder.addSortColumn])
  simp only [queryBuilder, hcolumns, hjoins, hgroups, horders, List.map_id]
  rfl

end SelectExpr

/-- `select( columns… )`. -/
def select (columns : List QString) : Option SelectExpr :=
  if 1 ≤ columns.length ∧ columns.length < selectMaxSize then
    some (.new columns none false [] [])
  else none

/-! ### DELETE -/

structure DeleteExpr where
  tableT : Option QString
  hasWhere : Bool
  whereCondition : SqlCondition

namespace DeleteExpr

/-- The empty constructor. -/
def new (tableT : Option QString) (hasWhere : Bool) : DeleteExpr where
  tableT := tableT
  hasWhere := hasWhere
  whereCondition := .new .and

/-- Only one `from`.  The result is built by the empty constructor. -/
def from_ (e : DeleteExpr) (table : QString) : Option DeleteExpr :=
  if e.tableT.isNone then some (new (some table) e.hasWhere) else none

/-- Only one `where`. -/
def where_ (e : DeleteExpr) (cond : ConditionArgument) : Option DeleteExpr :=
  if !e.hasWhere then
    some
      { tableT := e.tableT
        hasWhere := true
        whereCondition := assignCondition e.whereCondition cond }
  else none

/-- A builder needs a table. -/
def queryBuilder (db : QString) (e : DeleteExpr) : Option SqlDeleteQueryBuilder :=
  e.tableT.map fun table =>
    let qb := { SqlDeleteQueryBuilder.new db with table := table }
    { qb with whereCondition := e.whereCondition }

end DeleteExpr

/-- `del()`. -/
def del : DeleteExpr := .new none false

/-! ### INSERT -/

/-- A column, with a value or with its default. -/
structure ColumnValue where
  columnName : QString
  value : QVariant
  isDefault : Bool
  deriving DecidableEq, Repr

structure InsertExpr where
  tableT : Option QString
  values : List ColumnValue
  useDefaultValues : Bool

namespace InsertExpr

/-- The empty constructor. -/
def new (tableT : Option QString) : InsertExpr where
  tableT := tableT
  values := []
  useDefaultValues := false

/-- Only one `into`.  The result is built by the empty constructor. -/
def into (e : InsertExpr) (table : QString) : Option InsertExpr :=
  if e.tableT.isNone then some (new (some table)) else none

def columns (e : InsertExpr) (cols : List ColumnValue) : InsertExpr :=
  { e with values := e.values ++ cols }

def defaultValues (e : InsertExpr) : InsertExpr := { e with useDefaultValues := true }

/-- A builder needs a table. -/
def queryBuilder (db : QString) (e : InsertExpr) : Option SqlInsertQueryBuilder :=
  e.tableT.map fun table =>
    let qb := { SqlInsertQueryBuilder.new db with table := table }
    -- defaults for all columns: the names are kept, the values are not
    if e.values.isEmpty || e.useDefaultValues then
      (e.values.foldl (fun qb column => qb.addColumn column.columnName) qb).setToDefaultValues
    else
      e.values.foldl (fun qb col =>
        if col.isDefault then qb.addColumn col.columnName
        else qb.addColumnValue col.columnName col.value) qb

/-- The values of the columns that are given one; a column that is given
several has the last. -/
def givenValues (cols : List ColumnValue) : SortedMap QString QVariant :=
  .ofList ((cols.filter (!·.isDefault)).map fun col => (col.columnName, col.value))

omit [CaseFolding] in
/-- The builder of an expression, member by member. -/
theorem queryBuilder_eq (db : QString) (e : InsertExpr) :
    e.queryBuilder db = e.tableT.map fun table =>
      { SqlInsertQueryBuilder.new db with
        table := table
        columnNames := e.values.map ColumnValue.columnName
        values := if e.useDefaultValues then .empty else givenValues e.values } := by
  have hnames := Runs.foldl_collect
    (fun qb (col : ColumnValue) => SqlInsertQueryBuilder.addColumn qb col.columnName)
    ColumnValue.columnName (fun cs qb => { qb with columnNames := qb.columnNames ++ cs })
    (fun qb => by simp) (fun cs qb c => by simp [SqlInsertQueryBuilder.addColumn])
  have hvalues := Runs.foldl_collect
    (fun qb (col : ColumnValue) =>
      if col.isDefault then SqlInsertQueryBuilder.addColumn qb col.columnName
      else qb.addColumnValue col.columnName col.value)
    id
    (fun cols qb =>
      { qb with
        columnNames := qb.columnNames ++ cols.map ColumnValue.columnName
        values := ((cols.filter (!·.isDefault)).map fun col => (col.columnName, col.value)).foldl
          (fun m e => m.insert e.1 e.2) qb.values })
    (fun qb => by simp) (fun cols qb c => by
      cases hdefault : c.isDefault <;>
        simp [SqlInsertQueryBuilder.addColumn, SqlInsertQueryBuilder.addColumnValue, hdefault])
  rw [queryBuilder]
  congr 1
  funext table
  simp only [hnames, hvalues, List.map_id]
  cases hempty : e.values with
  | nil => cases e.useDefaultValues <;> rfl
  | cons col cols => cases e.useDefaultValues <;> simp [givenValues, SortedMap.ofList,
      SqlInsertQueryBuilder.setToDefaultValues, SqlInsertQueryBuilder.new]

end InsertExpr

/-- `insert()`. -/
def insert : InsertExpr := .new none

end Sqlate
