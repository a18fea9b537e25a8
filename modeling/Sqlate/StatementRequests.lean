/-
Sqlate/StatementRequests.lean

What a program asks for with a builder that changes rows.

A request is what the calls of the program say; `Request.execute` is what it should do
to the rows of all tables.  A builder has got the request that its calls make up
(`Builder.Asks`), and neither an assembly nor its invalidation changes that.
-/
import Sqlate.ConditionMeaning
import Sqlate.DeleteBinding

namespace Sqlate

/-- A request to change or to remove rows. -/
structure RowRequest where
  table : QString
  includeSubTables : Bool
  /-- The columns of an UPDATE with their new values. -/
  columns : List (QString × QVariant)
  logicOp : LogicOperator
  calls : List ConditionCall

namespace RowRequest

def new : RowRequest where
  table := []
  includeSubTables := true
  columns := []
  logicOp := .and
  calls := []

def conditional (q : RowRequest) : ConditionalCall → RowRequest
  | .setTable table => { q with table := table }
  | .whereCondition call => { q with calls := q.calls ++ [call] }
  | .assignWhereCondition op calls => { q with logicOp := op, calls := calls }

def update (q : RowRequest) : UpdateCall → RowRequest
  | .conditional call => q.conditional call
  | .addColumnValue columnName value => { q with columns := q.columns ++ [(columnName, value)] }
  | .setIncludesubTales flag => { q with includeSubTables := flag }

def delete (q : RowRequest) : DeleteCall → RowRequest
  | .conditional call => q.conditional call
  | .setIncludeSubTables flag => { q with includeSubTables := flag }

/-- The row with its new values. -/
def assigned (q : RowRequest) (S : Server) (r : Record) : Record :=
  q.columns.foldl (fun r col => Function.update r (lower col.1) (S.asked col.2)) r

section
variable [CaseFolding]

def whereCondition (q : RowRequest) : SqlCondition := applyCalls (.new q.logicOp) q.calls

/-- The truth values of the comparisons of the WHERE condition. -/
def whereTruths (q : RowRequest) (S : Server) (given : QString → QVariant) (r : Record) : List Truth :=
  S.truthsOf (.table q.table) given r true q.calls

/-- A row that the request is about; without a condition these are all rows of the
tables. -/
def selects (q : RowRequest) (S : Server) (given : QString → QVariant) (x : QString × Record) : Bool :=
  S.concerns (!q.includeSubTables) (lower q.table) x.1
    && (!q.whereCondition.hasSubConditions
      || (lastOperator q.logicOp q.calls).connective.fold (q.whereTruths S given x.2) = .true)

end

end RowRequest

/-- A request to add a row. -/
structure InsertRequest where
  table : QString
  calls : List InsertCall

namespace InsertRequest

def new : InsertRequest := ⟨[], []⟩

def add (q : InsertRequest) : InsertBuilderCall → InsertRequest
  | .setTable table => { q with table := table }
  | .column call => { q with calls := q.calls ++ [call] }
  | .setToDefaultValues => { q with calls := q.calls.map fun call => .addColumn call.columnName }

/-- The value that a call gives to its column. -/
def valueOf (S : Server) (table : QString) : InsertCall → QVariant
  | .addColumnValue _ value => S.asked value
  | .addColumn columnName => S.default table (lower columnName)

/-- The new row. -/
def row (q : InsertRequest) (S : Server) : Record :=
  q.calls.foldl (fun r call => Function.update r (lower call.columnName) (valueOf S (lower q.table) call))
    (S.default (lower q.table))

end InsertRequest

/-- What can be asked for with a builder; a SELECT changes no row. -/
@[reducible] def Request : Kind → Type
  | .select => Unit
  | .insert => InsertRequest
  | .update => RowRequest
  | .delete => RowRequest

namespace Request

def new : (k : Kind) → Request k
  | .select => ()
  | .insert => InsertRequest.new
  | .update => RowRequest.new
  | .delete => RowRequest.new

/-- What one more call asks for. -/
def add : {k : Kind} → Request k → Call k → Request k
  | .select, _, _ => ()
  | .insert, (q : InsertRequest), c => q.add c
  | .update, (q : RowRequest), c => q.update c
  | .delete, (q : RowRequest), c => q.delete c

/-- The rows of all tables after the request, when `given` are the values of the
program's own placeholders. -/
def execute [CaseFolding] (S : Server) (given : QString → QVariant) (rows : Rows) :
    {k : Kind} → Request k → Rows
  | .select, _ => rows
  | .insert, (q : InsertRequest) => rows ++ [(lower q.table, q.row S)]
  | .update, (q : RowRequest) =>
      rows.map fun x => if q.selects S given x then (x.1, q.assigned S x.2) else x
  | .delete, (q : RowRequest) => rows.filter fun x => !q.selects S given x

end Request

/-! ### The request of a builder -/

section
variable [CaseFolding]

/-- The builder has got what is asked for. -/
structure SqlConditionalQueryBuilderBase.Asks (b : SqlConditionalQueryBuilderBase) (q : RowRequest) :
    Prop where
  table : b.table = q.table
  whereCondition : b.whereCondition = q.whereCondition
  bindedValuesOffset : b.bindedValuesOffset = 0

structure SqlUpdateQueryBuilder.Asks (b : SqlUpdateQueryBuilder) (q : RowRequest) : Prop where
  base : b.toSqlConditionalQueryBuilderBase.Asks q
  columns : b.columns = q.columns
  includeSubTables : b.includeSubTables = q.includeSubTables

structure SqlDeleteQueryBuilder.Asks (b : SqlDeleteQueryBuilder) (q : RowRequest) : Prop where
  base : b.toSqlConditionalQueryBuilderBase.Asks q
  includeSubTables : b.includeSubTables = q.includeSubTables

omit [CaseFolding] in
structure SqlInsertQueryBuilder.Asks (b : SqlInsertQueryBuilder) (q : InsertRequest) : Prop where
  table : b.table = q.table
  columnNames : b.columnNames = q.calls.map InsertCall.columnName
  values : b.values = SortedMap.ofList (q.calls.filterMap InsertCall.entry)

def Builder.Asks : {k : Kind} → Builder k → Request k → Prop
  | .select, _, _ => True
  | .insert, (b : SqlInsertQueryBuilder), q => b.Asks q
  | .update, (b : SqlUpdateQueryBuilder), q => b.Asks q
  | .delete, (b : SqlDeleteQueryBuilder), q => b.Asks q

theorem applyCalls_append (cond : SqlCondition) (calls calls' : List ConditionCall) :
    applyCalls cond (calls ++ calls') = applyCalls (applyCalls cond calls) calls' := by
  induction calls generalizing cond with
  | nil => rfl
  | cons call calls ih => exact ih _

theorem SqlConditionalQueryBuilderBase.Asks.conditional {b : SqlConditionalQueryBuilderBase}
    {q : RowRequest} (h : b.Asks q) (c : ConditionalCall) : (c.apply b).Asks (q.conditional c) := by
  cases c with
  | setTable table => exact { h with table := rfl }
  | whereCondition call =>
      refine { h with whereCondition := ?_ }
      show call.apply b.whereCondition = applyCalls (.new q.logicOp) (q.calls ++ [call])
      rw [h.whereCondition, applyCalls_append]
      rfl
  | assignWhereCondition op calls => exact { h with whereCondition := rfl }

omit [CaseFolding] in
theorem SqlInsertQueryBuilder.Asks.column {b : SqlInsertQueryBuilder} {q : InsertRequest}
    (h : b.Asks q) (call : InsertCall) :
    (call.apply b).Asks { q with calls := q.calls ++ [call] } := by
  cases call with
  | addColumnValue columnName value =>
      refine ⟨h.table, ?_, ?_⟩
      · show b.columnNames ++ [columnName] = _
        rw [h.columnNames, List.map_append]
        rfl
      · show b.values.insert columnName value = _
        rw [h.values, List.filterMap_append, SortedMap.ofList, SortedMap.ofList, List.foldl_append]
        rfl
  | addColumn columnName =>
      refine ⟨h.table, ?_, ?_⟩
      · show b.columnNames ++ [columnName] = _
        rw [h.columnNames, List.map_append]
        rfl
      · show b.values = _
        rw [h.values, List.filterMap_append]
        exact congrArg _ (List.append_nil _).symm

omit [CaseFolding] in
theorem SqlInsertQueryBuilder.Asks.add {b : SqlInsertQueryBuilder} {q : InsertRequest}
    (h : b.Asks q) (c : InsertBuilderCall) : SqlInsertQueryBuilder.Asks (c.apply b) (q.add c) := by
  cases c with
  | setTable table => exact { h with table := rfl }
  | column call => exact h.column call
  | setToDefaultValues =>
      have hentries : (q.calls.map fun call => InsertCall.addColumn call.columnName).filterMap
          InsertCall.entry = [] := by
        simp [InsertCall.entry]
      refine ⟨h.table, ?_, ?_⟩
      · show b.columnNames = _
        rw [h.columnNames, InsertRequest.add, List.map_map]
        rfl
      · show SortedMap.empty = _
        rw [InsertRequest.add, hentries]
        rfl

omit [CaseFolding] in
theorem SqlInsertQueryBuilder.assemble_eq (b : SqlInsertQueryBuilder) (h : b.assembled = false) :
    b.assemble = { b with queryString := b.toText, assembled := true } := by
  simp [assemble, h]

theorem Builder.asks_new (db : QString) (k : Kind) : (Builder.new db k).Asks (.new k) := by
  cases k with
  | select => trivial
  | insert => exact ⟨rfl, rfl, rfl⟩
  | update => exact ⟨⟨rfl, rfl, rfl⟩, rfl, rfl⟩
  | delete => exact ⟨⟨rfl, rfl, rfl⟩, rfl⟩

theorem Builder.Asks.call {k : Kind} {b : Builder k} {q : Request k} (h : b.Asks q) (c : Call k) :
    (b.apply c).Asks (q.add c) := by
  cases k with
  | select => trivial
  | insert => exact SqlInsertQueryBuilder.Asks.add h c
  | update =>
      obtain ⟨hbase, hcolumns, hsub⟩ := h
      cases c with
      | conditional c => exact ⟨hbase.conditional c, by cases c <;> exact hcolumns, by cases c <;> exact hsub⟩
      | addColumnValue columnName value =>
          exact ⟨{ hbase with }, congrArg (· ++ [(columnName, value)]) hcolumns, hsub⟩
      | setIncludesubTales flag => exact ⟨{ hbase with }, hcolumns, rfl⟩
  | delete =>
      obtain ⟨hbase, hsub⟩ := h
      cases c with
      | conditional c => exact ⟨hbase.conditional c, by cases c <;> exact hsub⟩
      | setIncludeSubTables flag => exact ⟨{ hbase with }, rfl⟩

/-- An assembly does not change what is asked for. -/
theorem Builder.Asks.assemble {k : Kind} {b : Builder k} {q : Request k} (h : b.Asks q)
    (hb : b.assembled = false) : b.assemble.Asks q := by
  cases k with
  | select => trivial
  | insert =>
      obtain ⟨htable, hnames, hvalues⟩ := h
      rw [Builder.assemble, SqlInsertQueryBuilder.assemble_eq b hb]
      exact ⟨htable, hnames, hvalues⟩
  | update =>
      obtain ⟨hbase, hcolumns, hsub⟩ := h
      rw [Builder.assemble, SqlUpdateQueryBuilder.assemble_eq b hb]
      exact ⟨{ hbase with }, hcolumns, hsub⟩
  | delete =>
      obtain ⟨hbase, hsub⟩ := h
      rw [Builder.assemble, SqlDeleteQueryBuilder.assemble_eq b hb]
      exact ⟨{ hbase with }, hsub⟩

theorem Builder.Asks.invalidateQuery {k : Kind} {b : Builder k} {q : Request k} (h : b.Asks q) :
    b.invalidateQuery.Asks q := by
  cases k with
  | select => trivial
  | insert => exact ⟨h.table, h.columnNames, h.values⟩
  | update =>
      obtain ⟨hbase, hcolumns, hsub⟩ := h
      exact ⟨{ hbase with }, hcolumns, hsub⟩
  | delete =>
      obtain ⟨hbase, hsub⟩ := h
      exact ⟨{ hbase with }, hsub⟩

omit [CaseFolding] in
theorem Builder.assembled_assemble {k : Kind} (b : Builder k) : b.assemble.assembled = true := by
  cases hb : b.assembled with
  | true => rwa [Builder.assemble_of_assembled hb]
  | false =>
      cases k with
      | select =>
          rw [Builder.assemble, SqlSelectQueryBuilder.assemble_eq b hb]
          rfl
      | insert =>
          rw [Builder.assemble, SqlInsertQueryBuilder.assemble_eq b hb]
          rfl
      | update =>
          rw [Builder.assemble, SqlUpdateQueryBuilder.assemble_eq b hb]
          rfl
      | delete =>
          rw [Builder.assemble, SqlDeleteQueryBuilder.assemble_eq b hb]
          rfl

end

end Sqlate
