/-
Sqlate/QueryBuilders.lean

The four query builders behind one interface.

`Call k` are the modifications a builder of kind `k` offers, `Step k` adds
`query()` and `invalidateQuery()`, and `Builder.step` is what a step does to
the members of the builder.  Preparing the statement and binding its values
comes after the assembly and changes neither the text nor the bind list; it
is the business of the query cache module.
-/
import Sqlate.Base.Runs
import Sqlate.SelectQueryBuilder
import Sqlate.UpdateDeleteQueryBuilder
import Sqlate.InsertBinding

namespace Sqlate

inductive Kind
  | select | insert | update | delete
  deriving DecidableEq, Repr

/-- The builder class of a kind. -/
@[reducible] def Builder : Kind → Type
  | .select => SqlSelectQueryBuilder
  | .insert => SqlInsertQueryBuilder
  | .update => SqlUpdateQueryBuilder
  | .delete => SqlDeleteQueryBuilder

/-- Modifications that all conditional builders share. -/
inductive ConditionalCall
  | setTable (table : QString)
  | whereCondition (call : ConditionCall)
  | assignWhereCondition (op : LogicOperator) (calls : List ConditionCall)

inductive SelectCall
  | conditional (call : ConditionalCall)
  | setDistinct (flag : Bool)
  | setDistinctOn (distinctExpr : QString)
  | addColumn (columnName label : QString)
  | addJoin (type : JoinType) (table : QString) (op : LogicOperator) (calls : List ConditionCall)
  | addSortColumn (column : QString) (order : SortOrder)
  | removeSortColumn (fuel : Nat) (column : QString)
  | addGroupColumn (column : QString)
  | addLimit (offset length : UInt32)
  | lockExclusive (table : QString)
  | tryLockExclusive (table : QString)

inductive InsertBuilderCall
  | setTable (table : QString)
  | column (call : InsertCall)
  | setToDefaultValues

inductive UpdateCall
  | conditional (call : ConditionalCall)
  | addColumnValue (columnName : QString) (value : QVariant)
  | setIncludesubTales (includeSubTables : Bool)

inductive DeleteCall
  | conditional (call : ConditionalCall)
  | setIncludeSubTables (includeSubTables : Bool)

@[reducible] def Call : Kind → Type
  | .select => SelectCall
  | .insert => InsertBuilderCall
  | .update => UpdateCall
  | .delete => DeleteCall

/-- What a program does with one builder. -/
inductive Step (k : Kind)
  | call (c : Call k)
  | query
  | invalidateQuery

section
variable [CaseFolding]

def ConditionalCall.apply (b : SqlConditionalQueryBuilderBase) :
    ConditionalCall → SqlConditionalQueryBuilderBase
  | setTable table => { b with table := table }
  | whereCondition call => { b with whereCondition := call.apply b.whereCondition }
  | assignWhereCondition op calls => { b with whereCondition := applyCalls (.new op) calls }

/-- A call of `removeSortColumn` that does not return leaves no later state;
keeping the builder as it is only adds states to the runs. -/
def SelectCall.apply (b : SqlSelectQueryBuilder) : SelectCall → SqlSelectQueryBuilder
  | conditional call =>
      { b with toSqlConditionalQueryBuilderBase := call.apply b.toSqlConditionalQueryBuilderBase }
  | setDistinct flag => { b with distinct := flag }
  | setDistinctOn distinctExpr => { b with distinctOn := distinctExpr }
  | addColumn columnName label => b.addColumn columnName label
  | addJoin type table op calls => b.addJoin type table (applyCalls (.new op) calls)
  | addSortColumn column order => b.addSortColumn column order
  | removeSortColumn fuel column => (b.removeSortColumn fuel column).getD b
  | addGroupColumn column => b.addGroupColumn column
  | addLimit offset length => b.addLimit offset length
  | lockExclusive table => b.lockExclusive table
  | tryLockExclusive table => b.tryLockExclusive table

def InsertBuilderCall.apply (b : SqlInsertQueryBuilder) :
    InsertBuilderCall → SqlInsertQueryBuilder
  | setTable table => { b with table := table }
  | column call => call.apply b
  | setToDefaultValues => b.setToDefaultValues

def UpdateCall.apply (b : SqlUpdateQueryBuilder) : UpdateCall → SqlUpdateQueryBuilder
  | conditional call =>
      { b with toSqlConditionalQueryBuilderBase := call.apply b.toSqlConditionalQueryBuilderBase }
  | addColumnValue columnName value => b.addColumnValue columnName value
  | setIncludesubTales flag => { b with includeSubTables := flag }

def DeleteCall.apply (b : SqlDeleteQueryBuilder) : DeleteCall → SqlDeleteQueryBuilder
  | conditional call =>
      { b with toSqlConditionalQueryBuilderBase := call.apply b.toSqlConditionalQueryBuilderBase }
  | setIncludeSubTables flag => { b with includeSubTables := flag }

end

namespace Builder

def new (db : QString) : (k : Kind) → Builder k
  | .select => SqlSelectQueryBuilder.new db
  | .insert => SqlInsertQueryBuilder.new db
  | .update => SqlUpdateQueryBuilder.new db
  | .delete => SqlDeleteQueryBuilder.new db

def assembled : {k : Kind} → Builder k → Bool
  | .select, (b : SqlSelectQueryBuilder) => b.assembled
  | .insert, (b : SqlInsertQueryBuilder) => b.assembled
  | .update, (b : SqlUpdateQueryBuilder) => b.assembled
  | .delete, (b : SqlDeleteQueryBuilder) => b.assembled

def queryString : {k : Kind} → Builder k → SqlText
  | .select, (b : SqlSelectQueryBuilder) => b.queryString
  | .insert, (b : SqlInsertQueryBuilder) => b.queryString
  | .update, (b : SqlUpdateQueryBuilder) => b.queryString
  | .delete, (b : SqlDeleteQueryBuilder) => b.queryString

/-- The values `query()` binds to `:0`, `:1` and so on. -/
def bindList : {k : Kind} → Builder k → List QVariant
  | .select, (b : SqlSelectQueryBuilder) => b.bindValues
  | .insert, (b : SqlInsertQueryBuilder) => b.bindList
  | .update, (b : SqlUpdateQueryBuilder) => b.bindValues
  | .delete, (b : SqlDeleteQueryBuilder) => b.bindValues

/-- What the next numbers depend on: the offset and the values that are
registered already. -/
def numbering : {k : Kind} → Builder k → Nat × List QVariant
  | .select, (b : SqlSelectQueryBuilder) => (b.bindedValuesOffset, b.bindValues)
  | .insert, _ => (0, [])
  | .update, (b : SqlUpdateQueryBuilder) => (b.bindedValuesOffset, b.bindValues)
  | .delete, (b : SqlDeleteQueryBuilder) => (b.bindedValuesOffset, b.bindValues)

/-- The part of `query()` before the statement is prepared. -/
def assemble : {k : Kind} → Builder k → Builder k
  | .select, (b : SqlSelectQueryBuilder) => b.assemble
  | .insert, (b : SqlInsertQueryBuilder) => b.assemble
  | .update, (b : SqlUpdateQueryBuilder) => b.assemble
  | .delete, (b : SqlDeleteQueryBuilder) => b.assemble

def invalidateQuery : {k : Kind} → Builder k → Builder k
  | .select, (b : SqlSelectQueryBuilder) => { b with assembled := false }
  | .insert, (b : SqlInsertQueryBuilder) => { b with assembled := false }
  | .update, (b : SqlUpdateQueryBuilder) => { b with assembled := false }
  | .delete, (b : SqlDeleteQueryBuilder) => { b with assembled := false }

section
variable [CaseFolding]

def apply : {k : Kind} → Builder k → Call k → Builder k
  | .select, b, c => c.apply b
  | .insert, b, c => c.apply b
  | .update, b, c => c.apply b
  | .delete, b, c => c.apply b

def step {k : Kind} (b : Builder k) : Step k → Builder k
  | .call c => b.apply c
  | .query => b.assemble
  | .invalidateQuery => b.invalidateQuery

/-- The builder after a sequence of steps. -/
def after (db : QString) {k : Kind} (steps : List (Step k)) : Builder k :=
  Runs.run step (new db k) steps

end

/-! ### What modifications leave alone -/

/-- Two builders agree in what an assembly has written. -/
structure SameAssembly {k : Kind} (b b' : Builder k) : Prop where
  queryString : b'.queryString = b.queryString
  numbering : b'.numbering = b.numbering

theorem frame_invalidateQuery {k : Kind} (b : Builder k) : SameAssembly b b.invalidateQuery := by
  cases k <;> exact ⟨rfl, rfl⟩

theorem frame_apply [CaseFolding] {k : Kind} (b : Builder k) (c : Call k) :
    SameAssembly b (b.apply c) := by
  cases k with
  | select =>
      cases c with
      | conditional call => cases call <;> exact ⟨rfl, rfl⟩
      | removeSortColumn fuel column =>
          simp only [apply, SelectCall.apply, SqlSelectQueryBuilder.removeSortColumn]
          cases SqlSelectQueryBuilder.removeSortColumnLoop column 0 fuel
            (SqlSelectQueryBuilder.sortColumns b) <;> exact ⟨rfl, rfl⟩
      | _ => exact ⟨rfl, rfl⟩
  | insert =>
      cases c with
      | column call => cases call <;> exact ⟨rfl, rfl⟩
      | _ => exact ⟨rfl, rfl⟩
  | update =>
      cases c with
      | conditional call => cases call <;> exact ⟨rfl, rfl⟩
      | _ => exact ⟨rfl, rfl⟩
  | delete =>
      cases c with
      | conditional call => cases call <;> exact ⟨rfl, rfl⟩
      | _ => exact ⟨rfl, rfl⟩

/-- Calls do not assemble. -/
theorem assembled_apply [CaseFolding] {k : Kind} (b : Builder k) (c : Call k) :
    (b.apply c).assembled = b.assembled := by
  cases k with
  | select =>
      cases c with
      | conditional call => cases call <;> rfl
      | removeSortColumn fuel column =>
          simp only [apply, SelectCall.apply, SqlSelectQueryBuilder.removeSortColumn]
          cases SqlSelectQueryBuilder.removeSortColumnLoop column 0 fuel
            (SqlSelectQueryBuilder.sortColumns b) <;> rfl
      | _ => rfl
  | insert =>
      cases c with
      | column call => cases call <;> rfl
      | _ => rfl
  | update =>
      cases c with
      | conditional call => cases call <;> rfl
      | _ => rfl
  | delete =>
      cases c with
      | conditional call => cases call <;> rfl
      | _ => rfl

end Builder

end Sqlate
