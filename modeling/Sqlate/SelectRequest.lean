/-
Sqlate/SelectRequest.lean

What the calls on a SELECT builder ask for.

`SelectRequest` is what the calls say, one after the other, and `Requests` when
a statement of the grammar is that.  A request keeps what the builder does not:
the lock mode of every table, and whether there was a limit at all
(`Holds`).  An empty condition asks for nothing, alone or inside of others
(`ConnTree.prune`).
-/
import Sqlate.QueryBuilders
import Sqlate.SelectGrammar

namespace Sqlate

open SqlLexer (Closed lexemes)

/-- A call that adds, sets or locks something. -/
abbrev Addition := { call : SelectCall // ∀ fuel column, call ≠ .removeSortColumn fuel column }

structure SelectRequest where
  distinct : Bool
  distinctOn : QString
  columns : List (QString × QString)
  table : QString
  joins : List JoinInfo
  whereCondition : SqlCondition
  groupColumns : List QString
  sortColumns : List (QString × SortOrder)
  /-- The tables to lock, and whether not to wait for their locks. -/
  locks : List (QString × Bool)
  /-- Offset and length. -/
  limit : Option (UInt32 × UInt32)

namespace SelectRequest

def new : SelectRequest where
  distinct := false
  distinctOn := []
  columns := []
  table := []
  joins := []
  whereCondition := .new .and
  groupColumns := []
  sortColumns := []
  locks := []
  limit := none

section
variable [CaseFolding]

/-- What one more call asks for. -/
def add (r : SelectRequest) : SelectCall → SelectRequest
  | .conditional (.setTable table) => { r with table := table }
  | .conditional (.whereCondition call) => { r with whereCondition := call.apply r.whereCondition }
  | .conditional (.assignWhereCondition op calls) =>
      { r with whereCondition := applyCalls (.new op) calls }
  | .setDistinct flag => { r with distinct := flag }
  | .setDistinctOn distinctExpr => { r with distinctOn := distinctExpr }
  | .addColumn columnName label => { r with columns := r.columns ++ [(columnName, label)] }
  | .addJoin type table op calls =>
      { r with joins := r.joins ++ [⟨type, table, applyCalls (.new op) calls⟩] }
  | .addSortColumn column order => { r with sortColumns := r.sortColumns ++ [(column, order)] }
  | .removeSortColumn _ column =>
      { r with sortColumns := r.sortColumns.eraseP fun col => col.1 = column }
  | .addGroupColumn column => { r with groupColumns := r.groupColumns ++ [column] }
  | .addLimit offset length => { r with limit := some (offset, length) }
  | .lockExclusive table => { r with locks := r.locks ++ [(table, false)] }
  | .tryLockExclusive table => { r with locks := r.locks ++ [(table, true)] }

def of (calls : List Addition) : SelectRequest := calls.foldl (fun r call => r.add call.1) new

end

/-- A join with its condition as a tree. -/
structure Join where
  type : JoinType
  table : QString
  condition : ConnTree Comparison

/-- The joins, when the first numbered leaf of their conditions gets number `n`. -/
def joinsFrom (n : Nat) : List JoinInfo → List Join
  | [] => []
  | j :: js =>
      ⟨j.type, j.table, j.condition.toTree n⟩ :: joinsFrom (n + j.condition.boundValues.length) js

def joinTrees (r : SelectRequest) : List Join := joinsFrom 0 r.joins

/-- The WHERE condition; its leaves are numbered after those of the joins. -/
def whereTree (r : SelectRequest) : ConnTree Comparison :=
  r.whereCondition.toTree (r.joins.flatMap fun j => j.condition.boundValues).length

end SelectRequest

/-! ### Statements that are what is asked for -/

/-- A condition without sub-conditions has no column. -/
def Comparison.isEmpty (a : Comparison) : Bool := a.column.isEmpty

variable {G : Phrases}

/-- A statement has the condition of a tree: its comparisons that are not empty, in
order, and their value. -/
def ConditionRequested (t : ConnTree Comparison) (c : Option (StmtCondition G)) : Prop :=
  match t.prune fun a => !a.isEmpty, c with
  | none, none => True
  | some t, some c => Grammar.Agrees Truth id t c.expr
  | _, _ => False

def StmtJoin.Requested (j : SelectRequest.Join) : StmtJoin G → Prop
  | cross table => j.type = .crossJoin ∧ j.table = table.text
  | qualified type _ table on =>
      j.type = type ∧ j.table = table.text ∧ ConditionRequested j.condition (some on)

def FromRequested (r : SelectRequest) : Option (FromClause G) → Prop
  | none => r.table = [] ∧ r.joins = []
  | some f => r.table = f.table.text ∧ List.Forall₂ StmtJoin.Requested r.joinTrees f.joins

/-- `addColumn`; the label is empty if there is none. -/
def StmtTarget.asked : StmtTarget G → QString × QString
  | plain target => (target.text, [])
  | labelled expr _ label _ => (expr.text, label)

/-- `setDistinct` and `setDistinctOn`. -/
def Duplicates.asked : Duplicates G → Bool × QString
  | all => (false, [])
  | distinct => (true, [])
  | distinctOn exprs => (false, exprs.text)

/-- The tables of the lock clauses, each with its mode. -/
def SelectStmt.lockedTables (s : SelectStmt G) : List (QString × Bool) :=
  s.locks.flatMap fun l => l.tables.map fun t => (t.text, l.noWait)

/-- The statement has exactly the clauses that are asked for. -/
structure SelectStmt.Requests (s : SelectStmt G) (r : SelectRequest) : Prop where
  duplicates : s.duplicates.asked = (r.distinct, r.distinctOn)
  columns : s.targets.map StmtTarget.asked = r.columns
  fromClause : FromRequested r s.fromClause
  whereClause : ConditionRequested r.whereTree s.whereClause
  groupBy : s.groupBy.map Phrase.text = r.groupColumns
  orderBy : s.orderBy.map (fun e => (e.1.text, e.2)) = r.sortColumns
  locks : s.lockedTables = r.locks
  limit : s.limit = r.limit.map fun l => (l.1.toNat, l.2.toNat)

/-! ### What the builder keeps -/

/-- A builder that has got the calls of a request. -/
structure Holds (r : SelectRequest) (b : SqlSelectQueryBuilder) : Prop where
  nextNumber : b.nextNumber = 0
  distinct : b.distinct = r.distinct
  distinctOn : b.distinctOn = r.distinctOn
  columns : b.columns = r.columns
  table : b.table = r.table
  joins : b.joins = r.joins
  whereCondition : b.whereCondition = r.whereCondition
  groupColumns : b.groupColumns = r.groupColumns
  sortColumns : b.sortColumns = r.sortColumns
  /-- The mode of the last table is the mode of all. -/
  lockTablesForUpdate : b.lockTablesForUpdate = r.locks.map Prod.fst
  lockNoWait : b.lockNoWait = r.locks.getLast?.elim false Prod.snd
  limit : (b.limitOffset, b.limitLength) =
    r.limit.getD (SqlSelectQueryBuilder.noLimit, SqlSelectQueryBuilder.noLimit)
  /-- The condition itself is no comparison. -/
  whereColumn : r.whereCondition.column = []

section
variable [CaseFolding]

theorem ConditionCall.column_apply (cond : SqlCondition) (call : ConditionCall) :
    (call.apply cond).column = cond.column := by
  cases call <;> rfl

theorem column_applyCalls (cond : SqlCondition) (calls : List ConditionCall) :
    (applyCalls cond calls).column = cond.column := by
  induction calls generalizing cond with
  | nil => rfl
  | cons call calls ih => rw [applyCalls, ih, ConditionCall.column_apply]

omit [CaseFolding] in
theorem Holds.new (db : QString) : Holds .new (.new db) := by
  constructor <;> rfl

/-- Every call but the removal of a sort column is kept. -/
theorem Holds.step {r : SelectRequest} {b : SqlSelectQueryBuilder} (h : Holds r b)
    (call : Addition) : Holds (r.add call.1) (call.1.apply b) := by
  obtain ⟨call, hcall⟩ := call
  cases call with
  | conditional call =>
      cases call with
      | setTable table => exact { h with table := rfl }
      | whereCondition call =>
          exact { h with
            whereCondition := congrArg (fun cond => call.apply cond) h.whereCondition
            whereColumn := (ConditionCall.column_apply _ call).trans h.whereColumn }
      | assignWhereCondition op calls =>
          exact { h with whereCondition := rfl, whereColumn := column_applyCalls _ calls }
  | setDistinct flag => exact { h with distinct := rfl }
  | setDistinctOn distinctExpr => exact { h with distinctOn := rfl }
  | addColumn columnName label =>
      exact { h with columns := congrArg (· ++ [(columnName, label)]) h.columns }
  | addJoin type table op calls =>
      exact { h with joins := congrArg (· ++ [(⟨type, table, applyCalls (.new op) calls⟩ : JoinInfo)]) h.joins }
  | addSortColumn column order =>
      exact { h with sortColumns := congrArg (· ++ [(column, order)]) h.sortColumns }
  | removeSortColumn fuel column => exact absurd rfl (hcall fuel column)
  | addGroupColumn column =>
      exact { h with groupColumns := congrArg (· ++ [column]) h.groupColumns }
  | addLimit offset length => exact { h with limit := rfl }
  | lockExclusive table =>
      have hnoWait : (r.locks ++ [(table, false)]).getLast?.elim false Prod.snd = false := by simp
      have htables : b.lockTablesForUpdate ++ [table] = (r.locks ++ [(table, false)]).map Prod.fst := by
        rw [h.lockTablesForUpdate, List.map_append]
        rfl
      exact { h with lockTablesForUpdate := htables, lockNoWait := hnoWait.symm }
  | tryLockExclusive table =>
      have hnoWait : (r.locks ++ [(table, true)]).getLast?.elim false Prod.snd = true := by simp
      have htables : b.lockTablesForUpdate ++ [table] = (r.locks ++ [(table, true)]).map Prod.fst := by
        rw [h.lockTablesForUpdate, List.map_append]
        rfl
      exact { h with lockTablesForUpdate := htables, lockNoWait := hnoWait.symm }

/-- The builder after the calls. -/
def SqlSelectQueryBuilder.after (db : QString) (calls : List Addition) : SqlSelectQueryBuilder :=
  calls.foldl (fun b call => call.1.apply b) (.new db)

theorem holds_after (db : QString) (calls : List Addition) :
    Holds (.of calls) (.after db calls) := by
  have hfoldl : ∀ r b, Holds r b →
      Holds (calls.foldl (fun r call => r.add call.1) r)
        (calls.foldl (fun b call => call.1.apply b) b) := by
    induction calls with
    | nil => exact fun _ _ h => h
    | cons call calls ih => exact fun r b h => ih _ _ (h.step call)
  exact hfoldl _ _ (.new db)

end

end Sqlate
