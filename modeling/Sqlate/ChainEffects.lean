/-
Sqlate/ChainEffects.lean

What the statement of a chain does to the rows.

A chain is written with typed columns; its meaning says which rows it removes or adds,
without builders, texts and numbers (`Chain.meaning`).  The builder that it yields is
assembled, the text is prepared and the values are bound, and the server reads the text
and executes it.

What is executed is the part of the chain from its table on (`Chain.exec_eq`): what has
been said before is lost.  A DELETE with its condition in front of `from` therefore does
what it says only if all rows of the table meet the condition (`del_exec_eq_iff`).
-/
import Sqlate.Chains
import Sqlate.StatementRuns

namespace Sqlate

/-! ### What chains mean -/

def DeleteCombinator.term? : DeleteCombinator → Option ConditionTerm
  | where_ cond => some cond
  | _ => none

/-- The truth value of a comparison in a row of a table; `given` are the values of the program's
own placeholders. -/
def ConditionLeaf.truth (S : Server) (table : QString) (given : QString → QVariant) (r : Record) :
    ConditionLeaf → Truth
  | column lhs comp rhs =>
      S.compare comp (Server.columnValue (.table table) r lhs.name) (Server.columnValue (.table table) r rhs.name)
  | value lhs comp v => S.compare comp (Server.columnValue (.table table) r lhs.name) (S.asked v)
  | placeholder lhs comp p => S.compare comp (Server.columnValue (.table table) r lhs.name) (given p.name)

def ConditionTerm.truth (S : Server) (table : QString) (given : QString → QVariant) (r : Record)
    (t : ConditionTerm) : Truth :=
  t.op.connective.fold ((t.first :: t.rest).map (ConditionLeaf.truth S table given r))

/-- The value that a row has got in a column of an INSERT: with `defaultValues` its default, also
if it has been given a value. -/
def ColumnValue.stored (S : Server) (table : QString) (allDefaults : Bool) (col : ColumnValue) : QVariant :=
  if allDefaults || col.isDefault then S.default table (lower col.columnName) else S.asked col.value

namespace Chain

/-- The table that a chain names last. -/
def table : {k : Kind} → Chain k → QString
  | _, .select _ calls => (calls.filterMap SelectCombinator.table?).getLastD []
  | _, .del calls => (calls.filterMap DeleteCombinator.table?).getLastD []
  | _, .insert calls => (calls.filterMap InsertCombinator.table?).getLastD []

/-- A row that a DELETE is about. -/
def removes (S : Server) (given : QString → QVariant) (calls : List DeleteCombinator)
    (x : QString × Record) : Bool :=
  S.concerns false (lower (Chain.del calls).table) x.1
    && (calls.filterMap DeleteCombinator.term?).all fun t =>
      t.truth S (Chain.del calls).table given x.2 = .true

/-- The row that an INSERT adds. -/
def row (S : Server) (calls : List InsertCombinator) : Record :=
  let table := lower (Chain.insert calls).table
  (calls.flatMap InsertCombinator.columnValues).foldl
    (fun r col => Function.update r (lower col.columnName)
      (col.stored S table (calls.any InsertCombinator.isDefaultValues)))
    (S.default table)

/-- **What a chain means**: the rows of all tables after it. -/
def meaning (S : Server) (given : QString → QVariant) (rows : Rows) : {k : Kind} → Chain k → Rows
  | _, .select _ _ => rows
  | _, .del calls => rows.filter fun x => !removes S given calls x
  | _, .insert calls => rows ++ [(lower (Chain.insert calls).table, row S calls)]

/-- The part of a chain from its table on. -/
def fromTable : {k : Kind} → Chain k → Chain k
  | _, .select columns calls => .select columns (calls.dropWhile (!·.isFrom))
  | _, .del calls => .del (calls.dropWhile (!·.isFrom))
  | _, .insert calls => .insert (calls.dropWhile (!·.isInto))

end Chain

/-! ### Conditions as calls -/

/-- The call on a condition that appends a leaf. -/
def ConditionLeaf.call : ConditionLeaf → ConditionCall
  | column lhs comp rhs => .addColumnCondition lhs comp rhs
  | value lhs comp v => .addValueCondition lhs comp v
  | placeholder lhs comp p => .addPlaceholderCondition lhs comp p

/-- The operator that the condition of a term gets. -/
def ConditionTerm.logicOp (t : ConditionTerm) : LogicOperator := if t.rest.isEmpty then .and else t.op

def ConditionTerm.calls (t : ConditionTerm) : List ConditionCall :=
  (t.first :: t.rest).map ConditionLeaf.call

section
variable [CaseFolding]

theorem ConditionLeaf.apply_call (l : ConditionLeaf) (cond : SqlCondition) :
    l.call.apply cond = appendCondition cond l := by
  cases l <;> rfl

theorem applyCalls_leaves (op : LogicOperator) (ls : List ConditionLeaf) :
    applyCalls (.new op) (ls.map ConditionLeaf.call)
      = { SqlCondition.new op with subConditions := ls.map ConditionLeaf.condition } := by
  induction ls using List.reverseRecOn with
  | nil => rfl
  | append_singleton ls l ih =>
      rw [List.map_append, applyCalls_append, ih]
      show l.call.apply _ = _
      rw [ConditionLeaf.apply_call, appendCondition_eq rfl, List.map_append]
      rfl

omit [CaseFolding] in
/-- Leaves leave the operator alone. -/
theorem lastOperator_leaves (op : LogicOperator) (ls : List ConditionLeaf) :
    lastOperator op (ls.map ConditionLeaf.call) = op := by
  induction ls with
  | nil => rfl
  | cons l ls ih => cases l <;> exact ih

theorem truthsOf_leaves (S : Server) (table : QString) (given : QString → QVariant) (r : Record)
    (ls : List ConditionLeaf) :
    S.truthsOf (.table table) given r true (ls.map ConditionLeaf.call)
      = ls.map (ConditionLeaf.truth S table given r) := by
  induction ls with
  | nil => rfl
  | cons l ls ih =>
      cases l <;> exact congrArg (_ :: ·) ih

end

/-! ### Requests of chains -/

namespace Chain

/-- The calls of an INSERT that its builder gets. -/
def insertCalls (calls : List InsertCombinator) : List InsertCall :=
  (calls.flatMap InsertCombinator.columnValues).map fun col =>
    if calls.any InsertCombinator.isDefaultValues || col.isDefault then .addColumn col.columnName
    else .addColumnValue col.columnName col.value

/-- What a chain asks for. -/
def request : {k : Kind} → Chain k → Request k
  | _, .select _ _ => ()
  | _, .del calls =>
      { RowRequest.new with
        table := (Chain.del calls).table
        logicOp := ((calls.filterMap DeleteCombinator.term?).getLast?.map ConditionTerm.logicOp).getD .and
        calls := ((calls.filterMap DeleteCombinator.term?).getLast?.map ConditionTerm.calls).getD [] }
  | _, .insert calls => ⟨(Chain.insert calls).table, insertCalls calls⟩

end Chain

section
variable [CaseFolding]

/-- A condition of one leaf means the same under both operators. -/
theorem ConditionTerm.fold_truthsOf (S : Server) (table : QString) (given : QString → QVariant)
    (r : Record) (t : ConditionTerm) :
    t.logicOp.connective.fold (S.truthsOf (.table table) given r true t.calls) = t.truth S table given r := by
  rw [ConditionTerm.calls, truthsOf_leaves, ConditionTerm.truth, ConditionTerm.logicOp]
  cases t.rest with
  | nil =>
      have hone : ∀ (op : Connective) (x : Truth), op.fold [x] = x := fun op x => op.apply_unit x
      exact (hone _ _).trans (hone _ _).symm
  | cons l ls => rfl

omit [CaseFolding] in
theorem Chain.columnName_insertCalls (calls : List InsertCombinator) :
    (insertCalls calls).map InsertCall.columnName
      = (calls.flatMap InsertCombinator.columnValues).map ColumnValue.columnName := by
  rw [insertCalls, List.map_map]
  apply List.map_congr_left
  intro col _
  show InsertCall.columnName (if _ then _ else _) = _
  split_ifs <;> rfl

omit [CaseFolding] in
theorem Chain.entries_insertCalls (calls : List InsertCombinator) :
    SortedMap.ofList ((insertCalls calls).filterMap InsertCall.entry)
      = if calls.any InsertCombinator.isDefaultValues then .empty
        else InsertExpr.givenValues (calls.flatMap InsertCombinator.columnValues) := by
  rw [insertCalls]
  generalize calls.flatMap InsertCombinator.columnValues = cols
  cases calls.any InsertCombinator.isDefaultValues with
  | true =>
      have hnone : (cols.map fun col => InsertCall.addColumn col.columnName).filterMap InsertCall.entry
          = [] := by
        simp [InsertCall.entry]
      show SortedMap.ofList ((cols.map fun col => InsertCall.addColumn col.columnName).filterMap _) = _
      rw [hnone]
      rfl
  | false =>
      show SortedMap.ofList _ = SortedMap.ofList _
      congr 1
      induction cols with
      | nil => rfl
      | cons col cols ih =>
          rw [List.map_cons, List.filter_cons]
          cases hdefault : col.isDefault with
          | true =>
              rw [List.filterMap_cons_none (by rfl)]
              exact ih
          | false =>
              rw [List.filterMap_cons_some (by rfl)]
              exact congrArg (_ :: ·) ih

/-- The builder of a DELETE or an INSERT has got what the chain says from its table on. -/
theorem Chain.asks_of_queryBuilder {k : Kind} {chain : Chain k} {db : QString} {b : Builder k}
    (h : chain.queryBuilder db = some b) : b.Asks chain.fromTable.request ∧ b.assembled = false := by
  cases chain with
  | select columns calls =>
      obtain ⟨pre, table, post, -, -, -, rfl⟩ := select_queryBuilder_eq h
      exact ⟨trivial, rfl⟩
  | del calls =>
      obtain ⟨table, rfl, rfl⟩ | ⟨table, cond, rfl, rfl⟩ | ⟨table, cond, rfl, rfl⟩ := del_cases h
      · exact ⟨⟨⟨rfl, rfl, rfl⟩, rfl⟩, rfl⟩
      · exact ⟨⟨⟨rfl, (applyCalls_leaves cond.logicOp (cond.first :: cond.rest)).symm, rfl⟩, rfl⟩, rfl⟩
      · exact ⟨⟨⟨rfl, rfl, rfl⟩, rfl⟩, rfl⟩
  | insert calls =>
      obtain ⟨pre, table, post, rfl, hpre, hpost, rfl⟩ := insert_queryBuilder_eq h
      have hafter : (pre ++ .into table :: post).dropWhile (!·.isInto) = .into table :: post := by
        rw [List.dropWhile_append_of_pos (by simpa using hpre)]
        simp [InsertCombinator.isInto]
      have htable : table = (Chain.insert (.into table :: post)).table := by
        simp [Chain.table, InsertCombinator.filterMap_table? hpost, InsertCombinator.table?]
      rw [Chain.fromTable, hafter]
      refine ⟨⟨htable, ?_, ?_⟩, rfl⟩
      · exact (Chain.columnName_insertCalls _).symm
      · exact (Chain.entries_insertCalls _).symm

variable (S : Server) (given : QString → QVariant) (rows : Rows)

omit [CaseFolding] in
/-- The row of an INSERT. -/
theorem Chain.row_request (calls : List InsertCombinator) :
    InsertRequest.row ⟨(Chain.insert calls).table, insertCalls calls⟩ S = Chain.row S calls := by
  rw [InsertRequest.row, Chain.row, insertCalls, List.foldl_map]
  congr 1
  funext r col
  dsimp only [ColumnValue.stored]
  split_ifs <;> rfl

/-- What a chain asks for from its table on is what it means there. -/
theorem Chain.execute_request {k : Kind} {chain : Chain k} {db : QString} {b : Builder k}
    (h : chain.queryBuilder db = some b) :
    chain.fromTable.request.execute S given rows = chain.fromTable.meaning S given rows := by
  cases chain with
  | select columns calls => rfl
  | del calls =>
      have hall : ∀ table, (Chain.del [.from_ table]).request.execute S given rows
          = (Chain.del [.from_ table]).meaning S given rows := fun table => rfl
      obtain ⟨table, rfl, -⟩ | ⟨table, cond, rfl, -⟩ | ⟨table, cond, rfl, -⟩ := del_cases h
      · exact hall table
      · apply List.filter_congr
        intro x _
        have hsub : (applyCalls (.new cond.logicOp) cond.calls).hasSubConditions = true := by
          rw [ConditionTerm.calls, applyCalls_leaves]
          rfl
        show (!(S.concerns _ _ _ && (!(applyCalls (.new cond.logicOp) cond.calls).hasSubConditions
          || decide ((lastOperator cond.logicOp cond.calls).connective.fold
            (S.truthsOf (.table table) given x.2 true cond.calls) = .true))))
          = !(S.concerns _ _ _ && (decide (cond.truth S table given x.2 = .true) && true))
        rw [hsub, ConditionTerm.calls, lastOperator_leaves, ← ConditionTerm.calls,
          ConditionTerm.fold_truthsOf, Bool.and_true]
        rfl
      · exact hall table
  | insert calls =>
      show rows ++ [(_, InsertRequest.row _ S)] = rows ++ [(_, Chain.row S _)]
      rw [← Chain.row_request]
      rfl

theorem Chain.exec_request {k : Kind} {chain : Chain k} {db : QString} {b : Builder k}
    (h : chain.queryBuilder db = some b) (hplain : chain.fromTable.request.Plain)
    {binds : List (QString × QVariant)} (hbinds : NoneGenerated binds) :
    (S.exec (b.assemble.statement binds) rows).getD rows
      = chain.fromTable.request.execute S (givenBy binds) rows := by
  obtain ⟨hasks, hassembled⟩ := Chain.asks_of_queryBuilder h
  exact Meant.Is.exec (m := ⟨k, chain.fromTable.request, binds⟩) S ⟨b, hasks, hassembled, rfl⟩
    ⟨hplain, hbinds⟩ rows

/-- **What the statement of a chain does**: it means what the chain says from its table on.  The
names are those of columns, the values of an INSERT are bound in place, and nobody binds
anything to the placeholders that are generated. -/
theorem Chain.exec_eq {k : Kind} {chain : Chain k} {db : QString} {b : Builder k}
    (h : chain.queryBuilder db = some b) (hplain : chain.fromTable.request.Plain)
    {binds : List (QString × QVariant)} (hbinds : NoneGenerated binds) :
    (S.exec (b.assemble.statement binds) rows).getD rows
      = chain.fromTable.meaning S (givenBy binds) rows := by
  rw [← Chain.execute_request S (givenBy binds) rows h]
  exact Chain.exec_request S rows h hplain hbinds

/-- **When a DELETE removes the rows that its chain says**: if the table comes first, or if all
rows of the table are meant anyway. -/
theorem Chain.del_exec_eq_iff {calls : List DeleteCombinator} {db : QString} {b : SqlDeleteQueryBuilder}
    (h : (Chain.del calls).queryBuilder db = some b) (hplain : (Chain.del calls).fromTable.request.Plain)
    {binds : List (QString × QVariant)} (hbinds : NoneGenerated binds) :
    (S.exec (Builder.statement (k := .delete) b.assemble binds) rows).getD rows
        = (Chain.del calls).meaning S (givenBy binds) rows ↔
      (Chain.del calls).TableFirst ∨
        ∀ x ∈ rows, S.concerns false (lower (Chain.del calls).table) x.1 = true →
          Chain.removes S (givenBy binds) calls x = true := by
  have hexec := Chain.exec_request S rows h hplain hbinds
  rw [Builder.assemble, Chain.execute_request S (givenBy binds) rows h] at hexec
  rw [hexec]
  obtain ⟨table, rfl, -⟩ | ⟨table, cond, rfl, -⟩ | ⟨table, cond, rfl, -⟩ := del_cases h
  · exact iff_of_true rfl (.inl ⟨_, rfl, rfl⟩)
  · exact iff_of_true rfl (.inl ⟨_, rfl, rfl⟩)
  · have hfirst : ¬ (Chain.del [.where_ cond, .from_ table]).TableFirst := by
      rintro ⟨d, hd, hfrom⟩
      obtain rfl := Option.some.inj hd
      cases hfrom
    rw [or_iff_right hfirst]
    show rows.filter (fun x => !(S.concerns false (lower table) x.1 && true))
      = rows.filter (fun x => !Chain.removes S (givenBy binds) [.where_ cond, .from_ table] x) ↔
        ∀ x ∈ rows, S.concerns false (lower table) x.1 = true → _
    constructor
    · intro heq x hx hconcerns
      -- a row that is kept is not concerned
      by_contra hkept
      have hmem : x ∈ rows.filter fun x => !(S.concerns false (lower table) x.1 && true) := by
        rw [heq]
        refine List.mem_filter.2 ⟨hx, ?_⟩
        rw [Bool.eq_false_of_not_eq_true hkept]
        rfl
      have hnot := (List.mem_filter.1 hmem).2
      rw [hconcerns] at hnot
      cases hnot
    · intro hall
      apply List.filter_congr
      intro x hx
      cases hconcerns : S.concerns false (lower table) x.1 with
      | true =>
          rw [hall x hx hconcerns]
          rfl
      | false =>
          show true = !(S.concerns false (lower table) x.1 && _)
          rw [hconcerns]
          rfl

end

/-- `del().from( Person ).where( Person.id == 1 )`, for a server that tells equal values from
others. -/
theorem Chain.exec_eq_tableFirstChain :
    let _ : CaseFolding := .ascii
    let rows : Rows := [(latin1 "tblperson", fun _ => .other 2 [1]), (latin1 "tblperson", fun _ => .invalid)]
    ∃ b, tableFirstChain.queryBuilder [] = some b ∧
      (plainServer.exec (b.assemble.statement []) rows).getD rows
        = tableFirstChain.fromTable.meaning plainServer (givenBy []) rows := by
  intro _ rows
  have hcolumn : isColumn (.table (latin1 "tblPerson")) (latin1 "tblPerson.id") := by decide
  have hplain : tableFirstChain.fromTable.request.Plain :=
    ⟨⟨latin1 "tblPerson", by decide⟩, rfl, hcolumn, trivial⟩
  exact ⟨_, rfl, Chain.exec_eq plainServer rows rfl hplain fun _ h => absurd h List.not_mem_nil⟩

/-- With the condition in front of the table both rows go. -/
example :
    let _ : CaseFolding := .ascii
    let rows : Rows := [(latin1 "tblperson", fun _ => .other 2 [1]), (latin1 "tblperson", fun _ => .invalid)]
    (whereFirstChain.fromTable.meaning plainServer (givenBy []) rows).length = 0 ∧
      (whereFirstChain.meaning plainServer (givenBy []) rows).length = 1 := by
  decide

end Sqlate
