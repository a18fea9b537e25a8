/-
Sqlate/Chains.lean

Chains of combinators, and the clauses that reach the query builder.

A chain is what a program writes after `select(…)`, `del()` or `insert()`.
`Chain.queryBuilder` is the builder it yields, `none` when the chain does not
compile; `Chain.Carried` says that a builder has exactly the clauses of the
chain.

`from` and `into` return a new expression and carry over the template
parameters only, so whatever a chain says before them at run time is lost.
An INSERT with `defaultValues` loses all values that its columns are given.
-/
import Sqlate.QueryBuilders
import Sqlate.StatementExprs

namespace Sqlate

/-! ### Combinators -/

inductive SelectCombinator
  | from_ (table : QString)
  | where_ (cond : ConditionTerm)
  | join (joinType : JoinType) (table : QString) (cond : ConditionTerm)
  | groupBy (columns : List QString)
  | orderBy (columns : List (QString × SortOrder))

inductive DeleteCombinator
  | from_ (table : QString)
  | where_ (cond : ConditionTerm)

inductive InsertCombinator
  | into (table : QString)
  | columns (cols : List ColumnValue)
  | defaultValues

/-- A chain that builds a statement of the given kind. -/
inductive Chain : Kind → Type
  | select (columns : List QString) (calls : List SelectCombinator) : Chain .select
  | del (calls : List DeleteCombinator) : Chain .delete
  | insert (calls : List InsertCombinator) : Chain .insert

section
variable [CaseFolding]

def SelectCombinator.apply (e : SelectExpr) : SelectCombinator → Option SelectExpr
  | from_ table => e.from_ table
  | where_ cond => cond.eval.bind e.where_
  | join joinType table cond => cond.eval.bind (e.join joinType table)
  | groupBy columns => e.groupBy columns
  | orderBy columns => e.orderBy columns

def DeleteCombinator.apply (e : DeleteExpr) : DeleteCombinator → Option DeleteExpr
  | from_ table => e.from_ table
  | where_ cond => cond.eval.bind e.where_

def InsertCombinator.apply (e : InsertExpr) : InsertCombinator → Option InsertExpr
  | into table => e.into table
  | columns cols => some (e.columns cols)
  | defaultValues => some e.defaultValues

/-- The builder a chain yields. -/
def Chain.queryBuilder (db : QString) : {k : Kind} → Chain k → Option (Builder k)
  | _, .select columns calls => do
      let e ← Sqlate.select columns
      let e ← calls.foldlM SelectCombinator.apply e
      e.queryBuilder db
  | _, .del calls => do
      let e ← calls.foldlM DeleteCombinator.apply Sqlate.del
      e.queryBuilder db
  | _, .insert calls => do
      let e ← calls.foldlM InsertCombinator.apply Sqlate.insert
      e.queryBuilder db

end

/-! ### The clauses of a chain -/

namespace SelectCombinator

def isFrom : SelectCombinator → Bool
  | from_ _ => true
  | _ => false

def table? : SelectCombinator → Option QString
  | from_ table => some table
  | _ => none

def condition? : SelectCombinator → Option SqlCondition
  | where_ cond => some cond.condition
  | _ => none

def join? : SelectCombinator → Option JoinInfo
  | join joinType table cond => some ⟨joinType, table, cond.condition⟩
  | _ => none

def groupColumns : SelectCombinator → List QString
  | groupBy columns => columns
  | _ => []

def sortColumns : SelectCombinator → List (QString × SortOrder)
  | orderBy columns => columns
  | _ => []

end SelectCombinator

namespace DeleteCombinator

def isFrom : DeleteCombinator → Bool
  | from_ _ => true
  | _ => false

def table? : DeleteCombinator → Option QString
  | from_ table => some table
  | _ => none

def condition? : DeleteCombinator → Option SqlCondition
  | where_ cond => some cond.condition
  | _ => none

end DeleteCombinator

namespace InsertCombinator

def isInto : InsertCombinator → Bool
  | into _ => true
  | _ => false

def isDefaultValues : InsertCombinator → Bool
  | defaultValues => true
  | _ => false

def table? : InsertCombinator → Option QString
  | into table => some table
  | _ => none

def columnValues : InsertCombinator → List ColumnValue
  | columns cols => cols
  | _ => []

end InsertCombinator

/-- The builder with the clauses of the chain, and with all values that it
gives. -/
def Chain.clauses (db : QString) : {k : Kind} → Chain k → Builder k
  | _, .select columns calls =>
      { SqlSelectQueryBuilder.new db with
        table := (calls.filterMap SelectCombinator.table?).getLastD []
        columns := columns.map fun c => (c, [])
        joins := calls.filterMap SelectCombinator.join?
        whereCondition := (calls.filterMap SelectCombinator.condition?).getLastD (.new .and)
        groupColumns := calls.flatMap SelectCombinator.groupColumns
        sortColumns := calls.flatMap SelectCombinator.sortColumns }
  | _, .del calls =>
      { SqlDeleteQueryBuilder.new db with
        table := (calls.filterMap DeleteCombinator.table?).getLastD []
        whereCondition := (calls.filterMap DeleteCombinator.condition?).getLastD (.new .and) }
  | _, .insert calls =>
      let cols := calls.flatMap InsertCombinator.columnValues
      { SqlInsertQueryBuilder.new db with
        table := (calls.filterMap InsertCombinator.table?).getLastD []
        columnNames := cols.map ColumnValue.columnName
        values := InsertExpr.givenValues cols }

/-- What the clause `defaultValues` asks for: every column of the statement gets
its default. -/
def Chain.DefaultsAsAsked : {k : Kind} → Chain k → Builder k → Prop
  | _, .insert calls, (b : SqlInsertQueryBuilder) =>
      calls.any InsertCombinator.isDefaultValues → b.values = .empty
  | _, .select _ _, _ => True
  | _, .del _, _ => True

/-- **The builder has exactly the clauses of the chain.** -/
structure Chain.Carried {k : Kind} (chain : Chain k) (db : QString) (b : Builder k) : Prop where
  clauses : b = chain.clauses db
  defaults : chain.DefaultsAsAsked b

/-- Nothing is said before `from`, and before `into` no column is named. -/
def Chain.TableFirst : {k : Kind} → Chain k → Prop
  | _, .select _ calls => ∃ c ∈ calls.head?, c.isFrom = true
  | _, .del calls => ∃ c ∈ calls.head?, c.isFrom = true
  | _, .insert calls => (calls.takeWhile (!·.isInto)).flatMap InsertCombinator.columnValues = []

/-- With `defaultValues` no column is given a value. -/
def Chain.ValuesOrDefaults : {k : Kind} → Chain k → Prop
  | _, .select _ _ => True
  | _, .del _ => True
  | _, .insert calls =>
      calls.any InsertCombinator.isDefaultValues →
        ∀ col ∈ calls.flatMap InsertCombinator.columnValues, col.isDefault

section
variable [CaseFolding]

/-! ### SELECT chains -/

namespace SelectExpr

/-- Before `where` there is no condition. -/
def Clean (e : SelectExpr) : Prop := e.hasWhere = false → e.whereCondition = .new .and

/-- What the calls of a part of a chain without `from` add to an expression. -/
structure Extends (calls : List SelectCombinator) (e e' : SelectExpr) : Prop where
  columnList : e'.columnList = e.columnList
  tableT : e'.tableT = e.tableT
  hasWhere : e'.hasWhere = (e.hasWhere || calls.any (·.condition?.isSome))
  onlyOneWhere : e.hasWhere = true → calls.filterMap SelectCombinator.condition? = []
  fromFirst : e.tableT = none → ∀ c ∈ calls, c.condition?.isSome ∨ c.join?.isSome
  joinInfos : e'.joinInfos = e.joinInfos ++ calls.filterMap SelectCombinator.join?
  groupByList : e'.groupByList = e.groupByList ++ calls.flatMap SelectCombinator.groupColumns
  orderInfos : e'.orderInfos = e.orderInfos ++ calls.flatMap SelectCombinator.sortColumns
  whereCondition : e'.whereCondition
    = (calls.filterMap SelectCombinator.condition?).getLastD e.whereCondition
  clean : e'.Clean

end SelectExpr

/-- One call, one case for each combinator. -/
theorem SelectCombinator.extends_apply {e e' : SelectExpr} {c : SelectCombinator}
    (hclean : e.Clean) (hc : c.isFrom = false) (h : c.apply e = some e') :
    SelectExpr.Extends [c] e e' := by
  cases c with
  | from_ table => cases hc
  | where_ cond =>
      obtain ⟨a, ha, hassign⟩ := cond.assignCondition_eval
      simp only [apply, ha, Option.bind_some, SelectExpr.where_] at h
      split at h
      · next hw =>
          obtain rfl := Option.some.inj h
          -- the first condition is assigned to a fresh one
          have hnew : e.whereCondition = .new .and := hclean (by simpa using hw)
          constructor <;>
            simp_all [SelectExpr.copy, SelectExpr.new, SelectExpr.Clean, condition?, join?,
              groupColumns, sortColumns]
      · cases h
  | join joinType table cond =>
      obtain ⟨a, ha, hassign⟩ := cond.assignCondition_eval
      simp only [apply, ha, Option.bind_some, SelectExpr.join] at h
      split at h
      · obtain rfl := Option.some.inj h
        constructor <;>
          simp_all [SelectExpr.copy, SelectExpr.new, SelectExpr.Clean, condition?, join?,
            groupColumns, sortColumns]
      · cases h
  | groupBy columns =>
      simp only [apply, SelectExpr.groupBy] at h
      split at h
      · next hassert =>
          obtain rfl := Option.some.inj h
          obtain ⟨t, ht⟩ := Option.isSome_iff_exists.mp hassert.1
          constructor <;>
            simp_all [SelectExpr.copy, SelectExpr.new, SelectExpr.Clean, condition?, join?,
              groupColumns, sortColumns]
      · cases h
  | orderBy columns =>
      simp only [apply, SelectExpr.orderBy] at h
      split at h
      · next hassert =>
          obtain rfl := Option.some.inj h
          obtain ⟨t, ht⟩ := Option.isSome_iff_exists.mp hassert.1
          constructor <;>
            simp_all [SelectExpr.copy, SelectExpr.new, SelectExpr.Clean, condition?, join?,
              groupColumns, sortColumns]
      · cases h

namespace SelectExpr

omit [CaseFolding] in
theorem Extends.nil {e : SelectExpr} (hclean : e.Clean) : Extends [] e e := by
  constructor <;> simp [hclean]

omit [CaseFolding] in
theorem Extends.cons {e u e' : SelectExpr} {c : SelectCombinator} {cs : List SelectCombinator}
    (h : Extends [c] e u) (h' : Extends cs u e') : Extends (c :: cs) e e' where
  columnList := h'.columnList.trans h.columnList
  tableT := h'.tableT.trans h.tableT
  hasWhere := by
    rw [h'.hasWhere, h.hasWhere, Bool.or_assoc, ← List.any_append]
    rfl
  onlyOneWhere hw := by
    have hc := h.onlyOneWhere hw
    have hcs := h'.onlyOneWhere (by rw [h.hasWhere, hw, Bool.true_or])
    rw [← List.singleton_append, List.filterMap_append, hc, hcs, List.append_nil]
  fromFirst ht d hd := by
    obtain rfl | hd := List.mem_cons.mp hd
    · exact h.fromFirst ht d List.mem_cons_self
    · exact h'.fromFirst (h.tableT.trans ht) d hd
  joinInfos := by
    rw [h'.joinInfos, h.joinInfos, List.append_assoc, ← List.filterMap_append]
    rfl
  groupByList := by
    rw [h'.groupByList, h.groupByList, List.append_assoc, ← List.flatMap_append]
    rfl
  orderInfos := by
    rw [h'.orderInfos, h.orderInfos, List.append_assoc, ← List.flatMap_append]
    rfl
  whereCondition := by
    rw [h'.whereCondition, h.whereCondition, List.filterMap_cons, List.filterMap_cons]
    cases c.condition? with
    | none => rfl
    | some w => exact List.getLastD_cons.symm
  clean := h'.clean

/-- Calls without `from`. -/
theorem extends_run {calls : List SelectCombinator} (hcalls : ∀ c ∈ calls, c.isFrom = false)
    {e e' : SelectExpr} (hclean : e.Clean)
    (h : calls.foldlM SelectCombinator.apply e = some e') : Extends calls e e' := by
  induction calls generalizing e with
  | nil =>
      obtain rfl : e = e' := by simpa using h
      exact .nil hclean
  | cons c cs ih =>
      obtain ⟨u, hu, hrest⟩ := Runs.foldlM_cons_eq_some h
      -- every call extends the expression, and so does the rest of the chain
      have hstep := SelectCombinator.extends_apply hclean (hcalls c List.mem_cons_self) hu
      exact hstep.cons (ih (fun d hd => hcalls d (List.mem_cons_of_mem c hd)) hstep.clean hrest)

/-- There is no second `from`. -/
theorem isFrom_of_table {calls : List SelectCombinator} {e e' : SelectExpr} (hclean : e.Clean)
    (htable : e.tableT.isSome) (h : calls.foldlM SelectCombinator.apply e = some e') :
    ∀ c ∈ calls, c.isFrom = false := by
  induction calls generalizing e with
  | nil => simp
  | cons c cs ih =>
      obtain ⟨u, hu, hrest⟩ := Runs.foldlM_cons_eq_some h
      have hc : c.isFrom = false := by
        cases c with
        | from_ table =>
            -- the assertion of `from` fails: there is a table already
            simp only [SelectCombinator.apply, from_, Option.isNone_eq_false_iff.mpr htable] at hu
            cases hu
        | _ => rfl
      have hstep := SelectCombinator.extends_apply hclean hc hu
      intro d hd
      obtain rfl | hd := List.mem_cons.mp hd
      · exact hc
      · exact ih hstep.clean (hstep.tableT ▸ htable) hrest d hd

end SelectExpr

omit [CaseFolding] in
/-- A `where` is never empty. -/
theorem ConditionTerm.condition_ne_new (t : ConditionTerm) : t.condition ≠ .new .and := by
  intro h
  have hsub := congrArg SqlCondition.subConditions h
  simp [ConditionTerm.condition, SqlCondition.new] at hsub

omit [CaseFolding] in
theorem SelectCombinator.condition?_ne_new {c : SelectCombinator} {w : SqlCondition}
    (h : c.condition? = some w) : w ≠ .new .and := by
  cases c with
  | where_ cond =>
      obtain rfl := Option.some.inj h
      exact cond.condition_ne_new
  | _ => cases h

omit [CaseFolding] in
/-- Conditions and joins name no columns to group or to sort by. -/
theorem SelectCombinator.groupColumns_sortColumns {c : SelectCombinator}
    (h : c.condition?.isSome ∨ c.join?.isSome) : c.groupColumns = [] ∧ c.sortColumns = [] := by
  cases c with
  | where_ cond => exact ⟨rfl, rfl⟩
  | join joinType table cond => exact ⟨rfl, rfl⟩
  | _ => simp [condition?, join?] at h

omit [CaseFolding] in
theorem SelectCombinator.filterMap_table? {calls : List SelectCombinator}
    (h : ∀ c ∈ calls, c.isFrom = false) : calls.filterMap SelectCombinator.table? = [] := by
  rw [List.filterMap_eq_nil_iff]
  intro c hc
  cases c with
  | from_ table => cases h _ hc
  | _ => rfl

/-- A chain that names no table yields no builder. -/
theorem SelectExpr.exists_isFrom {calls : List SelectCombinator} {e e' : SelectExpr}
    (hclean : e.Clean) (htable : e.tableT = none) (htable' : e'.tableT.isSome)
    (h : calls.foldlM SelectCombinator.apply e = some e') : ∃ c ∈ calls, c.isFrom = true := by
  by_contra hnone
  push Not at hnone
  have hext := SelectExpr.extends_run (fun c hc => Bool.eq_false_of_not_eq_true (hnone c hc)) hclean h
  rw [hext.tableT, htable] at htable'
  cases htable'

/-- The part of a chain before `from` leaves nothing behind. -/
theorem select_queryBuilder_eq {db : QString} {columns : List QString}
    {calls : List SelectCombinator} {b : SqlSelectQueryBuilder}
    (h : (Chain.select columns calls).queryBuilder db = some b) :
    ∃ pre table post, calls = pre ++ .from_ table :: post ∧
      (∀ c ∈ pre, c.condition?.isSome ∨ c.join?.isSome) ∧
      (pre.any (·.condition?.isSome) → post.filterMap SelectCombinator.condition? = []) ∧
      b = (Chain.select columns (.from_ table :: post)).clauses db := by
  simp only [Chain.queryBuilder, Option.bind_eq_bind, Option.bind_eq_some_iff] at h
  obtain ⟨e₀, he₀, e, he, hb⟩ := h
  rw [SelectExpr.queryBuilder_eq, Option.map_eq_some_iff] at hb
  obtain ⟨table, htable, rfl⟩ := hb
  obtain rfl : SelectExpr.new columns none false [] [] = e₀ := by
    simp only [Sqlate.select] at he₀
    split at he₀
    · exact Option.some.inj he₀
    · cases he₀
  have hclean : (SelectExpr.new columns none false [] []).Clean := fun _ => rfl
  -- cut the chain at `from`, which starts again from an empty expression
  obtain ⟨pre, c, post, u, v, rfl, hc, hpre, hu, hv, hpost⟩ := Runs.foldlM_cut he
    (SelectExpr.exists_isFrom hclean rfl (htable ▸ rfl) he)
  have hext := SelectExpr.extends_run hpre hclean hu
  cases c with
  | from_ table' =>
      simp only [SelectCombinator.apply, SelectExpr.from_, hext.tableT] at hv
      obtain rfl := Option.some.inj hv
      have hclean' : (SelectExpr.new u.columnList (some table') u.hasWhere u.groupByList
          u.sortList).Clean := fun _ => rfl
      have hnofrom := SelectExpr.isFrom_of_table hclean' rfl hpost
      have hext' := SelectExpr.extends_run hnofrom hclean' hpost
      have hbefore := hext.fromFirst rfl
      -- `groupBy` needs a table, so there was none before `from`
      have hgroups : u.groupByList = [] := by
        rw [hext.groupByList, List.flatMap_eq_nil_iff.mpr fun c hc =>
          (SelectCombinator.groupColumns_sortColumns (hbefore c hc)).1]
        rfl
      refine ⟨pre, table', post, rfl, hbefore, ?_, ?_⟩
      · intro hwhere
        exact hext'.onlyOneWhere (by rw [← hwhere, SelectExpr.new, hext.hasWhere]; rfl)
      · have htable' : table' = table := Option.some.inj (hext'.tableT.symm.trans htable)
        simp [Chain.clauses, SelectCombinator.table?, SelectCombinator.condition?,
          SelectCombinator.join?, SelectCombinator.groupColumns, SelectCombinator.sortColumns,
          SelectCombinator.filterMap_table? hnofrom, hext'.columnList, hext.columnList,
          hext'.joinInfos, hext'.whereCondition, hext'.groupByList, hext'.orderInfos, hgroups,
          SelectExpr.new, htable', List.filterMap_cons]
  | _ => cases hc

/-- **SELECT**: all clauses arrive if and only if `from` comes first. -/
theorem select_eq_clauses_iff {db : QString} {columns : List QString}
    {calls : List SelectCombinator} {b : SqlSelectQueryBuilder}
    (h : (Chain.select columns calls).queryBuilder db = some b) :
    b = (Chain.select columns calls).clauses db ↔ (Chain.select columns calls).TableFirst := by
  obtain ⟨pre, table, post, rfl, hbefore, hwhere, rfl⟩ := select_queryBuilder_eq h
  cases pre with
  | nil => exact ⟨fun _ => ⟨_, rfl, rfl⟩, fun _ => rfl⟩
  | cons c pre =>
      constructor
      · intro heq
        exfalso
        have hjoins := congrArg (fun qb => qb.joins.length) heq
        have hcondition := congrArg (fun qb => qb.whereCondition) heq
        simp only [Chain.clauses, List.filterMap_append, List.length_append] at hjoins hcondition
        rcases hbefore c List.mem_cons_self with hc | hc
        · -- the condition has been replaced by the empty one
          obtain ⟨w, hw⟩ := Option.isSome_iff_exists.mp hc
          have hpost := hwhere (by simp [hw])
          have hpost' : (SelectCombinator.from_ table :: post).filterMap
              SelectCombinator.condition? = [] := hpost
          rw [hpost', List.filterMap_cons_some hw, List.append_nil, List.getLastD_cons,
            List.getLastD_nil] at hcondition
          have hmem : SqlCondition.new .and ∈ w :: pre.filterMap SelectCombinator.condition? := by
            rw [hcondition]
            exact List.getLastD_mem_cons
          rw [← List.filterMap_cons_some hw, List.mem_filterMap] at hmem
          obtain ⟨d, -, hd⟩ := hmem
          exact SelectCombinator.condition?_ne_new hd rfl
        · -- the list of joins has become shorter
          obtain ⟨j, hj⟩ := Option.isSome_iff_exists.mp hc
          rw [List.filterMap_cons_some hj, List.length_cons] at hjoins
          omega
      · rintro ⟨d, hd, hfrom⟩
        obtain rfl := Option.some.inj hd
        have hc := hbefore c List.mem_cons_self
        cases c <;> simp_all [SelectCombinator.isFrom, SelectCombinator.condition?, SelectCombinator.join?]

/-! ### DELETE chains -/

theorem DeleteCombinator.apply_where (cond : ConditionTerm) (e : DeleteExpr)
    (hclean : e.whereCondition = .new .and) :
    (where_ cond).apply e = if e.hasWhere then none else some ⟨e.tableT, true, cond.condition⟩ := by
  obtain ⟨a, ha, hassign⟩ := cond.assignCondition_eval
  rw [apply, ha, Option.bind_some, DeleteExpr.where_, hclean, hassign]
  cases e.hasWhere <;> rfl

/-- With a table and a condition an expression takes no more calls. -/
theorem DeleteCombinator.foldlM_complete {calls : List DeleteCombinator} {e e' : DeleteExpr}
    (htable : e.tableT.isSome) (hwhere : e.hasWhere = true)
    (h : calls.foldlM DeleteCombinator.apply e = some e') : calls = [] := by
  cases calls with
  | nil => rfl
  | cons c cs =>
      obtain ⟨u, hu, -⟩ := Runs.foldlM_cons_eq_some h
      cases c with
      | from_ table =>
          simp only [apply, DeleteExpr.from_, Option.isNone_eq_false_iff.mpr htable] at hu
          cases hu
      | where_ cond =>
          obtain ⟨a, ha, -⟩ := cond.assignCondition_eval
          simp [apply, ha, DeleteExpr.where_, hwhere] at hu

/-- The builder of a DELETE, for each of the chains there are. -/
theorem del_cases {db : QString} {calls : List DeleteCombinator} {b : SqlDeleteQueryBuilder}
    (h : (Chain.del calls).queryBuilder db = some b) :
    (∃ table, calls = [.from_ table] ∧ b = (Chain.del [.from_ table]).clauses db) ∨
    (∃ table cond, calls = [.from_ table, .where_ cond] ∧
      b = (Chain.del [.from_ table, .where_ cond]).clauses db) ∨
    (∃ table cond, calls = [.where_ cond, .from_ table] ∧
      b = (Chain.del [.from_ table]).clauses db) := by
  simp only [Chain.queryBuilder, Option.bind_eq_bind, Option.bind_eq_some_iff] at h
  obtain ⟨e, he, hb⟩ := h
  match calls with
  | [] =>
      obtain rfl : del = e := Option.some.inj he
      cases hb
  | .from_ table :: calls =>
      obtain ⟨u, hu, he⟩ := Runs.foldlM_cons_eq_some he
      obtain rfl : DeleteExpr.new (some table) false = u := Option.some.inj hu
      match calls with
      | [] =>
          obtain rfl := Option.some.inj he
          exact .inl ⟨table, rfl, (Option.some.inj hb).symm⟩
      | .from_ table' :: calls =>
          obtain ⟨v, hv, -⟩ := Runs.foldlM_cons_eq_some he
          cases hv
      | .where_ cond :: calls =>
          obtain ⟨v, hv, he⟩ := Runs.foldlM_cons_eq_some he
          rw [DeleteCombinator.apply_where cond _ rfl] at hv
          obtain rfl := Option.some.inj hv
          -- with table and condition the chain is at its end
          obtain rfl := DeleteCombinator.foldlM_complete rfl rfl he
          obtain rfl := Option.some.inj he
          exact .inr (.inl ⟨table, cond, rfl, (Option.some.inj hb).symm⟩)
  | .where_ cond :: calls =>
      obtain ⟨u, hu, he⟩ := Runs.foldlM_cons_eq_some he
      rw [DeleteCombinator.apply_where cond _ rfl] at hu
      obtain rfl := Option.some.inj hu
      match calls with
      | [] =>
          obtain rfl := Option.some.inj he
          cases hb
      | .from_ table :: calls =>
          obtain ⟨v, hv, he⟩ := Runs.foldlM_cons_eq_some he
          -- the condition is lost here, but not the flag that there is one
          obtain rfl : DeleteExpr.new (some table) true = v := Option.some.inj hv
          obtain rfl := DeleteCombinator.foldlM_complete rfl rfl he
          obtain rfl := Option.some.inj he
          exact .inr (.inr ⟨table, cond, rfl, (Option.some.inj hb).symm⟩)
      | .where_ cond' :: calls =>
          obtain ⟨v, hv, -⟩ := Runs.foldlM_cons_eq_some he
          obtain ⟨a, ha, -⟩ := cond'.assignCondition_eval
          simp [DeleteCombinator.apply, ha, DeleteExpr.where_] at hv

/-- **DELETE**: the condition arrives if and only if `from` comes first. -/
theorem del_eq_clauses_iff {db : QString} {calls : List DeleteCombinator}
    {b : SqlDeleteQueryBuilder} (h : (Chain.del calls).queryBuilder db = some b) :
    b = (Chain.del calls).clauses db ↔ (Chain.del calls).TableFirst := by
  obtain ⟨table, rfl, rfl⟩ | ⟨table, cond, rfl, rfl⟩ | ⟨table, cond, rfl, rfl⟩ := del_cases h
  · exact ⟨fun _ => ⟨_, rfl, rfl⟩, fun _ => rfl⟩
  · exact ⟨fun _ => ⟨_, rfl, rfl⟩, fun _ => rfl⟩
  · constructor
    · intro heq
      have hcondition := congrArg (fun qb => qb.whereCondition) heq
      exact absurd hcondition.symm cond.condition_ne_new
    · rintro ⟨d, hd, hfrom⟩
      obtain rfl := Option.some.inj hd
      cases hfrom

/-! ### INSERT chains -/

omit [CaseFolding] in
/-- Calls without `into`. -/
theorem InsertExpr.foldlM_apply {calls : List InsertCombinator}
    (hcalls : ∀ c ∈ calls, c.isInto = false) (e : InsertExpr) :
    calls.foldlM InsertCombinator.apply e = some
      { e with
        values := e.values ++ calls.flatMap InsertCombinator.columnValues
        useDefaultValues := e.useDefaultValues || calls.any InsertCombinator.isDefaultValues } := by
  induction calls generalizing e with
  | nil => simp
  | cons c cs ih =>
      have hcs := ih fun d hd => hcalls d (List.mem_cons_of_mem c hd)
      have hc := hcalls c List.mem_cons_self
      rw [List.foldlM_cons]
      cases c with
      | into table => cases hc
      | columns cols =>
          show cs.foldlM InsertCombinator.apply (e.columns cols) = _
          rw [hcs]
          simp [InsertExpr.columns, InsertCombinator.columnValues, InsertCombinator.isDefaultValues]
      | defaultValues =>
          show cs.foldlM InsertCombinator.apply e.defaultValues = _
          rw [hcs]
          simp [InsertExpr.defaultValues, InsertCombinator.columnValues,
            InsertCombinator.isDefaultValues]

omit [CaseFolding] in
/-- There is no second `into`. -/
theorem InsertExpr.isInto_of_table {calls : List InsertCombinator} {e e' : InsertExpr}
    (htable : e.tableT.isSome) (h : calls.foldlM InsertCombinator.apply e = some e') :
    ∀ c ∈ calls, c.isInto = false := by
  induction calls generalizing e with
  | nil => simp
  | cons c cs ih =>
      obtain ⟨u, hu, hrest⟩ := Runs.foldlM_cons_eq_some h
      have hstep : c.isInto = false ∧ u.tableT = e.tableT := by
        cases c with
        | into table =>
            simp only [InsertCombinator.apply, into, Option.isNone_eq_false_iff.mpr htable] at hu
            cases hu
        | columns cols =>
            obtain rfl := Option.some.inj hu
            exact ⟨rfl, rfl⟩
        | defaultValues =>
            obtain rfl := Option.some.inj hu
            exact ⟨rfl, rfl⟩
      intro d hd
      obtain rfl | hd := List.mem_cons.mp hd
      · exact hstep.1
      · exact ih (hstep.2 ▸ htable) hrest d hd

omit [CaseFolding] in
theorem InsertCombinator.filterMap_table? {calls : List InsertCombinator}
    (h : ∀ c ∈ calls, c.isInto = false) : calls.filterMap InsertCombinator.table? = [] := by
  rw [List.filterMap_eq_nil_iff]
  intro c hc
  cases c with
  | into table => cases h _ hc
  | _ => rfl

omit [CaseFolding] in
theorem InsertExpr.givenValues_eq_empty_iff {cols : List ColumnValue} :
    givenValues cols = .empty ↔ ∀ col ∈ cols, col.isDefault := by
  rw [givenValues, SortedMap.ofList_eq_empty_iff, List.map_eq_nil_iff, List.filter_eq_nil_iff]
  simp

/-- The part of a chain before `into` leaves nothing behind, and with
`defaultValues` behind it there are no values. -/
theorem insert_queryBuilder_eq {db : QString} {calls : List InsertCombinator}
    {b : SqlInsertQueryBuilder} (h : (Chain.insert calls).queryBuilder db = some b) :
    ∃ pre table post, calls = pre ++ .into table :: post ∧
      (∀ c ∈ pre, c.isInto = false) ∧ (∀ c ∈ post, c.isInto = false) ∧
      b = { SqlInsertQueryBuilder.new db with
        table := table
        columnNames := (post.flatMap InsertCombinator.columnValues).map ColumnValue.columnName
        values := if post.any InsertCombinator.isDefaultValues then .empty
          else InsertExpr.givenValues (post.flatMap InsertCombinator.columnValues) } := by
  simp only [Chain.queryBuilder, Option.bind_eq_bind, Option.bind_eq_some_iff] at h
  obtain ⟨e, he, hb⟩ := h
  rw [InsertExpr.queryBuilder_eq, Option.map_eq_some_iff] at hb
  obtain ⟨table, htable, rfl⟩ := hb
  have hinto : ∃ c ∈ calls, c.isInto = true := by
    -- without `into` the table of `insert()` stays missing
    by_contra hnone
    push Not at hnone
    rw [InsertExpr.foldlM_apply fun c hc => Bool.eq_false_of_not_eq_true (hnone c hc)] at he
    obtain rfl := Option.some.inj he
    cases htable
  obtain ⟨pre, c, post, u, v, rfl, hc, hpre, hu, hv, hpost⟩ := Runs.foldlM_cut he hinto
  rw [InsertExpr.foldlM_apply hpre] at hu
  obtain rfl := Option.some.inj hu
  cases c with
  | into table' =>
      obtain rfl : InsertExpr.new (some table') = v := Option.some.inj hv
      have hnointo := InsertExpr.isInto_of_table rfl hpost
      rw [InsertExpr.foldlM_apply hnointo] at hpost
      obtain rfl := Option.some.inj hpost
      obtain rfl : table' = table := Option.some.inj htable
      refine ⟨pre, table', post, rfl, hpre, hnointo, ?_⟩
      simp [InsertExpr.new]
  | _ => cases hc

/-- **INSERT**: the columns arrive with their values if and only if none was
named before `into`, and none is given a value when `defaultValues` is said. -/
theorem insert_carried_iff {db : QString} {calls : List InsertCombinator}
    {b : SqlInsertQueryBuilder} (h : (Chain.insert calls).queryBuilder db = some b) :
    (Chain.insert calls).Carried db b ↔
      (Chain.insert calls).TableFirst ∧ (Chain.insert calls).ValuesOrDefaults := by
  obtain ⟨pre, table, post, rfl, hpre, hpost, rfl⟩ := insert_queryBuilder_eq h
  have hbefore : (pre ++ .into table :: post).takeWhile (!·.isInto) = pre := by
    rw [List.takeWhile_append_of_pos (by simpa using hpre)]
    simp [InsertCombinator.isInto]
  have htable : (pre ++ .into table :: post).filterMap InsertCombinator.table? = [table] := by
    simp [InsertCombinator.filterMap_table? hpre, InsertCombinator.filterMap_table? hpost,
      InsertCombinator.table?]
  have hcols : (pre ++ .into table :: post).flatMap InsertCombinator.columnValues
      = pre.flatMap InsertCombinator.columnValues ++ post.flatMap InsertCombinator.columnValues := by
    simp [InsertCombinator.columnValues]
  simp only [Chain.TableFirst, Chain.ValuesOrDefaults, hbefore]
  constructor
  · rintro ⟨hclauses, hdefaults⟩
    have hnames := congrArg (fun qb => qb.columnNames.length) hclauses
    have hvalues := congrArg (fun qb => qb.values) hclauses
    simp only [Chain.clauses, hcols, List.length_map, List.length_append] at hnames hvalues
    have hnil : pre.flatMap InsertCombinator.columnValues = [] :=
      List.length_eq_zero_iff.mp (by omega)
    refine ⟨hnil, fun hany => ?_⟩
    -- the values that are given are those of the builder, which has none
    rw [hcols, ← InsertExpr.givenValues_eq_empty_iff, ← hvalues]
    exact hdefaults hany
  · rintro ⟨hnil, hdefaults⟩
    rw [hcols, hnil, List.nil_append, ← InsertExpr.givenValues_eq_empty_iff] at hdefaults
    -- `defaultValues` has nothing to drop
    have hvalues : (if post.any InsertCombinator.isDefaultValues then .empty
        else InsertExpr.givenValues (post.flatMap InsertCombinator.columnValues))
          = InsertExpr.givenValues (post.flatMap InsertCombinator.columnValues) := by
      split
      · next hany => exact (hdefaults (by simp [hany])).symm
      · rfl
    rw [hvalues]
    refine ⟨?_, hdefaults⟩
    simp only [Chain.clauses, htable, hcols, hnil, List.nil_append]
    rfl

/-! ### All chains -/

/-- **A chain yields a builder with exactly its clauses if and only if the table
is named first**, and if an INSERT does not ask for values and for defaults. -/
theorem Chain.carried_iff {k : Kind} (chain : Chain k) (db : QString) (b : Builder k)
    (h : chain.queryBuilder db = some b) :
    chain.Carried db b ↔ chain.TableFirst ∧ chain.ValuesOrDefaults := by
  cases chain with
  | select columns calls =>
      have hvalues : (Chain.select columns calls).ValuesOrDefaults := trivial
      rw [and_iff_left hvalues, ← select_eq_clauses_iff h]
      exact ⟨fun hcarried => hcarried.clauses, fun hclauses => ⟨hclauses, trivial⟩⟩
  | del calls =>
      have hvalues : (Chain.del calls).ValuesOrDefaults := trivial
      rw [and_iff_left hvalues, ← del_eq_clauses_iff h]
      exact ⟨fun hcarried => hcarried.clauses, fun hclauses => ⟨hclauses, trivial⟩⟩
  | insert calls => exact insert_carried_iff h

end

/-- `Person.id == 1`. -/
def personCondition : ConditionTerm where
  first := .value ⟨latin1 "tblPerson.id", by decide⟩ .equals (.other 2 [1])
  op := .and
  rest := []

/-- `del().where( Person.id == 1 ).from( Person )`. -/
def whereFirstChain : Chain .delete :=
  .del [.where_ personCondition, .from_ (latin1 "tblPerson")]

/-- The statement deletes all rows. -/
example :
    let _ : CaseFolding := .ascii
    (whereFirstChain.queryBuilder []).map (fun b => SqlText.toQString b.assemble.queryString)
      = some (latin1 "DELETE FROM tblPerson") := by
  decide

theorem Chain.not_carried_whereFirstChain :
    let _ : CaseFolding := .ascii
    ∃ b, whereFirstChain.queryBuilder [] = some b ∧ ¬ whereFirstChain.Carried [] b := by
  refine ⟨_, rfl, fun hcarried => ?_⟩
  have hcondition := congrArg (fun qb => qb.whereCondition) hcarried.clauses
  exact personCondition.condition_ne_new hcondition.symm

/-- The value that is given is lost. -/
example :
    let _ : CaseFolding := .ascii
    let name : ColumnValue := ⟨latin1 "Name", .string (latin1 "v"), false⟩
    ∃ b : SqlInsertQueryBuilder,
      (Chain.insert [.into (latin1 "tblPerson"), .columns [name], .defaultValues]).queryBuilder [] = some b
        ∧ b.columnNames = [latin1 "Name"] ∧ b.values = .empty :=
  ⟨_, rfl, rfl, rfl⟩

/-- `del().from( Person ).where( Person.id == 1 )`. -/
def tableFirstChain : Chain .delete :=
  .del [.from_ (latin1 "tblPerson"), .where_ personCondition]

theorem Chain.carried_iff_tableFirstChain :
    let _ : CaseFolding := .ascii
    ∃ b, tableFirstChain.queryBuilder [] = some b ∧
      (tableFirstChain.Carried [] b ↔ tableFirstChain.TableFirst ∧ tableFirstChain.ValuesOrDefaults) := by
  intro _
  exact ⟨tableFirstChain.clauses [], rfl, tableFirstChain.carried_iff [] _ rfl⟩

end Sqlate
