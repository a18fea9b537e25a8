/-
Sqlate/ColumnTriggers.lean

The triggers that keep users from changing columns.

A trigger is created for every column that is a primary key or has OnUserUpdateRestrict.
There is no CREATE OR REPLACE for it, so that the statements come in pairs: the trigger
is dropped if it is there, and created again.  `createRulesPermissionsAndTriggers` may
end between both.

`guarded_run_iff` says what is left after any number of runs, wherever they end: a column
has its trigger if and only if the last run that has dropped it has also created it again.
-/
import Mathlib.Data.List.TakeWhile
import Sqlate.RuleNotifications

namespace Sqlate

/-! ### Columns with a trigger -/

/-- Users may not change what is in the column. -/
def ColumnType.isGuarded (c : ColumnType) : Bool := c.onUserUpdateRestrict || c.primaryKey

/-- The name of the trigger for a column. -/
def TableType.triggerName (t : TableType) (c : ColumnType) : QString :=
  latin1 "no_column_update_" ++ (t.sqlName ++ latin1 "." ++ c.sqlName).map fun x =>
    if x = QChar.ofChar '.' then QChar.ofChar '_' else x

theorem TableType.triggerStatements_eq (t : TableType) (c : ColumnType) :
    t.triggerStatements c =
      if c.isGuarded then
        [.dropTrigger (t.triggerName c) t.sqlName, .createTrigger (t.triggerName c) t.sqlName c.sqlName]
      else [] := rfl

/-- The columns with a trigger, in the order of the schema. -/
def guardedColumns (tables : List TableType) : List (TableType × ColumnType) :=
  tables.flatMap fun t => (t.columns.filter ColumnType.isGuarded).map fun c => (t, c)

section
variable [CaseFolding]

/-- Where the server keeps the trigger for a column. -/
def triggerKey (x : TableType × ColumnType) : QString × QString :=
  (serverName x.1.sqlName, serverName (x.1.triggerName x.2))

/-- What a statement says about a trigger. -/
def SchemaStatement.triggerEntry : SchemaStatement → Option ((QString × QString) × Option QString)
  | dropTrigger name table => some ((serverName table, serverName name), none)
  | createTrigger name table column => some ((serverName table, serverName name), some column)
  | _ => none

theorem triggers_foldl_exec (statements : List SchemaStatement) (c : Catalog) :
    (statements.foldl Catalog.exec c).triggers
      = Store.sets c.triggers (statements.filterMap SchemaStatement.triggerEntry) := by
  induction statements generalizing c with
  | nil => rfl
  | cons s statements ih =>
      rw [List.foldl_cons, ih]
      cases s <;> rfl

/-- The trigger is dropped, and created again. -/
def triggerEntries (x : TableType × ColumnType) : List ((QString × QString) × Option QString) :=
  [(triggerKey x, none), (triggerKey x, some x.2.sqlName)]

theorem filterMap_createTableTriggers (tables : List TableType) :
    (createTableTriggers tables).filterMap SchemaStatement.triggerEntry
      = (guardedColumns tables).flatMap triggerEntries := by
  have hcolumn : ∀ (t : TableType) (c : ColumnType),
      (t.triggerStatements c).filterMap SchemaStatement.triggerEntry
        = if c.isGuarded then triggerEntries (t, c) else [] := by
    intro t c
    rw [TableType.triggerStatements_eq]
    split_ifs <;> rfl
  have htable : ∀ (t : TableType) (cs : List ColumnType),
      (cs.flatMap t.triggerStatements).filterMap SchemaStatement.triggerEntry
        = ((cs.filter ColumnType.isGuarded).map fun c => (t, c)).flatMap triggerEntries := by
    intro t cs
    induction cs with
    | nil => rfl
    | cons c cs ih =>
        rw [List.flatMap_cons, List.filterMap_append, ih, hcolumn, List.filter_cons]
        split_ifs <;> rfl
  rw [createTableTriggers, guardedColumns]
  induction tables with
  | nil => rfl
  | cons t tables ih =>
      rw [List.flatMap_cons, List.filterMap_append, ih, List.flatMap_cons, List.flatMap_append]
      exact congrArg (· ++ _) (htable t t.columns)

/-! ### Names of triggers -/

/-- No two tables, and no two columns of a table, have the same name.  The names are not in
quotes, and those of columns are in ASCII and have no dots.  The server cuts no name of a
trigger. -/
structure PlainSchema (tables : List TableType) : Prop where
  unquoted : Unquoted tables
  tableNames : (tables.map fun t => serverName t.sqlName).Nodup
  columnNames : ∀ t ∈ tables, (t.columns.map fun c => serverName c.sqlName).Nodup
  plain : ∀ t ∈ tables, ∀ c ∈ t.columns, isAscii c.sqlName = true ∧ QChar.ofChar '.' ∉ c.sqlName ∧
    c.sqlName.head? ≠ some (QChar.ofChar '"')
  short : ∀ t ∈ tables, ∀ c ∈ t.columns, c.isGuarded = true →
    utf8Length (CaseFolding.toLower (t.triggerName c)) ≤ maxNameSize

variable {tables : List TableType}

omit [CaseFolding] in
theorem mem_guardedColumns {x : TableType × ColumnType} :
    x ∈ guardedColumns tables ↔ x.1 ∈ tables ∧ x.2 ∈ x.1.columns ∧ x.2.isGuarded = true := by
  simp only [guardedColumns, List.mem_flatMap, List.mem_map, List.mem_filter]
  constructor
  · rintro ⟨t, ht, c, hc, rfl⟩
    exact ⟨ht, hc⟩
  · rintro ⟨ht, hc⟩
    exact ⟨x.1, ht, x.2, hc, rfl⟩

variable (hfolds : FoldsNames CaseFolding.toLower) (hplain : PlainSchema tables)
include hfolds hplain

/-- Triggers of one name for a table are for columns of one name. -/
theorem PlainSchema.serverName_eq {t : TableType} (ht : t ∈ tables) {c c' : ColumnType}
    (hc : c ∈ t.columns.filter ColumnType.isGuarded) (hc' : c' ∈ t.columns.filter ColumnType.isGuarded)
    (h : serverName (t.triggerName c) = serverName (t.triggerName c')) :
    serverName c.sqlName = serverName c'.sqlName := by
  have hname : ∀ c ∈ t.columns.filter ColumnType.isGuarded, serverName (t.triggerName c)
      = CaseFolding.toLower (latin1 "no_column_update_" ++ (t.sqlName ++ latin1 ".").map fun x =>
          if x = QChar.ofChar '.' then QChar.ofChar '_' else x)
        ++ CaseFolding.ascii.toLower c.sqlName := by
    intro c hc
    obtain ⟨hc, hguarded⟩ := List.mem_filter.1 hc
    obtain ⟨hascii, hdot, -⟩ := hplain.plain t ht c hc
    have hsame : (c.sqlName.map fun x => if x = QChar.ofChar '.' then QChar.ofChar '_' else x)
        = c.sqlName := by
      conv_rhs => rw [← List.map_id c.sqlName]
      apply List.map_congr_left
      intro x hx
      apply if_neg
      rintro rfl
      exact hdot hx
    have hhead : (t.triggerName c).head? ≠ some (QChar.ofChar '"') :=
      fun hhead => absurd (Option.some.inj hhead) (by decide)
    rw [serverName_of_short hhead (hplain.short t ht c hc hguarded), TableType.triggerName,
      List.map_append, hsame, ← List.append_assoc]
    exact hfolds.toLower_append _ _ hascii
  have hcolumn : ∀ c ∈ t.columns.filter ColumnType.isGuarded, serverName c.sqlName
      = cutName (CaseFolding.toLower [] ++ CaseFolding.ascii.toLower c.sqlName) := by
    intro c hc
    obtain ⟨hascii, -, hquote⟩ := hplain.plain t ht c (List.mem_filter.1 hc).1
    rw [serverName_of_unquoted hquote]
    exact congrArg cutName (hfolds.toLower_append [] c.sqlName hascii)
  rw [hname c hc, hname c' hc'] at h
  rw [hcolumn c hc, hcolumn c' hc', List.append_cancel_left h]

/-- Every column has a trigger of its own. -/
theorem PlainSchema.nodup_triggerKey : ((guardedColumns tables).map triggerKey).Nodup := by
  show List.Pairwise (· ≠ ·) _
  rw [List.pairwise_map, guardedColumns, List.pairwise_flatMap]
  constructor
  · intro t ht
    rw [List.pairwise_map]
    have hcolumns : t.columns.Pairwise fun c c' => serverName c.sqlName ≠ serverName c'.sqlName :=
      List.pairwise_map.1 (hplain.columnNames t ht)
    refine (hcolumns.filter ColumnType.isGuarded).imp_of_mem fun {c c'} hc hc' hne heq => hne ?_
    exact hplain.serverName_eq hfolds ht hc hc' (Prod.mk.inj heq).2
  · refine (List.pairwise_map.1 hplain.tableNames).imp fun {t t'} hne x hx x' hx' heq => hne ?_
    obtain ⟨c, -, rfl⟩ := List.mem_map.1 hx
    obtain ⟨c', -, rfl⟩ := List.mem_map.1 hx'
    exact (Prod.mk.inj heq).1

end

/-! ### What runs execute -/

/-- The statements of a list before the first that fails; the first of all is number `n`. -/
def executedFrom (fails : Nat → Option QString) : Nat → List SchemaStatement → List SchemaStatement
  | _, [] => []
  | n, s :: statements =>
      match fails n with
      | none => s :: executedFrom fails (n + 1) statements
      | some _ => []

theorem executedFrom_isPrefix (fails : Nat → Option QString) (n : Nat) (statements : List SchemaStatement) :
    executedFrom fails n statements <+: statements := by
  induction statements generalizing n with
  | nil => exact List.prefix_refl []
  | cons s statements ih =>
      rw [executedFrom]
      split
      · exact List.cons_prefix_cons.2 ⟨rfl, ih (n + 1)⟩
      · exact List.nil_prefix

section
variable [CaseFolding]

/-- A list of statements comes to its end, or not. -/
theorem Catalog.execStatements_cases (fails : Nat → Option QString) (c : Catalog)
    (statements : List SchemaStatement) :
    executedFrom fails 0 statements = statements ∧
        c.execStatements fails statements = .ok (statements.foldl Catalog.exec c) ∨
      executedFrom fails 0 statements ≠ statements ∧
        ∃ text, c.execStatements fails statements
          = .error (text, (executedFrom fails 0 statements).foldl Catalog.exec c) := by
  rw [execStatements]
  generalize 0 = n
  induction statements generalizing c n with
  | nil => exact .inl ⟨rfl, rfl⟩
  | cons s statements ih =>
      rw [List.zipIdx_cons, List.foldlM_cons, executedFrom]
      cases hfails : fails n with
      | some text => exact .inr ⟨(List.cons_ne_nil s statements).symm, text, rfl⟩
      | none =>
          rcases ih (c.exec s) (n + 1) with ⟨hall, hrun⟩ | ⟨hall, hrun⟩
          · exact .inl ⟨congrArg (s :: ·) hall, hrun⟩
          · exact .inr ⟨fun heq => hall (List.cons.inj heq).2, hrun⟩

variable [HashFunction]

/-- What a run executes that begins after `n` calls of `createUuid`. -/
def SchemaEnv.executed (createUuid : Nat → QUuid) (tables : List TableType) (n : Nat)
    (env : SchemaEnv) : List SchemaStatement :=
  let rules := (createNotificationRuleStatements createUuid tables n).map SchemaStatement.createRule
  let permissions := createPermissionStatements tables
  if executedFrom env.rules 0 rules ≠ rules then executedFrom env.rules 0 rules
  else if executedFrom env.permissions 0 permissions ≠ permissions then
    rules ++ executedFrom env.permissions 0 permissions
  else rules ++ permissions ++ executedFrom env.triggers 0 (createTableTriggers tables)

/-- What each of several runs executes. -/
def executedRuns (createUuid : Nat → QUuid) (tables : List TableType) :
    Nat → List SchemaEnv → List (List SchemaStatement)
  | _, [] => []
  | n, env :: envs =>
      env.executed createUuid tables n ::
        executedRuns createUuid tables (n + (notifyColumns tables).length) envs

variable (createUuid : Nat → QUuid) (tables : List TableType)

/-- The catalog after a run. -/
theorem catalog_updateSchema (s : SchemaState) (env : SchemaEnv) :
    (updateSchema createUuid tables s env).catalog
      = (env.executed createUuid tables s.uuids).foldl Catalog.exec s.catalog := by
  rw [updateSchema, createRulesPermissionsAndTriggers, SchemaEnv.executed]
  generalize (createNotificationRuleStatements createUuid tables s.uuids).map _ = rules
  -- the list in which a statement fails is the last that is executed
  rcases Catalog.execStatements_cases env.rules s.catalog rules with ⟨hrules, hrun⟩ | ⟨hrules, text, hrun⟩
  · rw [if_neg (not_not_intro hrules)]
    generalize hc : rules.foldl Catalog.exec s.catalog = c at hrun
    rcases Catalog.execStatements_cases env.permissions c (createPermissionStatements tables) with
      ⟨hpermissions, hgrant⟩ | ⟨hpermissions, text, hgrant⟩
    · rw [if_neg (not_not_intro hpermissions), List.foldl_append, List.foldl_append, hc]
      rcases Catalog.execStatements_cases env.triggers
        ((createPermissionStatements tables).foldl Catalog.exec c) (createTableTriggers tables) with
        ⟨htriggers, hcreate⟩ | ⟨htriggers, text, hcreate⟩
      · simp only [grantPermissions, hrun, hgrant, hcreate, htriggers, bind, Except.bind]
      · simp only [grantPermissions, hrun, hgrant, hcreate, bind, Except.bind]
    · rw [if_pos hpermissions, List.foldl_append, hc]
      simp only [grantPermissions, hrun, hgrant, bind, Except.bind]
  · rw [if_pos hrules]
    simp only [hrun, bind, Except.bind]

theorem catalog_run (s : SchemaState) (envs : List SchemaEnv) :
    (Runs.run (updateSchema createUuid tables) s envs).catalog
      = (executedRuns createUuid tables s.uuids envs).flatten.foldl Catalog.exec s.catalog := by
  induction envs generalizing s with
  | nil => rfl
  | cons env envs ih =>
      rw [Runs.run_cons, ih, executedRuns, List.flatten_cons, List.foldl_append, catalog_updateSchema,
        (rules_updateSchema createUuid tables s env).2]

variable {createUuid tables}

/-- A run that comes to its end has executed everything. -/
theorem executed_of_ok {s s' : SchemaState} {env : SchemaEnv}
    (h : createRulesPermissionsAndTriggers createUuid tables s env = .ok s') :
    env.executed createUuid tables s.uuids
      = (createNotificationRuleStatements createUuid tables s.uuids).map SchemaStatement.createRule
        ++ createPermissionStatements tables ++ createTableTriggers tables := by
  rw [createRulesPermissionsAndTriggers] at h
  rw [SchemaEnv.executed]
  split at h
  case h_2 => cases h
  case h_1 c hrun =>
    obtain ⟨c₁, hrules, hrun⟩ := Runs.bind_eq_ok hrun
    obtain ⟨c₂, hpermissions, htriggers⟩ := Runs.bind_eq_ok hrun
    have hall : ∀ {fails c c' statements}, Catalog.execStatements fails c statements = .ok c' →
        executedFrom fails 0 statements = statements := by
      intro fails c c' statements hok
      rcases Catalog.execStatements_cases fails c statements with ⟨hall, -⟩ | ⟨-, text, herror⟩
      · exact hall
      · rw [herror] at hok
        cases hok
    rw [if_neg (not_not_intro (hall hrules)), if_neg (not_not_intro (hall hpermissions)), hall htriggers]

end

/-! ### What is left of a trigger -/

/-- The statements for the trigger of a column. -/
def dropStatement (x : TableType × ColumnType) : SchemaStatement :=
  .dropTrigger (x.1.triggerName x.2) x.1.sqlName

def createStatement (x : TableType × ColumnType) : SchemaStatement :=
  .createTrigger (x.1.triggerName x.2) x.1.sqlName x.2.sqlName

/-- Some run has created the trigger, and every later run that has dropped it has created it
again. -/
def LeavesTrigger (x : TableType × ColumnType) (runs : List (List SchemaStatement)) : Prop :=
  ∃ before run after, runs = before ++ run :: after ∧ createStatement x ∈ run ∧
    ∀ run' ∈ after, dropStatement x ∈ run' → createStatement x ∈ run'

theorem not_leavesTrigger_nil (x : TableType × ColumnType) : ¬ LeavesTrigger x [] := by
  rintro ⟨before, run, after, hruns, -⟩
  exact List.append_ne_nil_of_right_ne_nil before (List.cons_ne_nil run after) hruns.symm

/-- One more run. -/
theorem leavesTrigger_concat (x : TableType × ColumnType) (runs : List (List SchemaStatement))
    (run : List SchemaStatement) :
    LeavesTrigger x (runs ++ [run]) ↔
      createStatement x ∈ run ∨ dropStatement x ∉ run ∧ LeavesTrigger x runs := by
  constructor
  · rintro ⟨before, first, after, hruns, hcreate, hafter⟩
    by_cases hlast : createStatement x ∈ run
    · exact .inl hlast
    · rcases List.eq_nil_or_concat' after with rfl | ⟨after', last, rfl⟩
      · -- the first is the last
        obtain ⟨-, heq⟩ := List.append_inj' hruns rfl
        obtain rfl := List.singleton_inj.1 heq
        exact absurd hcreate hlast
      · rw [← List.cons_append, ← List.append_assoc] at hruns
        obtain ⟨hfront, heq⟩ := List.append_inj' hruns rfl
        obtain rfl := List.singleton_inj.1 heq
        refine .inr ⟨fun hdrop => hlast ?_, before, first, after', hfront, hcreate, ?_⟩
        · exact hafter run (List.mem_append_right _ (List.mem_singleton_self _)) hdrop
        · exact fun run' hrun' => hafter run' (List.mem_append_left _ hrun')
  · rintro (hcreate | ⟨hdrop, before, first, after, rfl, hcreate, hafter⟩)
    · exact ⟨runs, run, [], rfl, hcreate, fun run' hrun' => absurd hrun' List.not_mem_nil⟩
    · refine ⟨before, first, after ++ [run], ?_, hcreate, fun run' hrun' => ?_⟩
      · rw [List.append_assoc, List.cons_append]
      · rcases List.mem_append.1 hrun' with hrun' | hrun'
        · exact hafter run' hrun'
        · obtain rfl := List.mem_singleton.1 hrun'
          exact fun h => absurd h hdrop

section
variable [CaseFolding]

/-- What a list of statements says about one key. -/
theorem filter_flatMap_triggerEntries {xs : List (TableType × ColumnType)}
    (hxs : (xs.map triggerKey).Nodup) {x : TableType × ColumnType} (hx : x ∈ xs) :
    (xs.flatMap triggerEntries).filter (fun e => e.1 = triggerKey x) = triggerEntries x := by
  have hsame : ∀ y, (triggerEntries y).filter (fun e => e.1 = triggerKey x)
      = if triggerKey y = triggerKey x then triggerEntries y else [] := by
    intro y
    rw [triggerEntries, List.filter_cons, List.filter_cons]
    split_ifs <;> simp_all
  induction xs with
  | nil => cases hx
  | cons y ys ih =>
      rw [List.map_cons, List.nodup_cons] at hxs
      rw [List.flatMap_cons, List.filter_append, hsame]
      rcases List.mem_cons.1 hx with rfl | hx
      · rw [if_pos rfl, List.filter_eq_nil_iff.2, List.append_nil]
        intro e he heq
        obtain ⟨z, hz, he⟩ := List.mem_flatMap.1 he
        have hkey : e.1 = triggerKey z := by
          rcases List.mem_pair.1 he with rfl | rfl <;> rfl
        apply hxs.1
        rw [← of_decide_eq_true heq, hkey]
        exact List.mem_map_of_mem hz
      · rw [ih hxs.2 hx, if_neg, List.nil_append]
        intro heq
        apply hxs.1
        rw [heq]
        exact List.mem_map_of_mem hx

variable [HashFunction] {createUuid : Nat → QUuid} {tables : List TableType}

omit [HashFunction] in
/-- The statements before those for triggers say nothing about triggers. -/
theorem triggerEntry_eq_none {stmt : SchemaStatement}
    (h : (∃ rule, stmt = .createRule rule) ∨ stmt ∈ createPermissionStatements tables) :
    stmt.triggerEntry = none := by
  rcases h with ⟨rule, rfl⟩ | h
  · rfl
  · obtain ⟨t, -, h⟩ := List.mem_flatMap.1 h
    rcases List.mem_pair.1 h with rfl | rfl <;> rfl

omit [CaseFolding] in
/-- The statements of a run: some for rules and permissions, and the first ones of the list for
triggers. -/
theorem executed_eq_append (createUuid : Nat → QUuid) (tables : List TableType) (n : Nat)
    (env : SchemaEnv) :
    ∃ front triggers, env.executed createUuid tables n = front ++ triggers ∧
      (∀ stmt ∈ front, (∃ rule, stmt = .createRule rule) ∨ stmt ∈ createPermissionStatements tables) ∧
      triggers <+: createTableTriggers tables := by
  have hrules : ∀ stmt ∈ (createNotificationRuleStatements createUuid tables n).map
      SchemaStatement.createRule, ∃ rule, stmt = .createRule rule := by
    intro stmt hstmt
    obtain ⟨rule, -, rfl⟩ := List.mem_map.1 hstmt
    exact ⟨rule, rfl⟩
  rw [SchemaEnv.executed]
  split_ifs
  · refine ⟨_, [], (List.append_nil _).symm, fun stmt hstmt => ?_, List.nil_prefix⟩
    exact .inl (hrules stmt ((executedFrom_isPrefix _ _ _).subset hstmt))
  · refine ⟨_, [], (List.append_nil _).symm, fun stmt hstmt => ?_, List.nil_prefix⟩
    rcases List.mem_append.1 hstmt with hstmt | hstmt
    · exact .inl (hrules stmt hstmt)
    · exact .inr ((executedFrom_isPrefix _ _ _).subset hstmt)
  · refine ⟨_, _, rfl, fun stmt hstmt => ?_, executedFrom_isPrefix _ _ _⟩
    rcases List.mem_append.1 hstmt with hstmt | hstmt
    · exact .inl (hrules stmt hstmt)
    · exact .inr hstmt

omit [CaseFolding] [HashFunction] in
/-- The statements for triggers belong to columns. -/
theorem mem_createTableTriggers {stmt : SchemaStatement} (h : stmt ∈ createTableTriggers tables) :
    ∃ x ∈ guardedColumns tables, stmt = dropStatement x ∨ stmt = createStatement x := by
  obtain ⟨t, ht, h⟩ := List.mem_flatMap.1 h
  obtain ⟨c, hc, h⟩ := List.mem_flatMap.1 h
  rw [TableType.triggerStatements_eq] at h
  split_ifs at h with hguarded
  · exact ⟨(t, c), mem_guardedColumns.2 ⟨ht, hc, hguarded⟩, List.mem_pair.1 h⟩
  · cases h

/-- What a run says about triggers is about those of columns. -/
theorem exists_of_triggerEntry {n : Nat} {env : SchemaEnv} {stmt : SchemaStatement}
    (h : stmt ∈ env.executed createUuid tables n) {e : (QString × QString) × Option QString}
    (he : stmt.triggerEntry = some e) :
    ∃ x ∈ guardedColumns tables, stmt = dropStatement x ∨ stmt = createStatement x := by
  obtain ⟨front, triggers, hexecuted, hfront, htriggers⟩ := executed_eq_append createUuid tables n env
  rw [hexecuted, List.mem_append] at h
  rcases h with h | h
  · rw [triggerEntry_eq_none (hfront stmt h)] at he
    cases he
  · exact mem_createTableTriggers (htriggers.subset h)

variable {x : TableType × ColumnType} (hkeys : ((guardedColumns tables).map triggerKey).Nodup)
  (hx : x ∈ guardedColumns tables)
include hkeys hx

variable (createUuid) in
/-- A statement for the trigger of a column has been executed, if anything says the same. -/
theorem mem_executed_iff (n : Nat) (env : SchemaEnv) {stmt : SchemaStatement}
    (hx' : stmt = dropStatement x ∨ stmt = createStatement x) {v : Option QString}
    (hstmt : stmt.triggerEntry = some (triggerKey x, v)) :
    stmt ∈ env.executed createUuid tables n ↔
      (triggerKey x, v) ∈ (env.executed createUuid tables n).filterMap SchemaStatement.triggerEntry := by
  constructor
  · intro h
    exact List.mem_filterMap.2 ⟨stmt, h, hstmt⟩
  · intro h
    obtain ⟨stmt', hmem, heq⟩ := List.mem_filterMap.1 h
    -- there is one column with this key
    obtain ⟨y, hy, hstmt'⟩ := exists_of_triggerEntry hmem heq
    have hkey : triggerKey y = triggerKey x := by
      rcases hstmt' with rfl | rfl
      · exact congrArg Prod.fst (Option.some.inj heq)
      · exact congrArg Prod.fst (Option.some.inj heq)
    obtain rfl := List.inj_on_of_nodup_map hkeys hy hx hkey
    rcases hstmt' with rfl | rfl
    · obtain rfl : none = v := (Prod.mk.inj (Option.some.inj heq)).2
      rcases hx' with rfl | rfl
      · exact hmem
      · cases (Prod.mk.inj (Option.some.inj hstmt)).2
    · obtain rfl : some y.2.sqlName = v := (Prod.mk.inj (Option.some.inj heq)).2
      rcases hx' with rfl | rfl
      · cases (Prod.mk.inj (Option.some.inj hstmt)).2
      · exact hmem

/-- **What a run leaves of a trigger**: what its last statement for it says, if there is one. -/
theorem triggers_executed (n : Nat) (env : SchemaEnv) (c : Catalog) :
    ((env.executed createUuid tables n).foldl Catalog.exec c).triggers (triggerKey x) =
      if createStatement x ∈ env.executed createUuid tables n then some x.2.sqlName
      else if dropStatement x ∈ env.executed createUuid tables n then none
      else c.triggers (triggerKey x) := by
  obtain ⟨front, triggers, hexecuted, hfront, htriggers⟩ := executed_eq_append createUuid tables n env
  have hentries : (env.executed createUuid tables n).filterMap SchemaStatement.triggerEntry
      = triggers.filterMap SchemaStatement.triggerEntry := by
    rw [hexecuted, List.filterMap_append, List.filterMap_eq_nil_iff.2, List.nil_append]
    exact fun stmt hstmt => triggerEntry_eq_none (hfront stmt hstmt)
  -- the statements for the trigger are the first of two
  have hfirst : (triggers.filterMap SchemaStatement.triggerEntry).filter (fun e => e.1 = triggerKey x)
      <+: triggerEntries x := by
    rw [← filter_flatMap_triggerEntries hkeys hx, ← filterMap_createTableTriggers]
    exact (htriggers.filterMap _).filter _
  have hmem : ∀ e : (QString × QString) × Option QString, e.1 = triggerKey x →
      (e ∈ triggers.filterMap SchemaStatement.triggerEntry ↔
        e ∈ (triggers.filterMap SchemaStatement.triggerEntry).filter fun e => e.1 = triggerKey x) := by
    intro e he
    rw [List.mem_filter, and_iff_left (decide_eq_true he)]
  have hcreate := mem_executed_iff createUuid hkeys hx n env (.inr rfl) rfl
  have hdrop := mem_executed_iff createUuid hkeys hx n env (.inl rfl) rfl
  rw [hentries, hmem _ rfl] at hcreate hdrop
  rw [triggers_foldl_exec, Store.sets_filter, hentries]
  generalize (triggers.filterMap SchemaStatement.triggerEntry).filter _ = es at hfirst hcreate hdrop
  rcases List.prefix_cons_iff.1 hfirst with rfl | ⟨es, rfl, hsecond⟩
  · rw [if_neg fun h => List.not_mem_nil (hcreate.1 h), if_neg fun h => List.not_mem_nil (hdrop.1 h)]
    rfl
  · rcases List.prefix_cons_iff.1 hsecond with rfl | ⟨es, rfl, hnil⟩
    · have hnot : createStatement x ∉ env.executed createUuid tables n := fun h => by
        cases (Prod.mk.inj (List.mem_singleton.1 (hcreate.1 h))).2
      rw [if_neg hnot, if_pos (hdrop.2 List.mem_cons_self)]
      exact Function.update_self _ _ _
    · obtain rfl := List.prefix_nil.1 hnil
      rw [if_pos (hcreate.2 (List.mem_cons_of_mem _ List.mem_cons_self))]
      exact Function.update_self _ _ _

omit [CaseFolding] hkeys hx in
theorem executedRuns_concat (createUuid : Nat → QUuid) (tables : List TableType) (n : Nat)
    (envs : List SchemaEnv) (env : SchemaEnv) :
    ∃ n', executedRuns createUuid tables n (envs ++ [env])
      = executedRuns createUuid tables n envs ++ [env.executed createUuid tables n'] := by
  induction envs generalizing n with
  | nil => exact ⟨n, rfl⟩
  | cons env' envs ih =>
      obtain ⟨n', heq⟩ := ih (n + (notifyColumns tables).length)
      refine ⟨n', ?_⟩
      rw [List.cons_append, executedRuns, heq]
      rfl

end

section
variable [CaseFolding] [HashFunction] {createUuid : Nat → QUuid} {tables : List TableType}
  (hfolds : FoldsNames CaseFolding.toLower) (hplain : PlainSchema tables)
include hfolds hplain

/-- **When a column has its trigger**, in a new database after any runs of the schema, wherever
they have ended: some run has created it, and no later one has ended between dropping and
creating it. -/
theorem guarded_run_iff {x : TableType × ColumnType} (hx : x ∈ guardedColumns tables)
    (envs : List SchemaEnv) :
    (Runs.run (updateSchema createUuid tables) .new envs).catalog.triggers (triggerKey x)
        = some x.2.sqlName ↔
      LeavesTrigger x (executedRuns createUuid tables 0 envs) := by
  have hkeys := hplain.nodup_triggerKey hfolds
  rw [catalog_run]
  show (List.foldl _ SchemaState.new.catalog _).triggers _ = _ ↔ _
  induction envs using List.reverseRecOn with
  | nil => exact iff_of_false (fun h => by cases h) (not_leavesTrigger_nil x)
  | append_singleton envs env ih =>
      obtain ⟨n, hruns⟩ := executedRuns_concat createUuid tables 0 envs env
      rw [show SchemaState.new.uuids = 0 from rfl] at ih ⊢
      rw [hruns, List.flatten_append, List.foldl_append, List.flatten_singleton,
        triggers_executed hkeys hx, leavesTrigger_concat, ← ih]
      split_ifs with hcreate hdrop
      · exact iff_of_true rfl (.inl hcreate)
      · exact iff_of_false (fun h => by cases h) fun h => h.elim hcreate fun h => h.1 hdrop
      · rw [or_iff_right hcreate, and_iff_right hdrop]

end

/-- A table whose rows have a key. -/
def keyedTable : TableType := { watchedTable with columns := [⟨latin1 "id", ColumnProperties.primaryKey⟩] }

theorem plainSchema_keyedTable :
    let _ : CaseFolding := .ascii
    PlainSchema [keyedTable] := by
  intro _
  refine ⟨?_, List.nodup_singleton _, ?_, ?_, ?_⟩
  · intro t ht
    obtain rfl := List.mem_singleton.1 ht
    decide
  · intro t ht
    obtain rfl := List.mem_singleton.1 ht
    exact List.nodup_singleton _
  · intro t ht c hc
    obtain rfl := List.mem_singleton.1 ht
    obtain rfl := List.mem_singleton.1 hc
    decide
  · intro t ht c hc _
    obtain rfl := List.mem_singleton.1 ht
    obtain rfl := List.mem_singleton.1 hc
    decide

/-- A run that comes to its end, and one that ends when the trigger has been dropped. -/
example :
    let _ : CaseFolding := .ascii
    let _ : HashFunction := ⟨fun _ => 0⟩
    let lost : SchemaEnv :=
      ⟨fun _ => none, fun _ => none, fun i => if i = 1 then some (latin1 "lost") else none⟩
    let key := triggerKey (keyedTable, ⟨latin1 "id", ColumnProperties.primaryKey⟩)
    (Runs.run (updateSchema countedUuid [keyedTable]) .new [.noFailure]).catalog.triggers key
        = some (latin1 "id") ∧
      (Runs.run (updateSchema countedUuid [keyedTable]) .new [.noFailure, lost]).catalog.triggers key
        = none :=
  ⟨rfl, rfl⟩

end Sqlate
