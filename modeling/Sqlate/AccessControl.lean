/-
Sqlate/AccessControl.lean

What users may do to the rows of a schema.

The server accepts a statement of a user if one of the groups that the user is in has been
granted the operation, and if no trigger of an updated row raises an exception
(`Catalog.Permits`).  The triggers call `is_administrator`, which looks for the user among
the direct members of `sqladmins`; the groups of a user are also those through others.

In a database in which a run of the schema has come to its end, this is what the flags of
tables and columns say (`permits_iff`).  Columns that are guarded keep what has been
inserted, whatever users other than administrators do, as long as no later run ends
between dropping a trigger and creating it (`guarded_rows_run`).

Privileges of a user on single columns, and owners, who may do everything to their tables
as superusers may, are left out.
-/
import Mathlib.Data.List.Forall2
import Sqlate.ColumnTriggers
import Sqlate.SchemaPermissions
import Sqlate.StatementServer

namespace Sqlate

/-! ### Users -/

/-- The groups of users. -/
structure Roles where
  /-- The groups that a user is a member of. -/
  direct : QString → List QString
  /-- The user, and the groups that it is a member of through others as well. -/
  groups : QString → List QString
  isSuperuser : QString → Bool

/-- The function `is_administrator` lets the row pass. -/
def Roles.isAdministrator (R : Roles) (user : QString) : Bool :=
  (R.direct user).contains (latin1 "sqladmins")

/-! ### Statements -/

/-- A row that is updated. -/
structure RowUpdate where
  table : QString
  old : Record
  new : Record

namespace Modification

def table : Modification → PlainName
  | insertDefaults table | insert table _ _ | update _ table _ _ | delete _ table _ => table

def operation : Modification → Privilege
  | insertDefaults _ | insert _ _ _ => .insert
  | update _ _ _ _ => .update
  | delete _ _ _ => .delete

def hasCondition : Modification → Bool
  | update _ _ _ condition | delete _ _ condition => condition.isSome
  | _ => false

/-- Rows that are looked for have to be read. -/
def privileges (m : Modification) : List Privilege :=
  m.operation :: if m.hasCondition then [.select] else []

/-- The rows that a statement updates. -/
def updates (S : Server) (parameters : Parameters) (rows : Rows) : Modification → List RowUpdate
  | update only table assignments condition =>
      (rows.filter (S.selects parameters only table condition)).map fun x =>
        ⟨x.1, x.2, S.assign parameters x.1 assignments x.2⟩
  | _ => []

end Modification

section
variable [CaseFolding]

/-- The server accepts the statement of a user, whose names have room. -/
structure Catalog.Permits (c : Catalog) (R : Roles) (S : Server) (parameters : Parameters) (rows : Rows)
    (user : QString) (m : Modification) : Prop where
  privileges : R.isSuperuser user = true ∨
    ∀ p ∈ m.privileges, ∃ g ∈ R.groups user, c.privileges m.table.folded g p = true
  /-- FOR EACH ROW WHEN (OLD. … IS DISTINCT FROM NEW. …). -/
  triggers : ∀ u ∈ m.updates S parameters rows, ∀ name column, c.triggers (u.table, name) = some column →
    u.old (serverName column) ≠ u.new (serverName column) → R.isAdministrator user = true

/-! ### What a schema allows -/

/-- A user is in a group that the schema gives a privilege on a table. -/
def Allows (tables : List TableType) (R : Roles) (user table : QString) (p : Privilege) : Prop :=
  ∃ t ∈ tables, table = serverName t.sqlName ∧
    (serverName t.adminGroup ∈ R.groups user ∧ p ∈ [Privilege.select, .insert, .update, .delete] ∨
      serverName t.userGroup ∈ R.groups user ∧ t.Allows p)

variable {tables : List TableType} {R : Roles} {user table : QString}

/-- Whoever may change rows may read them. -/
theorem Allows.select {p : Privilege} (h : Allows tables R user table p) :
    Allows tables R user table .select := by
  obtain ⟨t, ht, htable, ⟨hgroup, -⟩ | ⟨hgroup, -⟩⟩ := h
  · exact ⟨t, ht, htable, .inl ⟨hgroup, List.mem_cons_self⟩⟩
  · exact ⟨t, ht, htable, .inr ⟨hgroup, trivial⟩⟩

theorem allows_privileges_iff (m : Modification) :
    (∀ p ∈ m.privileges, Allows tables R user table p) ↔ Allows tables R user table m.operation := by
  rw [Modification.privileges, List.forall_mem_cons]
  refine ⟨fun h => h.1, fun h => ⟨h, fun p hp => ?_⟩⟩
  split_ifs at hp
  · obtain rfl := List.mem_singleton.1 hp
    exact h.select
  · cases hp

/-! ### Privileges and triggers after runs -/

variable [HashFunction] {createUuid : Nat → QUuid}

omit [CaseFolding] in
/-- What several runs execute, one of them does. -/
theorem mem_executedRuns {n : Nat} {envs : List SchemaEnv} {stmt : SchemaStatement}
    (h : stmt ∈ (executedRuns createUuid tables n envs).flatten) :
    ∃ n', ∃ env : SchemaEnv, stmt ∈ env.executed createUuid tables n' := by
  induction envs generalizing n with
  | nil => cases h
  | cons env envs ih =>
      rw [executedRuns, List.flatten_cons, List.mem_append] at h
      rcases h with h | h
      · exact ⟨n, env, h⟩
      · exact ih h

/-- Of the statements of a run, only those of the list for permissions grant anything. -/
theorem mem_permissions_of_grants {n : Nat} {env : SchemaEnv} {stmt : SchemaStatement}
    (h : stmt ∈ env.executed createUuid tables n) {g : QString} {p : Privilege}
    (hgrants : stmt.grants table g p = true) : stmt ∈ createPermissionStatements tables := by
  obtain ⟨front, triggers, hexecuted, hfront, htriggers⟩ := executed_eq_append createUuid tables n env
  rw [hexecuted, List.mem_append] at h
  rcases h with h | h
  · rcases hfront stmt h with ⟨rule, rfl⟩ | h
    · cases hgrants
    · exact h
  · obtain ⟨x, -, rfl | rfl⟩ := mem_createTableTriggers (htriggers.subset h)
    · cases hgrants
    · cases hgrants

/-- The privileges on a table, when some run has come to its end. -/
theorem privileges_run_iff {before after : List SchemaEnv} {env : SchemaEnv} {s : SchemaState}
    (hok : createRulesPermissionsAndTriggers createUuid tables
      (Runs.run (updateSchema createUuid tables) .new before) env = .ok s) (g : QString) (p : Privilege) :
    (Runs.run (updateSchema createUuid tables) .new (before ++ env :: after)).catalog.privileges table g p
        = true ↔
      ∃ t ∈ tables, table = serverName t.sqlName ∧
        (g = serverName t.adminGroup ∧ p ∈ [Privilege.select, .insert, .update, .delete] ∨
          g = serverName t.userGroup ∧ t.Allows p) := by
  rw [← any_grants_iff]
  constructor
  · rw [catalog_run, privileges_foldl_exec]
    show (false || _) = true → _
    rw [Bool.false_or, List.any_eq_true, List.any_eq_true]
    rintro ⟨stmt, hstmt, hgrants⟩
    obtain ⟨n, env', hexecuted⟩ := mem_executedRuns hstmt
    exact ⟨stmt, mem_permissions_of_grants hexecuted hgrants, hgrants⟩
  · intro hany
    -- what has been granted is not taken away
    rw [run_of_ok hok, catalog_run, privileges_foldl_exec, Bool.or_eq_true]
    left
    have hend : s.catalog = (env.executed createUuid tables
        (Runs.run (updateSchema createUuid tables) .new before).uuids).foldl Catalog.exec
          (Runs.run (updateSchema createUuid tables) .new before).catalog := by
      rw [← catalog_updateSchema, updateSchema, hok]
    rw [hend, privileges_foldl_exec, executed_of_ok hok, List.any_append, List.any_append, hany,
      Bool.or_true, Bool.true_or, Bool.or_true]

/-- The triggers are those of columns. -/
theorem column_of_trigger {envs : List SchemaEnv} {k : QString × QString} {column : QString}
    (h : (Runs.run (updateSchema createUuid tables) .new envs).catalog.triggers k = some column) :
    ∃ x ∈ guardedColumns tables, k = triggerKey x ∧ column = x.2.sqlName := by
  rw [catalog_run, triggers_foldl_exec] at h
  have hentry := Store.mem_or_eq_of_sets (f := SchemaState.new.catalog.triggers)
    ((executedRuns createUuid tables SchemaState.new.uuids envs).flatten.filterMap
      SchemaStatement.triggerEntry) k
  rw [h] at hentry
  rcases hentry with hmem | hnew
  · obtain ⟨stmt, hstmt, hsays⟩ := List.mem_filterMap.1 hmem
    obtain ⟨n, env, hexecuted⟩ := mem_executedRuns hstmt
    obtain ⟨x, hx, rfl | rfl⟩ := exists_of_triggerEntry hexecuted hsays
    · cases (Prod.mk.inj (Option.some.inj hsays)).2
    · obtain ⟨hkey, hcolumn⟩ := Prod.mk.inj (Option.some.inj hsays)
      exact ⟨x, hx, hkey.symm, (Option.some.inj hcolumn).symm⟩
  · cases hnew

/-! ### What is accepted -/

/-- **Which statements a database accepts.**  In a new database, after runs of the schema of
which one has come to its end, a user may do what the flags of the table allow its groups, and
update a row if it is an administrator or if all columns keep what they hold whose trigger has
not got lost. -/
theorem permits_iff (hfolds : FoldsNames CaseFolding.toLower) (hplain : PlainSchema tables)
    {before after : List SchemaEnv} {env : SchemaEnv} {s : SchemaState}
    (hok : createRulesPermissionsAndTriggers createUuid tables
      (Runs.run (updateSchema createUuid tables) .new before) env = .ok s)
    (S : Server) (parameters : Parameters) (rows : Rows) (m : Modification) :
    (Runs.run (updateSchema createUuid tables) .new (before ++ env :: after)).catalog.Permits R S
        parameters rows user m ↔
      (R.isSuperuser user = true ∨ Allows tables R user m.table.folded m.operation) ∧
      (R.isAdministrator user = true ∨ ∀ u ∈ m.updates S parameters rows, ∀ x ∈ guardedColumns tables,
        u.table = serverName x.1.sqlName →
        LeavesTrigger x (executedRuns createUuid tables 0 (before ++ env :: after)) →
          u.old (serverName x.2.sqlName) = u.new (serverName x.2.sqlName)) := by
  have hprivileges : (∀ p ∈ m.privileges, ∃ g ∈ R.groups user,
        (Runs.run (updateSchema createUuid tables) .new (before ++ env :: after)).catalog.privileges
          m.table.folded g p = true) ↔ Allows tables R user m.table.folded m.operation := by
    rw [← allows_privileges_iff]
    refine forall₂_congr fun p _ => ?_
    simp only [privileges_run_iff hok]
    constructor
    · rintro ⟨g, hg, t, ht, htable, ⟨rfl, hp⟩ | ⟨rfl, hp⟩⟩
      · exact ⟨t, ht, htable, .inl ⟨hg, hp⟩⟩
      · exact ⟨t, ht, htable, .inr ⟨hg, hp⟩⟩
    · rintro ⟨t, ht, htable, ⟨hg, hp⟩ | ⟨hg, hp⟩⟩
      · exact ⟨_, hg, t, ht, htable, .inl ⟨rfl, hp⟩⟩
      · exact ⟨_, hg, t, ht, htable, .inr ⟨rfl, hp⟩⟩
  constructor
  · rintro ⟨hgroup, htriggers⟩
    refine ⟨hgroup.imp_right hprivileges.1, ?_⟩
    by_cases hadmin : R.isAdministrator user = true
    · exact .inl hadmin
    · refine .inr fun u hu x hx htable hleaves => ?_
      by_contra hchanged
      apply hadmin
      apply htriggers u hu (serverName (x.1.triggerName x.2)) x.2.sqlName _ hchanged
      rw [htable]
      exact (guarded_run_iff hfolds hplain hx _).2 hleaves
  · rintro ⟨hgroup, hcolumns⟩
    refine ⟨hgroup.imp_right hprivileges.2, fun u hu name column htrigger hchanged => ?_⟩
    obtain ⟨x, hx, hkey, rfl⟩ := column_of_trigger htrigger
    rw [hkey] at htrigger
    have hleaves := (guarded_run_iff hfolds hplain hx _).1 htrigger
    rcases hcolumns with hadmin | hcolumns
    · exact hadmin
    · exact absurd (hcolumns u hu x hx (Prod.mk.inj hkey).1 hleaves) hchanged

end

/-- Groups by their members. -/
def annOfUsers : Roles where
  direct user := if user = latin1 "ann" then [latin1 "users"] else []
  groups user := if user = latin1 "ann" then [latin1 "ann", latin1 "users"] else [user]
  isSuperuser _ := false

/-- A server that knows nothing of values. -/
def blankServer : Server where
  compare _ _ _ := .unknown
  toLower v := v
  now := .invalid
  subTables _ := []
  default _ _ := .invalid

def keyedName : PlainName := ⟨latin1 "t", by decide⟩

def keyColumn : PlainName := ⟨latin1 "id", by decide⟩

/-- A user changes the key of a row, after a run that has ended when the trigger was dropped. -/
theorem permits_iff_keyedTable :
    let _ : CaseFolding := .ascii
    let _ : HashFunction := ⟨fun _ => 0⟩
    let lost : SchemaEnv :=
      ⟨fun _ => none, fun _ => none, fun i => if i = 1 then some (latin1 "lost") else none⟩
    let m := Modification.update false keyedName [(keyColumn, .parameter 0)] none
    let rows : Rows := [(latin1 "t", fun _ => .invalid)]
    let given : Parameters := fun _ => some (.string (latin1 "7"))
    (Runs.run (updateSchema countedUuid [keyedTable]) .new ([] ++ .noFailure :: [lost])).catalog.Permits
        annOfUsers blankServer given rows (latin1 "ann") m ↔
      (annOfUsers.isSuperuser (latin1 "ann") = true ∨
        Allows [keyedTable] annOfUsers (latin1 "ann") m.table.folded m.operation) ∧
      (annOfUsers.isAdministrator (latin1 "ann") = true ∨
        ∀ u ∈ m.updates blankServer given rows, ∀ x ∈ guardedColumns [keyedTable],
          u.table = serverName x.1.sqlName →
          LeavesTrigger x (executedRuns countedUuid [keyedTable] 0 ([] ++ .noFailure :: [lost])) →
            u.old (serverName x.2.sqlName) = u.new (serverName x.2.sqlName)) := by
  intro _ _ lost m rows given
  have hok : createRulesPermissionsAndTriggers countedUuid [keyedTable]
      (Runs.run (updateSchema countedUuid [keyedTable]) .new []) .noFailure = .ok _ := rfl
  exact permits_iff foldsNames_ascii plainSchema_keyedTable hok blankServer given rows m

/-! ### Rows over whole runs -/

/-- A schema and the rows of its tables. -/
structure SharedDatabase where
  schema : SchemaState
  rows : Rows

inductive SharedEvent
  | updateSchema (env : SchemaEnv)
  | modify (user : QString) (parameters : Parameters) (m : Modification)

/-- The rows that an event adds. -/
def SharedEvent.insertedRows (S : Server) : SharedEvent → Rows
  | updateSchema _ => []
  | modify _ parameters m => (m.execute S parameters []).getD []

/-- Two rows of a table with the same in all columns that are guarded. -/
def SameGuarded [CaseFolding] (tables : List TableType) (x y : QString × Record) : Prop :=
  x.1 = y.1 ∧ ∀ z ∈ guardedColumns tables, x.1 = serverName z.1.sqlName →
    x.2 (serverName z.2.sqlName) = y.2 (serverName z.2.sqlName)

namespace SharedDatabase
variable [CaseFolding] [HashFunction] (createUuid : Nat → QUuid) (tables : List TableType) (R : Roles)
  (S : Server)

def step (s : SharedDatabase) : SharedEvent → SharedDatabase
  | .updateSchema env => { s with schema := Sqlate.updateSchema createUuid tables s.schema env }
  | .modify _ parameters m => { s with rows := (m.execute S parameters s.rows).getD s.rows }

/-- No run leaves a trigger dropped.  What the server does not accept does nothing. -/
def Admits (s : SharedDatabase) : SharedEvent → Prop
  | .updateSchema env => ∀ x ∈ guardedColumns tables,
      dropStatement x ∈ env.executed createUuid tables s.schema.uuids →
        createStatement x ∈ env.executed createUuid tables s.schema.uuids
  | .modify user parameters m =>
      s.schema.catalog.Permits R S parameters s.rows user m ∧ R.isAdministrator user = false

end SharedDatabase

section
variable [CaseFolding] {tables : List TableType}

instance : Std.Refl (SameGuarded tables) := ⟨fun _ => ⟨rfl, fun _ _ _ => rfl⟩⟩

instance : IsTrans (QString × Record) (SameGuarded tables) := ⟨fun _ _ _ hxy hyz =>
  ⟨hxy.1.trans hyz.1, fun c hc htable => (hxy.2 c hc htable).trans (hyz.2 c hc (hxy.1 ▸ htable))⟩⟩

/-- The same rows behind others. -/
theorem sameGuarded_append {rows rows' : Rows} (h : List.SublistForall₂ (SameGuarded tables) rows rows')
    (new : Rows) : List.SublistForall₂ (SameGuarded tables) (rows ++ new) (rows' ++ new) := by
  obtain ⟨kept, hsame, hsublist⟩ := List.sublistForall₂_iff.1 h
  refine List.sublistForall₂_iff.2 ⟨kept ++ new, ?_, hsublist.append (.refl new)⟩
  exact List.rel_append hsame (List.forall₂_refl new)

/-- All columns that are guarded have their triggers. -/
def Guards (tables : List TableType) (c : Catalog) : Prop :=
  ∀ x ∈ guardedColumns tables, c.triggers (triggerKey x) = some x.2.sqlName

/-- **One statement** of a user who is no administrator. -/
theorem sameGuarded_execute {c : Catalog} (hguards : Guards tables c) {R : Roles} {S : Server}
    {parameters : Parameters} {rows : Rows} {user : QString} {m : Modification}
    (hpermits : c.Permits R S parameters rows user m) (huser : R.isAdministrator user = false) :
    List.SublistForall₂ (SameGuarded tables) ((m.execute S parameters rows).getD rows)
      (rows ++ (m.execute S parameters []).getD []) := by
  have hrefused : List.SublistForall₂ (SameGuarded tables) rows (rows ++ []) := by
    rw [List.append_nil]
    exact (List.Sublist.refl rows).sublistForall₂
  cases m with
  | insertDefaults table => exact (List.Sublist.refl _).sublistForall₂
  | insert table columns values =>
      simp only [Modification.execute]
      split_ifs
      · exact (List.Sublist.refl _).sublistForall₂
      · exact hrefused
  | delete only table condition =>
      simp only [Modification.execute]
      split_ifs
      · show List.SublistForall₂ _ _ (rows ++ [])
        rw [List.append_nil]
        exact List.filter_sublist.sublistForall₂
      · exact hrefused
  | update only table assignments condition =>
      simp only [Modification.execute]
      split_ifs
      · show List.SublistForall₂ _ _ (rows ++ [])
        rw [List.append_nil]
        refine List.sublistForall₂_iff.2 ⟨rows, List.forall₂_map_left_iff.2 ?_, .refl rows⟩
        refine List.forall₂_same.2 fun x hx => ?_
        split_ifs with hselects
        · refine ⟨rfl, fun z hz htable => ?_⟩
          by_contra hchanged
          -- the trigger of the column raises an exception
          have hupdate : (⟨x.1, x.2, S.assign parameters x.1 assignments x.2⟩ : RowUpdate) ∈
              (Modification.update only table assignments condition).updates S parameters rows :=
            List.mem_map.2 ⟨x, List.mem_filter.2 ⟨hx, hselects⟩, rfl⟩
          have htrigger : c.triggers (x.1, serverName (z.1.triggerName z.2)) = some z.2.sqlName := by
            rw [htable]
            exact hguards z hz
          have hadmin := hpermits.triggers _ hupdate _ _ htrigger fun heq => hchanged heq.symm
          rw [huser] at hadmin
          cases hadmin
        · exact ⟨rfl, fun _ _ _ => rfl⟩
      · exact hrefused

variable [HashFunction] {createUuid : Nat → QUuid} (hfolds : FoldsNames CaseFolding.toLower)
  (hplain : PlainSchema tables)
include hfolds hplain

/-- One run of the schema, which leaves no trigger dropped. -/
theorem Guards.updateSchema {s : SchemaState} (hguards : Guards tables s.catalog) {env : SchemaEnv}
    (henv : ∀ x ∈ guardedColumns tables, dropStatement x ∈ env.executed createUuid tables s.uuids →
      createStatement x ∈ env.executed createUuid tables s.uuids) :
    Guards tables (Sqlate.updateSchema createUuid tables s env).catalog := by
  intro x hx
  rw [catalog_updateSchema, triggers_executed (hplain.nodup_triggerKey hfolds) hx]
  split_ifs with hcreate hdrop
  · rfl
  · exact absurd (henv x hx hdrop) hcreate
  · exact hguards x hx

/-- A run that comes to its end creates all triggers. -/
theorem guards_of_ok {s s' : SchemaState} {env : SchemaEnv}
    (hok : createRulesPermissionsAndTriggers createUuid tables s env = .ok s') :
    Guards tables s'.catalog := by
  intro x hx
  have hend : s'.catalog = (Sqlate.updateSchema createUuid tables s env).catalog := by
    rw [Sqlate.updateSchema, hok]
  rw [hend, catalog_updateSchema, triggers_executed (hplain.nodup_triggerKey hfolds) hx, if_pos]
  rw [executed_of_ok hok]
  apply List.mem_append_right
  obtain ⟨ht, hc, hguarded⟩ := mem_guardedColumns.1 hx
  refine List.mem_flatMap.2 ⟨x.1, ht, List.mem_flatMap.2 ⟨x.2, hc, ?_⟩⟩
  rw [TableType.triggerStatements_eq, if_pos hguarded]
  exact List.mem_cons_of_mem _ (List.mem_singleton_self _)

/-- **What becomes of guarded columns.**  In a database in which a run of the schema has come to
its end, statements of users who are no administrators, and further runs that leave no trigger
dropped, go on in any order.  The rows are then some of those that have been there or have been
inserted, in this order, with the same in every guarded column. -/
theorem guarded_rows_run {s₀ s : SchemaState} {env : SchemaEnv}
    (hok : createRulesPermissionsAndTriggers createUuid tables s₀ env = .ok s) {R : Roles} {S : Server}
    {rows : Rows} {es : List SharedEvent}
    (hes : Runs.Along (SharedDatabase.step createUuid tables S) (SharedDatabase.Admits createUuid tables R S)
      ⟨s, rows⟩ es) :
    List.SublistForall₂ (SameGuarded tables)
      (Runs.run (SharedDatabase.step createUuid tables S) ⟨s, rows⟩ es).rows
      (rows ++ es.flatMap (SharedEvent.insertedRows S)) := by
  have hguards : Guards tables s.catalog := guards_of_ok hfolds hplain hok
  clear hok
  induction es generalizing s rows with
  | nil =>
      rw [List.flatMap_nil, List.append_nil]
      exact (List.Sublist.refl rows).sublistForall₂
  | cons e es ih =>
      rw [List.flatMap_cons, ← List.append_assoc]
      obtain ⟨he, hes⟩ := hes
      cases e with
      | updateSchema env =>
          show List.SublistForall₂ _ _ (rows ++ [] ++ _)
          rw [List.append_nil]
          exact ih hes (hguards.updateSchema hfolds hplain he)
      | modify user parameters m =>
          have hstep := sameGuarded_execute hguards he.1 he.2
          exact trans_of (List.SublistForall₂ (SameGuarded tables)) (ih hes hguards) (sameGuarded_append hstep _)

end

/-- A user inserts a row, and the schema is updated once more. -/
theorem guarded_rows_run_keyedTable :
    let _ : CaseFolding := .ascii
    let _ : HashFunction := ⟨fun _ => 0⟩
    let es : List SharedEvent :=
      [.modify (latin1 "ann") (fun _ => none) (.insertDefaults keyedName), .updateSchema .noFailure]
    ∃ s, createRulesPermissionsAndTriggers countedUuid [keyedTable] .new .noFailure = .ok s ∧
      List.SublistForall₂ (SameGuarded [keyedTable])
        (Runs.run (SharedDatabase.step countedUuid [keyedTable] blankServer) ⟨s, []⟩ es).rows
        ([] ++ es.flatMap (SharedEvent.insertedRows blankServer)) := by
  intro _ _ es
  have hok : ∃ s, createRulesPermissionsAndTriggers countedUuid [keyedTable] .new .noFailure = .ok s ∧
      s.uuids = 0 ∧ s.catalog.privileges (latin1 "t") (latin1 "users") .insert = true :=
    ⟨_, rfl, rfl, rfl⟩
  obtain ⟨s, hok, huuids, hinsert⟩ := hok
  have hes : Runs.Along (SharedDatabase.step countedUuid [keyedTable] blankServer)
      (SharedDatabase.Admits countedUuid [keyedTable] annOfUsers blankServer) ⟨s, []⟩ es := by
    refine ⟨⟨⟨.inr fun p hp => ?_, fun u hu => absurd hu List.not_mem_nil⟩, rfl⟩, ?_, trivial⟩
    · obtain rfl := List.mem_singleton.1 hp
      exact ⟨latin1 "users", List.mem_cons_of_mem _ (List.mem_singleton_self _), hinsert⟩
    · rintro x hx -
      obtain rfl := List.mem_singleton.1 hx
      show _ ∈ SchemaEnv.executed countedUuid [keyedTable] s.uuids .noFailure
      rw [huuids]
      exact List.contains_iff_mem.1 rfl
  exact ⟨s, hok, guarded_rows_run foldsNames_ascii plainSchema_keyedTable hok hes⟩

end Sqlate
