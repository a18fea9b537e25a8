/-
Sqlate/TableMigration.lean

`createMissingTables` and `createMissingColumns` against a server that reads the statements.

The model of an update keeps the names of tables and columns, and does to them what the
statements are meant to do.  Here the requests of a run are given to the server of
`TableServer` (`replay`); they succeed only if the server admits them, but they may fail
although it does.  The names stay those of the tables of the server, wherever the run is cut
off, and every column that the server gets is one of the schema, under the definition that it
has there (`createMissing_mirrors`).
-/
import Sqlate.MissingTables
import Sqlate.TableOrder

namespace Sqlate

section
variable [CaseFolding]

open Runs

/-- What the database of an update knows of a table. -/
def StoredTable.entry (t : StoredTable) : QString × List QString := (t.name, t.columnNames)

/-- The text of a request that changes the tables. -/
def UpdateRequest.definition? : UpdateRequest → Option QString
  | .createTable text | .addColumn text => some text
  | _ => none

/-- The tables behind a request that has failed or not, if the server can give this answer.  Any
request may fail, and then has no effect. -/
def TableServer.answer (S : TableServer) (tables : List StoredTable) (r : UpdateRequest) (failed : Bool) :
    Option (List StoredTable) :=
  if failed then some tables else r.definition?.elim (some tables) (S.exec tables)

/-- The tables behind the requests of a run, from the `n`-th on, if the server can give the
answers that it has got. -/
def TableServer.replay (S : TableServer) (env : UpdateEnv) :
    Nat → List StoredTable → List UpdateRequest → Option (List StoredTable)
  | _, tables, [] => some tables
  | n, tables, r :: rs =>
      (S.answer tables r (env.fails n).isSome).bind fun tables => S.replay env (n + 1) tables rs

/-- Every column is one of the tables before, or one of the schema. -/
def ComesFrom (before : List StoredTable) (schema : List TableDescription) (tables : List StoredTable) : Prop :=
  ∀ u ∈ tables, ∀ d ∈ u.columns, (∃ u' ∈ before, u'.name = u.name ∧ d ∈ u'.columns)
    ∨ ∃ t ∈ schema, t.tableName.folded = u.name ∧ ∃ c ∈ t.columns, c.isPlain = true ∧ d = c.definition

section
variable {S : TableServer} {env : UpdateEnv} {before tables tables' : List StoredTable}
  {schema : List TableDescription} {t : TableDescription} {c : TableColumn}

theorem TableServer.replay_append (n : Nat) (rs rs' : List UpdateRequest) :
    S.replay env n tables (rs ++ rs')
      = (S.replay env n tables rs).bind fun tables => S.replay env (n + rs.length) tables rs' := by
  induction rs generalizing n tables with
  | nil => rfl
  | cons r rs ih =>
      have hlength : n + (r :: rs).length = n + 1 + rs.length := by
        rw [List.length_cons]
        omega
      rw [hlength, List.cons_append, replay, replay, Option.bind_assoc]
      exact congrArg _ (funext fun _ => ih (n + 1))

/-! ### What the server does -/

theorem TableDescription.exec_create_eq_some (h : S.exec tables t.createTableStatement = some tables') :
    t.isPlain = true ∧ tables' = tables ++ [t.stored] := by
  rw [exec_createTableStatement] at h
  split at h
  next hplain =>
    rw [TableServer.create] at h
    split at h
    · exact ⟨hplain, (Option.some.inj h).symm⟩
    · cases h
  next => cases h

theorem TableDescription.exec_alter_eq_some
    (h : S.exec tables (t.schemaTable.alterStatement (c.sqlName, c.columnStatement)) = some tables') :
    c.isPlain = true ∧ tables' = TableServer.widen tables t.tableName.folded c.definition := by
  rw [exec_alterStatement] at h
  split at h
  next hplain =>
    obtain ⟨u, hu, hadd⟩ := Option.bind_eq_some_iff.1 h
    have hfound := List.find?_some hu
    have hname : u.name = t.tableName.folded := beq_iff_eq.1 hfound
    rw [hname] at hadd
    simp only at hadd
    split at hadd
    · exact ⟨hplain, (Option.some.inj hadd).symm⟩
    · cases hadd
  next => cases h

theorem entries_create (db : Database) (h : db.tables = tables.map StoredTable.entry) :
    (db.createTable t.schemaTable).tables = (tables ++ [t.stored]).map StoredTable.entry := by
  have hnames : (t.schemaTable.columns.map fun c => CaseFolding.toLower c.1) = t.stored.columnNames := by
    rw [t.columnNames_stored]
    exact List.map_map
  rw [Database.createTable, h, hnames, List.map_append]
  rfl

theorem entries_widen (db : Database) (h : db.tables = tables.map StoredTable.entry) :
    (db.addColumn t.schemaTable (c.sqlName, c.columnStatement)).tables
      = (TableServer.widen tables t.tableName.folded c.definition).map StoredTable.entry := by
  rw [Database.addColumn, h, TableServer.widen, List.map_map, List.map_map]
  refine List.map_congr_left fun u _ => ?_
  show (if u.name = t.tableName.folded then _ else u.entry) = StoredTable.entry (if u.name == t.tableName.folded then _ else u)
  by_cases hname : u.name = t.tableName.folded
  · rw [if_pos hname, if_pos (beq_iff_eq.2 hname)]
    show (u.name, u.columnNames ++ _) = (u.name, StoredTable.columnNames _)
    rw [StoredTable.columnNames, StoredTable.columnNames, List.map_append]
    rfl
  · rw [if_neg hname, if_neg fun heq => hname (beq_iff_eq.1 heq)]

theorem ComesFrom.create (h : ComesFrom before schema tables) (ht : t ∈ schema) (hplain : t.isPlain = true) :
    ComesFrom before schema (tables ++ [t.stored]) := by
  intro u hu d hd
  rcases List.mem_append.1 hu with hu | hu
  · exact h u hu d hd
  · obtain rfl := List.mem_singleton.1 hu
    rw [t.columns_stored] at hd
    obtain ⟨c, hc, rfl⟩ := List.mem_map.1 hd
    exact .inr ⟨t, ht, rfl, c, hc, List.all_eq_true.1 hplain c hc, rfl⟩

theorem ComesFrom.widen (h : ComesFrom before schema tables) (ht : t ∈ schema) (hc : c ∈ t.columns)
    (hplain : c.isPlain = true) :
    ComesFrom before schema (TableServer.widen tables t.tableName.folded c.definition) := by
  intro u hu d hd
  obtain ⟨v, hv, rfl⟩ := List.mem_map.1 hu
  by_cases hname : v.name = t.tableName.folded
  · rw [if_pos (beq_iff_eq.2 hname)] at hd ⊢
    rcases List.mem_append.1 hd with hd | hd
    · exact h v hv d hd
    · obtain rfl := List.mem_singleton.1 hd
      exact .inr ⟨t, ht, hname.symm, c, hc, hplain, rfl⟩
  · rw [if_neg fun heq => hname (beq_iff_eq.1 heq)] at hd ⊢
    exact h v hv d hd

end

/-! ### Runs -/

namespace Updates

/-- A state on the way, and the tables of a server that has given the answers. -/
structure Mirrors (S : TableServer) (env : UpdateEnv) (schema : List TableDescription)
    (before : List StoredTable) (s : Updates) (tables : List StoredTable) (u : Updates) : Prop where
  requests : s.requests <+: u.requests
  schemaTables : u.schema.tables = schema.map TableDescription.schemaTable
  agrees : ∀ tables', S.replay env s.requests.length tables (u.requests.drop s.requests.length) = some tables' →
    u.db.tables = tables'.map StoredTable.entry ∧ ComesFrom before schema tables'

section
variable {S : TableServer} {env : UpdateEnv} {schema : List TableDescription}
  {before tables : List StoredTable} {s u : Updates}

theorem Mirrors.refl (hschema : s.schema.tables = schema.map TableDescription.schemaTable)
    (hentries : s.db.tables = tables.map StoredTable.entry) (hfrom : ComesFrom before schema tables) :
    Mirrors S env schema before s tables s where
  requests := List.prefix_rfl
  schemaTables := hschema
  agrees tables' h := by
    rw [List.drop_length] at h
    obtain rfl := Option.some.inj h
    exact ⟨hentries, hfrom⟩

/-- What the server makes of one more request. -/
theorem Mirrors.replay_eq_some (hu : Mirrors S env schema before s tables u) {r : UpdateRequest}
    {tables' : List StoredTable}
    (h : S.replay env s.requests.length tables ((u.requests ++ [r]).drop s.requests.length) = some tables') :
    ∃ middle, u.db.tables = middle.map StoredTable.entry ∧ ComesFrom before schema middle
      ∧ S.answer middle r (env.fails u.requests.length).isSome = some tables' := by
  have hle : s.requests.length ≤ u.requests.length := hu.requests.length_le
  have hlength : s.requests.length + (u.requests.drop s.requests.length).length = u.requests.length := by
    rw [List.length_drop]
    omega
  rw [List.drop_append_of_le_length hle, TableServer.replay_append, hlength] at h
  obtain ⟨middle, hmiddle, hlast⟩ := Option.bind_eq_some_iff.1 h
  obtain ⟨hentries, hfrom⟩ := hu.agrees middle hmiddle
  obtain ⟨_, hanswer, hend⟩ := Option.bind_eq_some_iff.1 hlast
  obtain rfl := Option.some.inj hend
  exact ⟨middle, hentries, hfrom, hanswer⟩

/-- A request that fails, or is none of the server of tables. -/
theorem Mirrors.request_ends (hu : Mirrors S env schema before s tables u) (r : UpdateRequest)
    {P : Updates → Prop} (hok : env.fails u.requests.length = none →
      P { u with requests := u.requests ++ [r] }) :
    Ends P (fun x => Mirrors S env schema before s tables x.2) (u.request env r) := by
  rw [request]
  cases hfails : env.fails u.requests.length with
  | none => exact hok hfails
  | some text =>
      refine ⟨hu.requests.trans (List.prefix_append ..), hu.schemaTables, fun tables' h => ?_⟩
      obtain ⟨middle, hentries, hfrom, hanswer⟩ := hu.replay_eq_some h
      rw [hfails] at hanswer
      obtain rfl : middle = tables' := Option.some.inj hanswer
      exact ⟨hentries, hfrom⟩

/-- A request that does not fail is answered with what the statement does. -/
theorem answer_eq_some {r : UpdateRequest} {text : QString} (hr : r.definition? = some text)
    {tables' : List StoredTable} (h : S.answer tables r false = some tables') :
    S.exec tables text = some tables' := by
  have hexec : r.definition?.elim (some tables) (S.exec tables) = some tables' := h
  rwa [hr] at hexec

theorem createMissingTable_mirrors (hu : Mirrors S env schema before s tables u) {t : TableDescription}
    (ht : t ∈ schema) (existing : Database) :
    Ends (Mirrors S env schema before s tables) (fun x => Mirrors S env schema before s tables x.2)
      (createMissingTable env existing u t.schemaTable) := by
  rw [createMissingTable]
  split
  · refine Ends.bind (P := fun v => Mirrors S env schema before s tables
      (v.commitTo (v.db.createTable t.schemaTable))) ?_ fun v hv => show Mirrors .. from hv
    refine hu.request_ends _ fun hok => ?_
    refine ⟨hu.requests.trans (List.prefix_append ..), hu.schemaTables, fun tables' h => ?_⟩
    obtain ⟨middle, hentries, hfrom, hanswer⟩ := hu.replay_eq_some h
    rw [hok] at hanswer
    obtain ⟨hplain, rfl⟩ := TableDescription.exec_create_eq_some (answer_eq_some rfl hanswer)
    exact ⟨entries_create u.db hentries, hfrom.create ht hplain⟩
  · exact hu

theorem createMissingColumn_mirrors (hu : Mirrors S env schema before s tables u) {t : TableDescription}
    (ht : t ∈ schema) {c : TableColumn} (hc : c ∈ t.columns) (existing : Database) :
    Ends (Mirrors S env schema before s tables) (fun x => Mirrors S env schema before s tables x.2)
      (createMissingColumn env existing t.schemaTable u (c.sqlName, c.columnStatement)) := by
  rw [createMissingColumn]
  split
  · refine Ends.bind (P := fun v => Mirrors S env schema before s tables
      (v.commitTo (v.db.addColumn t.schemaTable (c.sqlName, c.columnStatement)))) ?_
      fun v hv => show Mirrors .. from hv
    refine hu.request_ends _ fun hok => ?_
    refine ⟨hu.requests.trans (List.prefix_append ..), hu.schemaTables, fun tables' h => ?_⟩
    obtain ⟨middle, hentries, hfrom, hanswer⟩ := hu.replay_eq_some h
    rw [hok] at hanswer
    obtain ⟨hplain, rfl⟩ := TableDescription.exec_alter_eq_some (answer_eq_some rfl hanswer)
    exact ⟨entries_widen u.db hentries, hfrom.widen ht hc hplain⟩
  · exact hu

/-- Reading the columns of a table changes nothing. -/
theorem createColumnsOf_mirrors (hu : Mirrors S env schema before s tables u) {t : TableDescription}
    (ht : t ∈ schema) :
    Ends (Mirrors S env schema before s tables) (fun x => Mirrors S env schema before s tables x.2)
      (createColumnsOf env u t.schemaTable) := by
  rw [createColumnsOf]
  refine Ends.bind (P := Mirrors S env schema before s tables) ?_ fun v hv => ?_
  · refine hu.request_ends _ fun hok => ?_
    refine ⟨hu.requests.trans (List.prefix_append ..), hu.schemaTables, fun tables' h => ?_⟩
    obtain ⟨middle, hentries, hfrom, hanswer⟩ := hu.replay_eq_some h
    rw [hok] at hanswer
    obtain rfl : middle = tables' := Option.some.inj hanswer
    exact ⟨hentries, hfrom⟩
  · refine Ends.foldlM_mem (fun w column hcolumn hw => ?_) hv
    obtain ⟨c, hc, rfl⟩ := List.mem_map.1 hcolumn
    exact createMissingColumn_mirrors hw ht hc v.db

/-- **A run and the server agree**, wherever it is cut off. -/
theorem createMissing_mirrors (hu : Mirrors S env schema before s tables u) :
    Ends (Mirrors S env schema before s tables) (fun x => Mirrors S env schema before s tables x.2)
      (u.createMissing env) := by
  have hmem : ∀ v : Updates, v.schema.tables = schema.map TableDescription.schemaTable →
      ∀ x ∈ v.schema.tables, ∃ t ∈ schema, t.schemaTable = x := by
    intro v hv x hx
    rw [hv] at hx
    exact List.mem_map.1 hx
  rw [createMissing]
  refine Ends.bind (P := Mirrors S env schema before s tables) ?_ fun v hv => ?_
  · refine Ends.foldlM_mem (fun w x hx hw => ?_) hu
    obtain ⟨t, ht, rfl⟩ := hmem u hu.schemaTables x hx
    exact createMissingTable_mirrors hw ht u.db
  · refine Ends.foldlM_mem (fun w x hx hw => ?_) hv
    obtain ⟨t, ht, rfl⟩ := hmem v hv.schemaTables x hx
    exact createColumnsOf_mirrors hw ht

end

/-- An attempt, and the server that has given the answers. -/
def attemptOn (S : TableServer) (x : Updates × Option (List StoredTable)) (env : UpdateEnv) :
    Updates × Option (List StoredTable) :=
  let u := x.1.attempt env
  (u, x.2.bind fun tables =>
    S.replay env x.1.requests.length tables (u.requests.drop x.1.requests.length))

/-- The names of an update are those of the tables of the server. -/
def Agrees (before : List StoredTable) (schema : List TableDescription)
    (x : Updates × Option (List StoredTable)) : Prop :=
  ∀ tables, x.2 = some tables → x.1.db.tables = tables.map StoredTable.entry ∧ ComesFrom before schema tables

/-- Every table of the schema is there with all its columns; those that were not there before
are as the schema describes them. -/
def Realises (before : List StoredTable) (schema : List TableDescription) (tables : List StoredTable) : Prop :=
  ∀ t ∈ schema, ∃ u ∈ tables, u.name = t.tableName.folded ∧
    ∀ c ∈ t.columns, ∃ d ∈ u.columns, d.name.folded = c.identifier.folded
      ∧ ((∃ u' ∈ before, u'.name = u.name ∧ d ∈ u'.columns) ∨ d.Describes c)

section
variable {S : TableServer} {schema : List TableDescription} {before tables : List StoredTable}
  {s : Updates}

theorem Agrees.attemptOn {x : Updates × Option (List StoredTable)} (hx : Agrees before schema x)
    (hschema : x.1.schema.tables = schema.map TableDescription.schemaTable) (env : UpdateEnv) :
    Agrees before schema (attemptOn S x env) := by
  obtain ⟨u, o⟩ := x
  intro tables' h
  obtain ⟨tables, rfl, hreplay⟩ := Option.bind_eq_some_iff.1 h
  obtain ⟨hentries, hfrom⟩ := hx tables rfl
  have hends : Mirrors S env schema before u tables (u.attempt env) := by
    have hrun : Ends (Mirrors S env schema before u tables)
        (fun x => Mirrors S env schema before u tables x.2) (u.createMissing env) :=
      createMissing_mirrors (Mirrors.refl hschema hentries hfrom)
    rw [attempt]
    cases hresult : u.createMissing env with
    | ok v =>
        rw [hresult] at hrun
        exact hrun
    | error x =>
        rw [hresult] at hrun
        exact hrun
  exact hends.agrees tables' hreplay

theorem fst_run_attemptOn (x : Updates × Option (List StoredTable)) (envs : List UpdateEnv) :
    (run (attemptOn S) x envs).1 = run attempt x.1 envs := by
  induction envs generalizing x with
  | nil => rfl
  | cons env envs ih => exact ih _

variable (hfold : ∀ s, CaseFolding.toLower (CaseFolding.toLower s) = CaseFolding.toLower s)
  (htables : s.schema.tables = schema.map TableDescription.schemaTable)
  (hdistinct : DistinctNames s.schema.tables) (hs : Folded s.db.tables)
include hfold htables hdistinct hs

theorem agrees_run (hentries : s.db.tables = before.map StoredTable.entry) (envs : List UpdateEnv) :
    Agrees before schema (run (attemptOn S) (s, some before) envs) := by
  have hstart : Agrees before schema (s, some before) := by
    rintro tables h
    obtain rfl := Option.some.inj h
    exact ⟨hentries, fun u hu d hd => .inl ⟨u, hu, rfl, hd⟩⟩
  have hstep : ∀ (x : Updates × Option (List StoredTable)) (env : UpdateEnv),
      Filling s x.1 ∧ Agrees before schema x →
        Filling s (attemptOn S x env).1 ∧ Agrees before schema (attemptOn S x env) := by
    intro x env hx
    have hschema := (congrArg Schema.tables hx.1.schema).trans htables
    exact ⟨filling_attempt hfold hdistinct env hx.1, hx.2.attemptOn hschema env⟩
  have hrun := run_invariant_of_forall hstep ⟨⟨rfl, hs, Grows.refl _ _⟩, hstart⟩ envs
  exact hrun.2

omit hfold hs in
/-- Of a schema, name and columns tell a description. -/
theorem definition_unique_of_distinct {t t' : TableDescription} (ht : t ∈ schema) (ht' : t' ∈ schema)
    (hname : t'.tableName.folded = t.tableName.folded) {c c' : TableColumn} (hc : c ∈ t.columns)
    (hc' : c' ∈ t'.columns) (hcolumn : c'.identifier.folded = c.identifier.folded) : c' = c := by
  have hnames := hdistinct.tableNames
  rw [htables, List.map_map] at hnames
  obtain rfl : t' = t := List.inj_on_of_nodup_map hnames ht' ht hname
  have hcolumns := hdistinct.columnNames t'.schemaTable
    (by rw [htables]; exact List.mem_map_of_mem ht')
  have hmap : t'.schemaTable.stored.2 = t'.columns.map fun c => c.identifier.folded := by
    show (t'.columns.map fun c => (c.sqlName, c.columnStatement)).map _ = _
    rw [List.map_map]
    rfl
  rw [hmap] at hcolumns
  exact List.inj_on_of_nodup_map hcolumns hc' hc hcolumn

/-- A complete run has left everything of the schema on the server. -/
theorem realises_of_ok {envs : List UpdateEnv} {env : UpdateEnv} {v : Updates}
    (hok : (run attempt s envs).createMissing env = .ok v)
    (hentries : v.db.tables = tables.map StoredTable.entry) (hfrom : ComesFrom before schema tables) :
    Realises before schema tables := by
  have hu := filling_run hfold hdistinct hs envs
  have hends := createMissing_ends hfold (hu.schema ▸ hdistinct) hu.folded env
  rw [hok] at hends
  have hall := hends.wanted_le
  rw [hu.schema, htables] at hall
  have hnames := hends.folded.names
  intro t ht
  have hwanted : t.schemaTable.stored ∈ (schema.map TableDescription.schemaTable).map SchemaTable.stored :=
    List.mem_map_of_mem (List.mem_map_of_mem ht)
  have hthere : t.tableName.folded ∈ v.db.tables.map Prod.fst := 
    hall.1 (List.mem_map.2 ⟨_, hwanted, rfl⟩)
  rw [hentries, List.map_map] at hthere
  obtain ⟨u, huMem, hname⟩ := List.mem_map.1 hthere
  refine ⟨u, huMem, hname, fun c hc => ?_⟩
  -- the columns of that name are those of this table
  obtain ⟨e, he, heName, hcolumn⟩ : ∃ e ∈ v.db.tables, e.1 = t.tableName.folded
      ∧ c.identifier.folded ∈ e.2 := by
    have hstored : c.identifier.folded ∈ t.schemaTable.stored.2 := by
      show _ ∈ (t.columns.map fun c => (c.sqlName, c.columnStatement)).map _
      rw [List.map_map]
      exact List.mem_map_of_mem hc
    exact hall.2 (show (t.tableName.folded, c.identifier.folded) ∈ (contentsOf _).2 from
      ⟨_, hwanted, rfl, hstored⟩)
  have hentry : u.entry ∈ v.db.tables := by
    rw [hentries]
    exact List.mem_map_of_mem huMem
  obtain rfl := eq_of_fst_eq hnames hentry he (hname.trans heName.symm)
  obtain ⟨d, hd, hdName⟩ := List.mem_map.1 hcolumn
  refine ⟨d, hd, hdName, ?_⟩
  rcases hfrom u huMem d hd with hbefore | ⟨t', ht', htName, c', hc', hplain, rfl⟩
  · exact .inl hbefore
  · obtain rfl := definition_unique_of_distinct htables hdistinct ht ht' (htName.trans hname) hc hc' hdName
    refine .inr (TableColumn.definition_describes fun huse => ?_)
    rw [TableColumn.isPlain, huse] at hplain
    exact CppType.isLiteral_iff.1 hplain

end

/-- **An update and the server of its statements.**  In any number of attempts, cut off
wherever the server refuses a statement or a request fails for any other reason, the names
that an update goes by are those of the tables of the server, and the server has got no columns
but those of the schema.  Left out are only the runs in which a request succeeds that the
server does not admit (`hanswers`).  When an attempt comes to its end, every table of the schema is there
with all its columns, and the new ones are as the schema describes them. -/
theorem migration_run (S : TableServer)
    (hfold : ∀ s, CaseFolding.toLower (CaseFolding.toLower s) = CaseFolding.toLower s)
    {schema : List TableDescription} {before tables : List StoredTable} {s : Updates}
    (htables : s.schema.tables = schema.map TableDescription.schemaTable)
    (hdistinct : DistinctNames s.schema.tables) (hs : Folded s.db.tables)
    (hentries : s.db.tables = before.map StoredTable.entry) (envs : List UpdateEnv) (env : UpdateEnv)
    (hanswers : (run (attemptOn S) (s, some before) (envs ++ [env])).2 = some tables) :
    (run attempt s (envs ++ [env])).db.tables = tables.map StoredTable.entry
      ∧ ComesFrom before schema tables
      ∧ ∀ v, (run attempt s envs).createMissing env = .ok v → Realises before schema tables := by
  have hagrees := agrees_run hfold htables hdistinct hs hentries (envs ++ [env]) tables hanswers
  rw [fst_run_attemptOn] at hagrees
  refine ⟨hagrees.1, hagrees.2, fun v hok => ?_⟩
  have hlast : run attempt s (envs ++ [env]) = v := by
    rw [run, List.foldl_append]
    show attempt (run attempt s envs) env = v
    rw [attempt, hok]
  have hentries' := hagrees.1
  rw [hlast] at hentries'
  exact realises_of_ok hfold htables hdistinct hs hok hentries' hagrees.2

end Updates

end

namespace Updates

open Runs

/-- A column without a reference. -/
def plainColumn (name : Identifier) (type : CppType) (properties : Nat) : TableColumn where
  sqlName := name.text
  properties := properties
  isName := name.isName
  type := type
  size := -1
  admitsSize := by cases type <;> rfl
  referencedColumn := none
  foreignKey_size := nofun
  foreignKey_onDelete := nofun

def existingBefore : TableDescription where
  tableName := ⟨latin1 "Existing", rfl⟩
  columns := [plainColumn ⟨latin1 "Id", rfl⟩ .int ColumnProperties.primaryKey]
  columns_ne := List.cons_ne_nil _ _
  constraints := []

/-- The new schema: a column more, and a table that refers to the old one. -/
def migrated : List TableDescription :=
  [{ existingBefore with
      columns := existingBefore.columns ++ [plainColumn ⟨latin1 "Column2", rfl⟩ .int ColumnProperties.default]
      columns_ne := List.cons_ne_nil _ _ },
    { tableName := ⟨latin1 "New", rfl⟩
      columns := [{ plainColumn ⟨latin1 "Column1", rfl⟩ .int ColumnProperties.notNull with
        referencedColumn := some ⟨⟨latin1 "existing", rfl⟩, ⟨latin1 "id", rfl⟩⟩
        foreignKey_size := fun _ => rfl
        foreignKey_onDelete := fun _ h => nomatch h.1 }]
      columns_ne := List.cons_ne_nil _ _
      constraints := [] }]

/-- The connection is lost when the columns of the first table are read. -/
def lostConnection : UpdateEnv := ⟨true, fun n => if n = 1 then some (latin1 "lost") else none⟩

def nothingFails : UpdateEnv := ⟨true, fun _ => none⟩

def beforeMigration : Updates :=
  starting 1 [(latin1 "existing", [latin1 "id"])] ⟨fun _ _ => none, true⟩
    ⟨migrated.map TableDescription.schemaTable, []⟩ 2

/-- The first attempt has created the new table, and the second one adds the column. -/
theorem migration_run_lostConnection :
    let _ : CaseFolding := .ascii
    ∃ tables, (run (attemptOn ⟨fun _ _ => true⟩) (beforeMigration, some [existingBefore.stored])
        [lostConnection, nothingFails]).2 = some tables
      ∧ (run attempt beforeMigration [lostConnection, nothingFails]).db.tables = tables.map StoredTable.entry
      ∧ Realises [existingBefore.stored] migrated tables := by
  intro folding
  have hdistinct : DistinctNames beforeMigration.schema.tables := ⟨by decide, by decide⟩
  have hfolded : Folded beforeMigration.db.tables := ⟨by decide, by decide, by decide, by decide⟩
  have hanswers : (run (attemptOn ⟨fun _ _ => true⟩) (beforeMigration, some [existingBefore.stored])
      [lostConnection, nothingFails]).2.isSome = true := by decide +kernel
  obtain ⟨tables, htables⟩ := Option.isSome_iff_exists.1 hanswers
  have hbefore : beforeMigration.db.tables = [existingBefore.stored].map StoredTable.entry := rfl
  have hschema : beforeMigration.schema.tables = migrated.map TableDescription.schemaTable := rfl
  obtain ⟨hentries, -, hrealises⟩ := migration_run ⟨fun _ _ => true⟩ CaseFolding.ascii_toLower_toLower
    hschema hdistinct hfolded hbefore [lostConnection] nothingFails htables
  have henv : Reliable nothingFails := fun _ => rfl
  obtain ⟨v, hv⟩ := exists_ok CaseFolding.ascii_toLower_toLower hdistinct henv
    (filling_run CaseFolding.ascii_toLower_toLower hdistinct hfolded [lostConnection])
  exact ⟨tables, htables, hentries, hrealises v hv⟩

end Updates

end Sqlate
