/-
Sqlate/MissingTables.lean

Creating what is missing.

The contents of a database are the names of its tables and of the columns in
them.  `createMissingTables` and `createMissingColumns` look up what there is
and add the rest, so that a run, wherever it is cut off, leaves something
between the contents before and these together with the schema (`Grows`), and a
complete run leaves all of it (`createMissing_ends`).  A later run therefore
comes to the same contents (`createMissing_converges`).

Both sides of a comparison are folded to lower case, and the server has folded
names once already.  That folding twice is folding once is all that is taken
for granted of it.
-/
import Mathlib.Data.Set.Lattice
import Mathlib.Order.ConditionallyCompleteLattice.Indexed
import Sqlate.Base.Runs
import Sqlate.UpdateProgress

namespace Sqlate

open Runs

/-! ### Contents -/

/-- The names of tables, and of tables with a column. -/
abbrev Contents := Set QString × Set (QString × QString)

/-- The contents of a list of tables with their columns. -/
def contentsOf (es : List (QString × List QString)) : Contents :=
  ({n | n ∈ es.map Prod.fst}, {p | ∃ e ∈ es, e.1 = p.1 ∧ p.2 ∈ e.2})

theorem contentsOf_append (es fs : List (QString × List QString)) :
    contentsOf (es ++ fs) = contentsOf es ⊔ contentsOf fs := by
  apply Prod.ext
  · ext n
    show n ∈ (es ++ fs).map Prod.fst ↔ n ∈ es.map Prod.fst ∨ n ∈ fs.map Prod.fst
    rw [List.map_append, List.mem_append]
  · ext p
    show (∃ e ∈ es ++ fs, _) ↔ (∃ e ∈ es, _) ∨ ∃ e ∈ fs, _
    simp only [List.mem_append, or_and_right, exists_or]

theorem contentsOf_mono {es fs : List (QString × List QString)} (h : es ⊆ fs) :
    contentsOf es ≤ contentsOf fs := by
  constructor
  · intro n hn
    obtain ⟨e, he, rfl⟩ := List.mem_map.1 hn
    exact List.mem_map_of_mem (h he)
  · rintro p ⟨e, he, hp⟩
    exact ⟨e, h he, hp⟩

def Database.contents (db : Database) : Contents := contentsOf db.tables

/-- The table of a name. -/
theorem eq_of_fst_eq {es : List (QString × List QString)} (hnames : (es.map Prod.fst).Nodup)
    {e e' : QString × List QString} (he : e ∈ es) (he' : e' ∈ es) (h : e.1 = e'.1) : e = e' :=
  List.inj_on_of_nodup_map hnames he he' h

section
variable [CaseFolding]

namespace SchemaTable

/-- The table as the server stores it. -/
def stored (t : SchemaTable) : QString × List QString :=
  (CaseFolding.toLower t.tableName, t.columns.map fun c => CaseFolding.toLower c.1)

end SchemaTable

/-- Names of tables, and of columns within a table, are different ignoring case. -/
structure DistinctNames (tables : List SchemaTable) : Prop where
  tableNames : (tables.map fun t => t.stored.1).Nodup
  columnNames : ∀ t ∈ tables, t.stored.2.Nodup

/-- Different names, all folded to lower case. -/
structure Folded (es : List (QString × List QString)) : Prop where
  names : (es.map Prod.fst).Nodup
  columns : ∀ e ∈ es, e.2.Nodup
  tableNames : ∀ e ∈ es, CaseFolding.toLower e.1 = e.1
  columnNames : ∀ e ∈ es, ∀ c ∈ e.2, CaseFolding.toLower c = c

/-- The contents of a schema. -/
def wanted (tables : List SchemaTable) : Contents := contentsOf (tables.map SchemaTable.stored)

/-! ### What is missing -/

section
variable {db : Database} {t : SchemaTable}

theorem lacksTable_eq_false_iff (h : Folded db.tables) :
    db.lacksTable t = false ↔ t.stored.1 ∈ db.contents.1 := by
  have hfolded : (db.tables.map fun e => CaseFolding.toLower e.1) = db.tables.map Prod.fst :=
    List.map_congr_left h.tableNames
  rw [Database.lacksTable, hfolded, Bool.not_eq_false', List.contains_iff_mem]
  rfl

/-- The columns of a table that is there. -/
theorem columnsOfTable_of_mem (h : Folded db.tables) {e : QString × List QString}
    (he : e ∈ db.tables) (hname : e.1 = t.stored.1) : db.columnsOfTable t = e.2 := by
  rw [Database.columnsOfTable]
  cases hfind : db.tables.find? fun e => e.1 = CaseFolding.toLower t.tableName with
  | none =>
      rw [List.find?_eq_none] at hfind
      exact absurd (decide_eq_true hname) (hfind e he)
  | some e' =>
      have hfound := List.find?_some hfind
      have hname' : e'.1 = t.stored.1 := of_decide_eq_true hfound
      rw [eq_of_fst_eq h.names he (List.mem_of_find?_eq_some hfind) (hname.trans hname'.symm)]
      rfl

theorem columnsOfTable_of_not_mem (h : t.stored.1 ∉ db.contents.1) : db.columnsOfTable t = [] := by
  rw [Database.columnsOfTable, List.find?_eq_none.2]
  · rfl
  · intro e he hname
    have hname : e.1 = t.stored.1 := of_decide_eq_true hname
    exact h (hname ▸ List.mem_map_of_mem he)

theorem lacksColumn_eq_false_iff (h : Folded db.tables) {column : QString × QString} :
    db.lacksColumn t column = false ↔ (t.stored.1, CaseFolding.toLower column.1) ∈ db.contents.2 := by
  rw [Database.lacksColumn, Bool.not_eq_false', List.any_eq_true]
  by_cases htable : t.stored.1 ∈ db.contents.1
  · obtain ⟨e, he, hname⟩ := List.mem_map.1 htable
    rw [columnsOfTable_of_mem h he hname]
    constructor
    · rintro ⟨c, hc, hfolded⟩
      rw [decide_eq_true_eq, h.columnNames e he c hc] at hfolded
      exact ⟨e, he, hname, hfolded ▸ hc⟩
    · rintro ⟨e', he', hname', hc⟩
      obtain rfl := eq_of_fst_eq h.names he' he (hname'.trans hname.symm)
      exact ⟨_, hc, by rw [decide_eq_true_eq, h.columnNames _ he _ hc]⟩
  · rw [columnsOfTable_of_not_mem htable]
    constructor
    · rintro ⟨c, hc, -⟩
      cases hc
    · rintro ⟨e, he, hname, -⟩
      exact absurd (hname ▸ List.mem_map_of_mem he) htable

end

/-! ### What the server does -/

section
variable {db : Database} {t : SchemaTable}

theorem contents_createTable (db : Database) (t : SchemaTable) :
    (db.createTable t).contents = db.contents ⊔ contentsOf [t.stored] :=
  contentsOf_append db.tables [t.stored]

theorem folded_createTable (hfold : ∀ s, CaseFolding.toLower (CaseFolding.toLower s) = CaseFolding.toLower s)
    (h : Folded db.tables) (hnew : t.stored.1 ∉ db.contents.1) (hcolumns : t.stored.2.Nodup) :
    Folded (db.createTable t).tables := by
  have hmem : ∀ e ∈ (db.createTable t).tables, e ∈ db.tables ∨ e = t.stored := by
    intro e he
    simpa [Database.createTable, SchemaTable.stored] using he
  constructor
  · show ((db.tables ++ [t.stored]).map Prod.fst).Nodup
    rw [List.map_append, List.nodup_append]
    refine ⟨h.names, List.nodup_singleton _, ?_⟩
    rintro n hn m hm rfl
    rw [List.mem_singleton.1 hm] at hn
    exact hnew hn
  · intro e he
    rcases hmem e he with he | rfl
    · exact h.columns e he
    · exact hcolumns
  · intro e he
    rcases hmem e he with he | rfl
    · exact h.tableNames e he
    · exact hfold _
  · intro e he
    rcases hmem e he with he | rfl
    · exact h.columnNames e he
    · show ∀ c ∈ t.columns.map fun c => CaseFolding.toLower c.1, CaseFolding.toLower c = c
      rw [List.forall_mem_map]
      exact fun _ _ => hfold _

/-- What becomes of a table when a column is added to another, or to it. -/
def withColumn (t : SchemaTable) (column : QString) (e : QString × List QString) : QString × List QString :=
  if e.1 = t.stored.1 then (e.1, e.2 ++ [column]) else e

theorem tables_addColumn (column : QString × QString) :
    (db.addColumn t column).tables = db.tables.map (withColumn t (CaseFolding.toLower column.1)) := rfl

theorem fst_withColumn (column : QString) (e : QString × List QString) :
    (withColumn t column e).1 = e.1 := by
  rw [withColumn]
  split <;> rfl

theorem map_fst_addColumn (column : QString × QString) :
    (db.addColumn t column).tables.map Prod.fst = db.tables.map Prod.fst := by
  rw [tables_addColumn, List.map_map]
  exact List.map_congr_left fun e _ => fst_withColumn _ e

theorem mem_contents_addColumn (column : QString × QString) (htable : t.stored.1 ∈ db.contents.1)
    (p : QString × QString) :
    p ∈ (db.addColumn t column).contents.2 ↔
      p ∈ db.contents.2 ∨ p = (t.stored.1, CaseFolding.toLower column.1) := by
  have hmem : ∀ e, p.2 ∈ (withColumn t (CaseFolding.toLower column.1) e).2 ↔
      p.2 ∈ e.2 ∨ e.1 = t.stored.1 ∧ p.2 = CaseFolding.toLower column.1 := by
    intro e
    rw [withColumn]
    split
    · next h => simp [h]
    · next h => simp [h]
  show (∃ e ∈ db.tables.map (withColumn t (CaseFolding.toLower column.1)), e.1 = p.1 ∧ p.2 ∈ e.2) ↔
    (∃ e ∈ db.tables, e.1 = p.1 ∧ p.2 ∈ e.2) ∨ _
  simp only [List.mem_map, exists_exists_and_eq_and, fst_withColumn, hmem]
  constructor
  · rintro ⟨e, he, hname, hp | ⟨hname', hp⟩⟩
    · exact .inl ⟨e, he, hname, hp⟩
    · exact .inr (Prod.ext (hname.symm.trans hname') hp)
  · rintro (⟨e, he, hname, hp⟩ | rfl)
    · exact ⟨e, he, hname, .inl hp⟩
    · obtain ⟨e, he, hname⟩ := List.mem_map.1 htable
      exact ⟨e, he, hname, .inr ⟨hname, rfl⟩⟩

theorem folded_addColumn (hfold : ∀ s, CaseFolding.toLower (CaseFolding.toLower s) = CaseFolding.toLower s)
    (h : Folded db.tables) {column : QString × QString}
    (hnew : (t.stored.1, CaseFolding.toLower column.1) ∉ db.contents.2) :
    Folded (db.addColumn t column).tables := by
  constructor
  · rw [map_fst_addColumn]
    exact h.names
  all_goals
    rw [tables_addColumn, List.forall_mem_map]
    intro e he
    rw [withColumn]
    split
  · next hname =>
      rw [List.nodup_append]
      refine ⟨h.columns e he, List.nodup_singleton _, ?_⟩
      rintro c hc d hd rfl
      rw [List.mem_singleton.1 hd] at hc
      exact hnew ⟨e, he, hname, hc⟩
  · exact h.columns e he
  · exact h.tableNames e he
  · exact h.tableNames e he
  · intro c hc
    rcases List.mem_append.1 hc with hc | hc
    · exact h.columnNames e he c hc
    · rw [List.mem_singleton.1 hc]
      exact hfold _
  · exact h.columnNames e he

/-! ### Growing -/

/-- Nothing is lost, and nothing is added but what is wanted. -/
structure Grows (tables : List SchemaTable) (db db' : Database) : Prop where
  keeps : ∀ e ∈ db.tables, ∃ e' ∈ db'.tables, e'.1 = e.1 ∧ e.2 <+: e'.2
  within : db'.contents ≤ db.contents ⊔ wanted tables

variable {tables : List SchemaTable}

theorem Grows.refl (tables : List SchemaTable) (db : Database) : Grows tables db db where
  keeps e he := ⟨e, he, rfl, List.prefix_rfl⟩
  within := le_sup_left

theorem Grows.trans {db db' db'' : Database} (h : Grows tables db db') (h' : Grows tables db' db'') :
    Grows tables db db'' where
  keeps e he := by
    obtain ⟨e', he', hname, hcolumns⟩ := h.keeps e he
    obtain ⟨e'', he'', hname', hcolumns'⟩ := h'.keeps e' he'
    exact ⟨e'', he'', hname'.trans hname, hcolumns.trans hcolumns'⟩
  within := h'.within.trans (sup_le h.within le_sup_right)

theorem Grows.le {db db' : Database} (h : Grows tables db db') : db.contents ≤ db'.contents := by
  constructor
  · intro n hn
    obtain ⟨e, he, rfl⟩ := List.mem_map.1 hn
    obtain ⟨e', he', hname, -⟩ := h.keeps e he
    rw [← hname]
    exact List.mem_map_of_mem he'
  · rintro p ⟨e, he, hname, hp⟩
    obtain ⟨e', he', hname', hcolumns⟩ := h.keeps e he
    exact ⟨e', he', hname'.trans hname, hcolumns.subset hp⟩

/-- Between a database and what it has to become, everything becomes the same. -/
theorem Grows.sup_eq {db db' : Database} (h : Grows tables db db') :
    db'.contents ⊔ wanted tables = db.contents ⊔ wanted tables :=
  le_antisymm (sup_le h.within le_sup_right) (sup_le_sup_right h.le _)

theorem grows_createTable (db : Database) (ht : t ∈ tables) : Grows tables db (db.createTable t) where
  keeps e he := ⟨e, List.mem_append_left _ he, rfl, List.prefix_rfl⟩
  within := by
    rw [contents_createTable]
    apply sup_le_sup_left
    apply contentsOf_mono
    exact List.cons_subset.2 ⟨List.mem_map_of_mem ht, List.nil_subset _⟩

theorem grows_addColumn (ht : t ∈ tables) {column : QString × QString} (hcolumn : column ∈ t.columns)
    (htable : t.stored.1 ∈ db.contents.1) : Grows tables db (db.addColumn t column) where
  keeps e he := by
    refine ⟨_, List.mem_map_of_mem he, fst_withColumn _ e, ?_⟩
    show e.2 <+: (withColumn t (CaseFolding.toLower column.1) e).2
    rw [withColumn]
    split
    · exact List.prefix_append _ _
    · exact List.prefix_rfl
  within := by
    constructor
    · intro n hn
      have hn : n ∈ (db.addColumn t column).tables.map Prod.fst := hn
      rw [map_fst_addColumn] at hn
      exact .inl hn
    · intro p hp
      rcases (mem_contents_addColumn column htable p).1 hp with hp | rfl
      · exact .inl hp
      · exact .inr ⟨t.stored, List.mem_map_of_mem ht, rfl, List.mem_map_of_mem hcolumn⟩

end

/-! ### Runs -/

namespace Updates

/-- `createMissingTables`, followed by `createMissingColumns`. -/
def createMissing (env : UpdateEnv) (s : Updates) : Thrown := do
  let s ← s.createMissingTables env
  s.createMissingColumns env

/-! ### Side by side

The source has the names in one list and the statements in another, both made from the same
tables or columns. -/

/-- One round over a name and the statement of a table. -/
def createUnlessThere (env : UpdateEnv) (existingTables : List QString) (s : Updates) (name : QString)
    (t : SchemaTable) : Thrown :=
  if existingTables.contains name then return s
  else do
    let s ← s.request env (.createTable t.createTableStatement)
    return s.commitTo (s.db.createTable t)

theorem createMissingTables_eq_walk (env : UpdateEnv) (s : Updates) :
    s.createMissingTables env =
      walk (createUnlessThere env (s.db.tables.map fun e => CaseFolding.toLower e.1)) s
        (s.schema.tables.map fun t => CaseFolding.toLower t.tableName) (s.schema.tables.map id) := by
  rw [walk_map, createMissingTables]
  congr 1
  funext u t
  rw [createMissingTable, createUnlessThere, Database.lacksTable]
  cases (s.db.tables.map fun e => CaseFolding.toLower e.1).contains (CaseFolding.toLower t.tableName)
  · rfl
  · rfl

/-- One round over a name and the statement of a column. -/
def addUnlessThere (env : UpdateEnv) (existingColumns : List QString) (t : SchemaTable) (s : Updates)
    (name : QString) (column : QString × QString) : Thrown :=
  if existingColumns.any fun existing => CaseFolding.toLower existing = CaseFolding.toLower name then return s
  else do
    let s ← s.request env (.addColumn (t.alterStatement column))
    return s.commitTo (s.db.addColumn t column)

theorem createColumnsOf_eq_walk (env : UpdateEnv) (s : Updates) (t : SchemaTable) :
    createColumnsOf env s t = (do
      let s ← s.request env (.readColumns t.tableName)
      walk (addUnlessThere env (s.db.columnsOfTable t) t) s (t.columns.map Prod.fst) (t.columns.map id)) := by
  rw [createColumnsOf]
  congr 1
  funext u
  rw [walk_map]
  congr 1
  funext v c
  rw [createMissingColumn, addUnlessThere, Database.lacksColumn]
  cases (u.db.columnsOfTable t).any fun existing =>
    decide (CaseFolding.toLower existing = CaseFolding.toLower c.1)
  · rfl
  · rfl

/-! ### On the way -/

/-- A state on the way from `s`. -/
structure Filling (s u : Updates) : Prop where
  schema : u.schema = s.schema
  folded : Folded u.db.tables
  grows : Grows s.schema.tables s.db u.db

/-- A call that is cut off: a request has failed. -/
def CutOff (env : UpdateEnv) (s : Updates) (x : QString × Updates) : Prop :=
  Filling s x.2 ∧ ∃ n, (env.fails n).isSome

section
variable {env : UpdateEnv} {s u : Updates} {t : SchemaTable}

theorem request_filling (hu : Filling s u) (r : UpdateRequest) :
    Ends (fun v => v.db = u.db ∧ v.schema = u.schema) (CutOff env s) (u.request env r) := by
  rw [request]
  cases hfails : env.fails u.requests.length with
  | none => exact ⟨rfl, rfl⟩
  | some text => exact ⟨⟨hu.schema, hu.folded, hu.grows⟩, _, by rw [hfails]; rfl⟩

theorem createMissingTable_ends
    (hfold : ∀ s, CaseFolding.toLower (CaseFolding.toLower s) = CaseFolding.toLower s)
    (hschema : DistinctNames s.schema.tables) (hs : Folded s.db.tables) (ht : t ∈ s.schema.tables)
    (hu : Filling s u) (hbefore : t.stored.1 ∈ u.db.contents.1 ↔ t.stored.1 ∈ s.db.contents.1) :
    Ends (fun v => Filling s v ∧ ∀ n, n ∈ v.db.contents.1 ↔ n ∈ u.db.contents.1 ∨ n = t.stored.1)
      (CutOff env s) (createMissingTable env s.db u t) := by
  rw [createMissingTable]
  cases hlacks : s.db.lacksTable t with
  | false =>
      have hthere := (lacksTable_eq_false_iff hs).1 hlacks
      refine ⟨hu, fun n => ⟨.inl, ?_⟩⟩
      rintro (hn | rfl)
      · exact hn
      · exact hbefore.2 hthere
  | true =>
      have hnew : t.stored.1 ∉ u.db.contents.1 := by
        intro hthere
        rw [(lacksTable_eq_false_iff hs).2 (hbefore.1 hthere)] at hlacks
        cases hlacks
      refine (request_filling hu _).bind ?_
      rintro v ⟨hdb, hvschema⟩
      have hcreated : (v.commitTo (v.db.createTable t)).db = u.db.createTable t := by rw [← hdb]; rfl
      refine ⟨⟨hvschema.trans hu.schema, ?_, ?_⟩, ?_⟩
      · rw [hcreated]
        exact folded_createTable hfold hu.folded hnew (hschema.columnNames t ht)
      · rw [hcreated]
        exact hu.grows.trans (grows_createTable u.db ht)
      · intro n
        rw [hcreated, contents_createTable]
        show n ∈ u.db.contents.1 ∨ n ∈ [t.stored].map Prod.fst ↔ _
        rw [List.map_singleton, List.mem_singleton]

/-- On the way, with all tables. -/
structure WithTables (s u : Updates) : Prop extends Filling s u where
  tables : (wanted s.schema.tables).1 ≤ u.db.contents.1

theorem WithTables.mem (hu : WithTables s u) (ht : t ∈ s.schema.tables) : t.stored.1 ∈ u.db.contents.1 :=
  hu.tables (List.mem_map_of_mem (List.mem_map_of_mem ht))

theorem createMissingTables_fill
    (hfold : ∀ s, CaseFolding.toLower (CaseFolding.toLower s) = CaseFolding.toLower s)
    (hschema : DistinctNames s.schema.tables) (hs : Folded s.db.tables) :
    Ends (WithTables s) (CutOff env s) (s.createMissingTables env) := by
  have hfill := @Ends.foldlM_fill _ _ _ (createMissingTable env s.db) _ (fun t => t.stored.1)
    (fun v n => n ∈ v.db.contents.1) (Filling s) (CutOff env s) s s.schema.tables
    (fun u t ht hu hbefore => createMissingTable_ends hfold hschema hs ht hu hbefore)
    hschema.tableNames ⟨rfl, hs, Grows.refl _ _⟩
  refine hfill.imp (fun v hv => ⟨hv.1, ?_⟩) fun _ hx => hx
  intro n hn
  have hn : n ∈ (s.schema.tables.map SchemaTable.stored).map Prod.fst := hn
  rw [List.map_map] at hn
  exact (hv.2 n).2 (.inr hn)

theorem createMissingColumn_ends
    (hfold : ∀ s, CaseFolding.toLower (CaseFolding.toLower s) = CaseFolding.toLower s)
    (ht : t ∈ s.schema.tables) {w : Updates} (hw : Folded w.db.tables) {column : QString × QString}
    (hcolumn : column ∈ t.columns) (hu : WithTables s u)
    (hbefore : (t.stored.1, CaseFolding.toLower column.1) ∈ u.db.contents.2 ↔
      (t.stored.1, CaseFolding.toLower column.1) ∈ w.db.contents.2) :
    Ends (fun v => WithTables s v ∧
        ∀ p, p ∈ v.db.contents.2 ↔ p ∈ u.db.contents.2 ∨ p = (t.stored.1, CaseFolding.toLower column.1))
      (CutOff env s) (createMissingColumn env w.db t u column) := by
  rw [createMissingColumn]
  cases hlacks : w.db.lacksColumn t column with
  | false =>
      have hthere := (lacksColumn_eq_false_iff hw).1 hlacks
      refine ⟨hu, fun p => ⟨.inl, ?_⟩⟩
      rintro (hp | rfl)
      · exact hp
      · exact hbefore.2 hthere
  | true =>
      have hnew : (t.stored.1, CaseFolding.toLower column.1) ∉ u.db.contents.2 := by
        intro hthere
        rw [(lacksColumn_eq_false_iff hw).2 (hbefore.1 hthere)] at hlacks
        cases hlacks
      refine (request_filling hu.toFilling _).bind ?_
      rintro v ⟨hdb, hvschema⟩
      have hadded : (v.commitTo (v.db.addColumn t column)).db = u.db.addColumn t column := by
        rw [← hdb]; rfl
      refine ⟨⟨⟨hvschema.trans hu.schema, ?_, ?_⟩, ?_⟩, ?_⟩
      · rw [hadded]
        exact folded_addColumn hfold hu.folded hnew
      · rw [hadded]
        exact hu.grows.trans (grows_addColumn ht hcolumn (hu.mem ht))
      · intro n hn
        rw [hadded]
        show n ∈ (u.db.addColumn t column).tables.map Prod.fst
        rw [map_fst_addColumn]
        exact hu.tables hn
      · rw [hadded]
        exact mem_contents_addColumn column (hu.mem ht)

theorem createColumnsOf_ends
    (hfold : ∀ s, CaseFolding.toLower (CaseFolding.toLower s) = CaseFolding.toLower s)
    (hschema : DistinctNames s.schema.tables) (ht : t ∈ s.schema.tables) (hu : WithTables s u) :
    Ends (fun v => WithTables s v ∧
        ∀ p, p ∈ v.db.contents.2 ↔ p ∈ u.db.contents.2 ∨ p.1 = t.stored.1 ∧ p.2 ∈ t.stored.2)
      (CutOff env s) (createColumnsOf env u t) := by
  rw [createColumnsOf]
  refine (request_filling hu.toFilling _).bind ?_
  rintro w ⟨hdb, hwschema⟩
  have hw : WithTables s w := by
    refine ⟨⟨hwschema.trans hu.schema, ?_, ?_⟩, ?_⟩
    · rw [hdb]; exact hu.folded
    · rw [hdb]; exact hu.grows
    · rw [hdb]; exact hu.tables
  have hkeys : (t.columns.map fun c => (t.stored.1, CaseFolding.toLower c.1)).Nodup := by
    have hcolumns := (hschema.columnNames t ht).map (Prod.mk_right_injective t.stored.1)
    rwa [SchemaTable.stored, List.map_map] at hcolumns
  have hfill := @Ends.foldlM_fill _ _ _ (createMissingColumn env w.db t) _
    (fun c => (t.stored.1, CaseFolding.toLower c.1)) (fun v p => p ∈ v.db.contents.2)
    (WithTables s) (CutOff env s) w t.columns
    (fun v c hc hv hbefore => createMissingColumn_ends hfold ht hw.folded hc hv hbefore) hkeys hw
  refine hfill.imp (fun v hv => ⟨hv.1, fun p => ?_⟩) fun _ hx => hx
  rw [hv.2, hdb]
  refine or_congr_right ?_
  rw [SchemaTable.stored, List.mem_map, List.mem_map]
  constructor
  · rintro ⟨c, hc, rfl⟩
    exact ⟨rfl, c, hc, rfl⟩
  · rintro ⟨hname, c, hc, hfolded⟩
    exact ⟨c, hc, Prod.ext hname.symm hfolded⟩

/-- On the way, with the columns of all tables but some. -/
structure WithColumns (s : Updates) (todo : List SchemaTable) (u : Updates) : Prop extends WithTables s u where
  ahead : todo ⊆ s.schema.tables
  columns : ∀ t ∈ s.schema.tables, t ∉ todo → ∀ c ∈ t.stored.2, (t.stored.1, c) ∈ u.db.contents.2

theorem WithColumns.wanted_le (hu : WithColumns s [] u) : wanted s.schema.tables ≤ u.db.contents := by
  refine ⟨hu.tables, ?_⟩
  rintro ⟨n, c⟩ ⟨e, he, rfl, hc⟩
  obtain ⟨t, ht, rfl⟩ := List.mem_map.1 he
  exact hu.columns t ht List.not_mem_nil c hc

theorem createMissingColumns_fill
    (hfold : ∀ s, CaseFolding.toLower (CaseFolding.toLower s) = CaseFolding.toLower s)
    (hschema : DistinctNames s.schema.tables) (hu : WithTables s u) :
    Ends (WithColumns s []) (CutOff env s) (u.createMissingColumns env) := by
  have hall : WithColumns s s.schema.tables u :=
    ⟨hu, List.Subset.refl _, fun t ht hnot => absurd ht hnot⟩
  rw [createMissingColumns, hu.schema]
  refine Ends.foldlM ?_ hall
  intro t todo v hv
  have ht : t ∈ s.schema.tables := hv.ahead List.mem_cons_self
  refine (createColumnsOf_ends hfold hschema ht hv.toWithTables).imp ?_ fun _ hx => hx
  rintro w ⟨hw, hadded⟩
  refine ⟨hw, fun x hx => hv.ahead (List.mem_cons_of_mem _ hx), ?_⟩
  intro t' ht' hnot c hc
  rw [hadded]
  by_cases heq : t' = t
  · exact .inr ⟨by rw [heq], by rwa [heq] at hc⟩
  · exact .inl (hv.columns t' ht' (List.not_mem_cons_of_ne_of_not_mem heq hnot) c hc)

/-- A run ends with everything, or is cut off on the way. -/
theorem createMissing_ends
    (hfold : ∀ s, CaseFolding.toLower (CaseFolding.toLower s) = CaseFolding.toLower s)
    (hschema : DistinctNames s.schema.tables) (hs : Folded s.db.tables) (env : UpdateEnv) :
    Ends (WithColumns s []) (CutOff env s) (s.createMissing env) :=
  (createMissingTables_fill hfold hschema hs).bind fun _ hu => createMissingColumns_fill hfold hschema hu

/-! ### Runs that find everything -/

/-- Nothing fails. -/
def Reliable (env : UpdateEnv) : Prop := ∀ n, env.fails n = none

omit [CaseFolding] in
theorem request_of_reliable (henv : Reliable env) (r : UpdateRequest) (s : Updates) :
    s.request env r = .ok { s with requests := s.requests ++ [r] } := by
  rw [request, henv]

theorem createMissingTables_of_wanted (hu : Folded u.db.tables)
    (hall : wanted u.schema.tables ≤ u.db.contents) : u.createMissingTables env = .ok u := by
  have hstep : ∀ v, ∀ t ∈ u.schema.tables, v = u →
      ∃ w, createMissingTable env u.db v t = .ok w ∧ w = u := by
    rintro v t ht rfl
    refine ⟨v, ?_, rfl⟩
    have hthere : t.stored.1 ∈ v.db.contents.1 :=
      hall.1 (List.mem_map_of_mem (List.mem_map_of_mem ht))
    rw [createMissingTable, (lacksTable_eq_false_iff hu).2 hthere]
    rfl
  obtain ⟨v, hv, rfl⟩ := foldlM_eq_ok hstep rfl
  exact hv

/-- The columns of a table have been read. -/
def afterReading (u : Updates) (tables : List SchemaTable) : Updates :=
  { u with requests := u.requests ++ tables.map fun t => .readColumns t.tableName }

theorem createColumnsOf_of_wanted (henv : Reliable env) (hu : Folded u.db.tables)
    (hall : ∀ c ∈ t.stored.2, (t.stored.1, c) ∈ u.db.contents.2) :
    createColumnsOf env u t = .ok (u.afterReading [t]) := by
  rw [createColumnsOf, request_of_reliable henv]
  have hstep : ∀ v, ∀ c ∈ t.columns, v = u.afterReading [t] →
      ∃ w, createMissingColumn env u.db t v c = .ok w ∧ w = u.afterReading [t] := by
    rintro v c hc rfl
    refine ⟨_, ?_, rfl⟩
    have hthere := hall _ (List.mem_map_of_mem hc)
    rw [createMissingColumn, (lacksColumn_eq_false_iff hu).2 hthere]
    rfl
  obtain ⟨v, hv, rfl⟩ := foldlM_eq_ok hstep rfl
  exact hv

theorem createColumns_of_wanted (henv : Reliable env) (tables : List SchemaTable) (u : Updates)
    (hu : Folded u.db.tables)
    (hall : ∀ t ∈ tables, ∀ c ∈ t.stored.2, (t.stored.1, c) ∈ u.db.contents.2) :
    tables.foldlM (createColumnsOf env) u = .ok (u.afterReading tables) := by
  induction tables generalizing u with
  | nil =>
      show Except.ok u = _
      rw [afterReading, List.map_nil, List.append_nil]
  | cons t tables ih =>
      rw [List.foldlM_cons, createColumnsOf_of_wanted henv hu (hall t List.mem_cons_self)]
      show tables.foldlM (createColumnsOf env) (u.afterReading [t]) = _
      rw [ih (u.afterReading [t]) hu fun t' ht' => hall t' (List.mem_cons_of_mem _ ht')]
      simp [afterReading]

/-- With everything there, a run reads the columns of the tables. -/
theorem createMissing_of_wanted (henv : Reliable env) (hu : Folded u.db.tables)
    (hall : wanted u.schema.tables ≤ u.db.contents) :
    u.createMissing env = .ok (u.afterReading u.schema.tables) := by
  rw [createMissing, createMissingTables_of_wanted hu hall]
  refine createColumns_of_wanted henv _ u hu ?_
  intro t ht c hc
  exact hall.2 ⟨t.stored, List.mem_map_of_mem ht, rfl, hc⟩

/-! ### Runs one after the other -/

/-- What is left of a run, also when it is cut off. -/
def attempt (s : Updates) (env : UpdateEnv) : Updates :=
  match s.createMissing env with
  | .ok u => u
  | .error x => x.2

theorem Filling.trans {v : Updates} (hu : Filling s u) (hv : Filling u v) : Filling s v where
  schema := hv.schema.trans hu.schema
  folded := hv.folded
  grows := hu.grows.trans (hu.schema ▸ hv.grows)

section
variable (hfold : ∀ s, CaseFolding.toLower (CaseFolding.toLower s) = CaseFolding.toLower s)
  (hschema : DistinctNames s.schema.tables)
include hfold hschema

theorem filling_attempt (env : UpdateEnv) (hu : Filling s u) : Filling s (u.attempt env) := by
  have hends := createMissing_ends hfold (hu.schema ▸ hschema) hu.folded env
  refine hu.trans ?_
  rw [attempt]
  cases hrun : u.createMissing env with
  | ok v =>
      rw [hrun] at hends
      exact hends.toFilling
  | error x =>
      rw [hrun] at hends
      exact hends.1

/-- After any number of runs that were cut off, or not. -/
theorem filling_run (hs : Folded s.db.tables) (envs : List UpdateEnv) : Filling s (run attempt s envs) :=
  run_invariant_of_forall (fun _ env hu => filling_attempt hfold hschema env hu) ⟨rfl, hs, Grows.refl _ _⟩ envs

theorem contents_of_ok {v : Updates} (hu : Filling s u) (hrun : u.createMissing env = .ok v) :
    v.db.contents = s.db.contents ⊔ wanted s.schema.tables := by
  have hends := createMissing_ends hfold (hu.schema ▸ hschema) hu.folded env
  rw [hrun] at hends
  have hall := hends.wanted_le
  rw [hu.schema] at hall
  calc v.db.contents = v.db.contents ⊔ wanted s.schema.tables := (sup_eq_left.2 hall).symm
    _ = s.db.contents ⊔ wanted s.schema.tables := (hu.trans hends.toFilling).grows.sup_eq

theorem exists_ok (henv : Reliable env) (hu : Filling s u) : ∃ v, u.createMissing env = .ok v := by
  have hends := createMissing_ends hfold (hu.schema ▸ hschema) hu.folded env
  cases hrun : u.createMissing env with
  | ok v => exact ⟨v, rfl⟩
  | error x =>
      rw [hrun] at hends
      obtain ⟨-, n, hn⟩ := hends
      rw [henv n] at hn
      cases hn

end

/-- What comes of runs of `createMissingTables` and `createMissingColumns`. -/
structure Converges (s : Updates) : Prop where
  /-- After runs that were cut off anywhere, or not, a run in which nothing fails comes to its end. -/
  finishes : ∀ envs env, Reliable env → ∃ v, (run attempt s envs).createMissing env = .ok v
  /-- Everything of the schema is there, and nothing else but what was. -/
  complete : ∀ env v, s.createMissing env = .ok v →
    v.db.contents = s.db.contents ⊔ wanted s.schema.tables ∧ (v.db.tables.map Prod.fst).Nodup
  /-- The tables and columns that were there are in their places. -/
  untouched : ∀ env v, s.createMissing env = .ok v →
    ∀ e ∈ s.db.tables, ∃ e' ∈ v.db.tables, e'.1 = e.1 ∧ e.2 <+: e'.2
  /-- A second run only reads the columns of the tables. -/
  again : ∀ env v env', s.createMissing env = .ok v → Reliable env' →
    v.createMissing env' = .ok { v with
      requests := v.requests ++ s.schema.tables.map fun t => .readColumns t.tableName }
  resumes : ∀ env v envs env' w, s.createMissing env = .ok v →
    (run attempt s envs).createMissing env' = .ok w → w.db.contents = v.db.contents

/-- **Runs of `createMissingTables` and `createMissingColumns` converge, wherever they
are cut off.** -/
theorem createMissing_converges
    (hfold : ∀ s, CaseFolding.toLower (CaseFolding.toLower s) = CaseFolding.toLower s) {s : Updates}
    (hschema : DistinctNames s.schema.tables) (hs : Folded s.db.tables) : Converges s where
  finishes envs env henv := exists_ok hfold hschema henv (filling_run hfold hschema hs envs)
  complete env v hrun := by
    have hends := createMissing_ends hfold hschema hs env
    rw [hrun] at hends
    exact ⟨contents_of_ok hfold hschema ⟨rfl, hs, Grows.refl _ _⟩ hrun, hends.folded.names⟩
  untouched env v hrun := by
    have hends := createMissing_ends hfold hschema hs env
    rw [hrun] at hends
    exact hends.grows.keeps
  again env v env' hrun henv' := by
    have hends := createMissing_ends hfold hschema hs env
    rw [hrun] at hends
    have hall := hends.wanted_le
    rw [← hends.schema] at hall ⊢
    exact createMissing_of_wanted henv' hends.folded hall
  resumes env v envs env' w hrun hrun' := by
    rw [contents_of_ok hfold hschema (filling_run hfold hschema hs envs) hrun',
      contents_of_ok hfold hschema ⟨rfl, hs, Grows.refl _ _⟩ hrun]

end

end Updates

end

namespace Updates

/-- The old database and the new schema of the update test. -/
def beforeUpdate : Updates :=
  starting 1 [(latin1 "version", [latin1 "version"]), (latin1 "existing", [latin1 "id", latin1 "column1"])]
    ⟨fun _ _ => none, true⟩
    ⟨[⟨latin1 "Existing", [(latin1 "Id", latin1 "Id text"), (latin1 "Column1", latin1 "Column1 text"),
        (latin1 "Column2", latin1 "Column2 integer")], []⟩,
      ⟨latin1 "New", [(latin1 "Column1", latin1 "Column1 text")], []⟩], []⟩ 3

theorem createMissing_converges_beforeUpdate :
    let _ : CaseFolding := .ascii
    beforeUpdate.Converges := by
  intro folding
  refine createMissing_converges CaseFolding.ascii_toLower_toLower ⟨by decide, by decide⟩ ?_
  exact ⟨by decide, by decide, by decide, by decide⟩

end Updates

end Sqlate
