/-
Sqlate/TableOrder.lean

`createTables`: the statements of a schema on an empty database.

The statements are executed in the order of the schema, and the first one that the
server refuses ends the call.  None is refused exactly if every table is `Creatable`
behind the tables in front of it: its foreign keys refer to keys of these tables, or of
itself, its defaults are literals, and names are different ignoring case.  The tables of
the server are then those of the schema (`createTables_eq_some_iff`).
-/
import Sqlate.TableServer

namespace Sqlate

variable [CaseFolding]

namespace TableDescription

/-- A column of a C++ type that a foreign key can refer to. -/
def HasKey (u : TableDescription) (column : QString) (type : CppType) : Prop :=
  ∃ d ∈ u.columns, d.identifier.folded = column ∧ d.type = type
    ∧ (d.unique = true ∨ ∃ k ∈ u.constraints, k.columns.map Identifier.folded = [column])

/-- A table can be created when there are the tables before it in the schema. -/
structure Creatable (before : List TableDescription) (t : TableDescription) : Prop where
  plain : ∀ c ∈ t.columns, c.useDefault → c.type = .bool ∨ c.type = .int ∨ c.type = .float
  name : ∀ u ∈ before, u.tableName.folded ≠ t.tableName.folded
  columns : (t.columns.map fun c => c.identifier.folded).Nodup
  primaryKey : (t.columns.filter fun c => c.primaryKey).length ≤ 1
  constraints : ∀ u ∈ t.constraints, (u.columns.map Identifier.folded).Nodup
    ∧ ∀ i ∈ u.columns, ∃ c ∈ t.columns, c.identifier.folded = i.folded
  references : ∀ c ∈ t.columns, ∀ r, c.referencedColumn = some r →
    ∃ u ∈ before ++ [t], u.tableName.folded = r.tableName.folded ∧ u.HasKey r.sqlName.folded c.type

end TableDescription

/-- Every table of a schema can be created behind those in front of it. -/
def WellOrdered (tables : List TableDescription) : Prop :=
  ∀ before t after, tables = before ++ t :: after → t.Creatable before

/-- `createTableStatements`. -/
def createTableStatements (tables : List TableDescription) : List QString :=
  tables.map TableDescription.createTableStatement

/-- The first loop of `createTables`. -/
def createTables (S : TableServer) (tables : List TableDescription) (stored : List StoredTable) :
    Option (List StoredTable) :=
  (createTableStatements tables).foldlM S.exec stored

/-! ### What is stored of a description -/

omit [CaseFolding] in
theorem withoutLength_dbType_inj {type type' : CppType} {size size' : Int} :
    (type.dbType size).withoutLength = (type'.dbType size').withoutLength ↔ type = type' := by
  have hlength : ∀ (type : CppType) (size : Int),
      (type.dbType size).withoutLength = (type.dbType (-1)).withoutLength := by
    intro type size
    cases type with
    | qString =>
        show (if size > 0 then SqlType.varchar size.toNat else .text).withoutLength = _
        split <;> rfl
    | _ => rfl
  rw [hlength type, hlength type']
  cases type <;> cases type' <;> decide

omit [CaseFolding] in
/-- A column is made a primary key once, if at all. -/
theorem TableColumn.primaryKeys_definition (c : TableColumn) :
    (c.definition.constraints.filter fun k => k = .primaryKey).length = if c.primaryKey then 1 else 0 := by
  have hdefault : (c.defaultConstraints.filter fun k => k = .primaryKey) = [] := by
    rw [defaultConstraints]
    split
    · cases Constant.ofLexeme c.type.defaultText <;> rfl
    · rfl
  have hreference : (c.referenceConstraints.filter fun k => k = .primaryKey) = [] := by
    rw [referenceConstraints]
    cases c.referencedColumn <;> rfl
  show ((c.keyConstraints ++ c.defaultConstraints ++ c.referenceConstraints).filter _).length = _
  rw [List.filter_append, List.filter_append, hdefault, hreference, List.append_nil, List.append_nil,
    keyConstraints]
  cases c.primaryKey
  · cases c.unique <;> cases c.notNull <;> rfl
  · rfl

namespace TableDescription

omit [CaseFolding] in
theorem columns_stmt (t : TableDescription) : t.stmt.columns = t.columns.map TableColumn.definition := by
  have hnone : t.constraints.filterMap
      (TableElement.column? ∘ fun u => .unique u.columns u.columns_ne) = [] :=
    List.filterMap_eq_nil_iff.2 fun _ _ => rfl
  show (t.columns.map _ ++ t.constraints.map _).filterMap TableElement.column? = _
  rw [List.filterMap_append, List.filterMap_map, List.filterMap_map, hnone, List.append_nil]
  exact congrFun List.filterMap_eq_map t.columns

omit [CaseFolding] in
theorem uniques_stmt (t : TableDescription) : t.stmt.uniques = t.constraints.map UniqueConstraint.columns := by
  have hnone : t.columns.filterMap (TableElement.unique? ∘ fun c => .column c.definition) = [] :=
    List.filterMap_eq_nil_iff.2 fun _ _ => rfl
  show (t.columns.map _ ++ t.constraints.map _).filterMap TableElement.unique? = _
  rw [List.filterMap_append, List.filterMap_map, List.filterMap_map, hnone, List.nil_append]
  exact congrFun List.filterMap_eq_map t.constraints

variable {t : TableDescription}

def stored (t : TableDescription) : StoredTable := t.stmt.stored

theorem columns_stored (t : TableDescription) : t.stored.columns = t.columns.map TableColumn.definition :=
  t.columns_stmt

theorem uniques_stored (t : TableDescription) :
    t.stored.uniques = t.constraints.map fun u => u.columns.map Identifier.folded := by
  show t.stmt.uniques.map _ = _
  rw [uniques_stmt, List.map_map]
  rfl

theorem columnNames_stored (t : TableDescription) :
    t.stored.columnNames = t.columns.map fun c => c.identifier.folded := by
  rw [StoredTable.columnNames, columns_stored, List.map_map]
  rfl

theorem primaryKeys_stored (t : TableDescription) :
    t.stored.primaryKeys.length = (t.columns.filter fun c => c.primaryKey).length := by
  rw [StoredTable.primaryKeys, columns_stored]
  induction t.columns with
  | nil => rfl
  | cons c cs ih =>
      rw [List.map_cons, List.flatMap_cons, List.filter_append, List.length_append, ih,
        c.primaryKeys_definition, List.filter_cons]
      cases c.primaryKey
      · exact Nat.zero_add _
      · exact Nat.add_comm 1 _

theorem hasKey_stored (t : TableDescription) (column : QString) (c : TableColumn) :
    t.stored.hasKey column c.definition.type = true ↔ t.HasKey column c.type := by
  rw [StoredTable.hasKey, columns_stored, uniques_stored, List.any_map, List.any_eq_true, HasKey]
  refine exists_congr fun d => and_congr_right fun _ => ?_
  show (d.identifier.folded == column
    && (d.type.dbType d.size).withoutLength == (c.type.dbType c.size).withoutLength
    && (d.definition.unique || _)) = true ↔ _
  rw [Bool.and_eq_true, Bool.and_eq_true, beq_iff_eq, beq_iff_eq, Bool.or_eq_true,
    withoutLength_dbType_inj, TableColumn.definition_unique, List.contains_iff_mem, List.mem_map, and_assoc]

end TableDescription

/-! ### What the server admits -/

namespace TableColumn

/-- The server has nothing against the default of a column; the reference has to be possible. -/
theorem admitted_definition {c : TableColumn}
    (hplain : c.useDefault → c.type = .bool ∨ c.type = .int ∨ c.type = .float)
    (tables : List TableDescription) :
    c.definition.admitted (tables.map TableDescription.stored) = true ↔
      ∀ r, c.referencedColumn = some r →
        ∃ u ∈ tables, u.tableName.folded = r.tableName.folded ∧ u.HasKey r.sqlName.folded c.type := by
  have hdescribes := definition_describes hplain
  have hdefaults : c.definition.defaults.length ≤ 1
      ∧ (c.definition.defaults.all fun value => value.kind = c.definition.type.literalKind) = true := by
    by_cases huse : c.useDefault
    · obtain ⟨value, hvalue, hkind⟩ := hdescribes.default huse
      rw [hvalue]
      exact ⟨Nat.le_refl 1, by simpa using hkind⟩
    · rw [hdescribes.noDefault huse]
      exact ⟨Nat.zero_le 1, rfl⟩
  rw [ColumnDef.admitted, hdefaults.2, decide_eq_true hdefaults.1, Bool.true_and, Bool.true_and,
    definition_references]
  cases c.referencedColumn with
  | none => exact iff_of_true rfl nofun
  | some r =>
      show ((tables.map TableDescription.stored).any _ && true) = true ↔ _
      rw [Bool.and_true, List.any_map, List.any_eq_true]
      have hkey : ∀ u : TableDescription,
          (u.stored.name == r.tableName.folded && u.stored.hasKey r.sqlName.folded c.definition.type) = true ↔
            u.tableName.folded = r.tableName.folded ∧ u.HasKey r.sqlName.folded c.type := by
        intro u
        rw [Bool.and_eq_true, beq_iff_eq, u.hasKey_stored]
        rfl
      constructor
      · rintro ⟨u, hu, h⟩ r' hr'
        obtain rfl := Option.some.inj hr'
        exact ⟨u, hu, (hkey u).1 h⟩
      · intro h
        obtain ⟨u, hu, h⟩ := h r rfl
        exact ⟨u, hu, (hkey u).2 h⟩

end TableColumn

namespace TableDescription

variable {t : TableDescription}

/-- The constraints of a table are about its columns. -/
theorem uniques_admitted_iff (t : TableDescription) :
    (t.stored.uniques.all fun u => distinctNames u && u.all t.stored.columnNames.contains) = true ↔
      ∀ u ∈ t.constraints, (u.columns.map Identifier.folded).Nodup
        ∧ ∀ i ∈ u.columns, ∃ c ∈ t.columns, c.identifier.folded = i.folded := by
  rw [uniques_stored, List.all_map, List.all_eq_true]
  refine forall₂_congr fun u _ => ?_
  show (distinctNames (u.columns.map Identifier.folded)
    && (u.columns.map Identifier.folded).all t.stored.columnNames.contains) = true ↔ _
  rw [Bool.and_eq_true, distinctNames_iff, List.all_map, List.all_eq_true, columnNames_stored]
  refine and_congr_right fun _ => forall₂_congr fun i _ => ?_
  show (t.columns.map fun c => c.identifier.folded).contains i.folded = true ↔ _
  rw [List.contains_iff_mem, List.mem_map]

/-- The server admits a table whose defaults are literals exactly if it can be created. -/
theorem creatable_iff (before : List TableDescription) (t : TableDescription) :
    t.Creatable before ↔ t.isPlain = true ∧ t.stmt.admitted (before.map stored) = true := by
  rw [isPlain_iff]
  have hname : (!((before.map stored).map StoredTable.name).contains t.stored.name) = true ↔
      ∀ u ∈ before, u.tableName.folded ≠ t.tableName.folded := by
    rw [Bool.not_eq_true', ← Bool.not_eq_true, List.contains_iff_mem, List.map_map, List.mem_map]
    exact not_exists.trans (forall_congr' fun u => not_and)
  have hreferences : (∀ c ∈ t.columns, c.useDefault → c.type = .bool ∨ c.type = .int ∨ c.type = .float) →
      (t.stmt.columns.all (ColumnDef.admitted (before.map stored ++ [t.stored])) = true ↔
        ∀ c ∈ t.columns, ∀ r, c.referencedColumn = some r → ∃ u ∈ before ++ [t],
          u.tableName.folded = r.tableName.folded ∧ u.HasKey r.sqlName.folded c.type) := by
    intro hplain
    have hall : before.map stored ++ [t.stored] = (before ++ [t]).map stored := by
      rw [List.map_append]
      rfl
    rw [columns_stmt, List.all_map, List.all_eq_true, hall]
    exact forall₂_congr fun c hc => TableColumn.admitted_definition (hplain c hc) _
  have hadmitted : t.stmt.admitted (before.map stored) = true ↔
      (!((before.map stored).map StoredTable.name).contains t.stored.name) = true
        ∧ t.stored.columnNames.Nodup ∧ t.stored.primaryKeys.length ≤ 1
        ∧ (t.stored.uniques.all fun u => distinctNames u && u.all t.stored.columnNames.contains) = true
        ∧ t.stmt.columns.all (ColumnDef.admitted (before.map stored ++ [t.stored])) = true := by
    rw [CreateStmt.admitted, Bool.and_eq_true, Bool.and_eq_true, Bool.and_eq_true, Bool.and_eq_true,
      and_assoc, and_assoc, and_assoc, decide_eq_true_eq, ← distinctNames_iff]
    rfl
  rw [hadmitted, hname, uniques_admitted_iff, columnNames_stored, primaryKeys_stored]
  constructor
  · rintro ⟨hplain, hnames, hcolumns, hprimary, hconstraints, hrefers⟩
    exact ⟨hplain, hnames, hcolumns, hprimary, hconstraints, (hreferences hplain).2 hrefers⟩
  · rintro ⟨hplain, hnames, hcolumns, hprimary, hconstraints, hrefers⟩
    exact ⟨hplain, hnames, hcolumns, hprimary, hconstraints, (hreferences hplain).1 hrefers⟩

/-- One statement of `createTables`. -/
theorem exec_eq_some_iff (S : TableServer) (before : List TableDescription) (t : TableDescription)
    (stored' : List StoredTable) :
    S.exec (before.map stored) t.createTableStatement = some stored' ↔
      t.Creatable before ∧ stored' = (before ++ [t]).map stored := by
  rw [exec_createTableStatement, creatable_iff, TableServer.create, List.map_append]
  cases t.isPlain
  · exact iff_of_false nofun fun h => nomatch h.1.1
  · cases t.stmt.admitted (before.map stored)
    · exact iff_of_false nofun fun h => nomatch h.1.2
    · show some _ = some stored' ↔ _
      rw [Option.some.injEq]
      constructor
      · rintro rfl
        exact ⟨⟨rfl, rfl⟩, rfl⟩
      · rintro ⟨-, rfl⟩
        rfl

end TableDescription

/-! ### Runs -/

theorem createTables_behind_eq_some_iff (S : TableServer) (before tables : List TableDescription)
    (stored' : List StoredTable) :
    createTables S tables (before.map TableDescription.stored) = some stored' ↔
      (∀ front t after, tables = front ++ t :: after → t.Creatable (before ++ front))
        ∧ stored' = (before ++ tables).map TableDescription.stored := by
  induction tables generalizing before with
  | nil =>
      rw [List.append_nil]
      show some _ = some stored' ↔ _
      rw [Option.some.injEq]
      constructor
      · rintro rfl
        exact ⟨fun front t after h => absurd h (by cases front <;> nofun), rfl⟩
      · rintro ⟨-, rfl⟩
        rfl
  | cons t tables ih =>
      have hcons : createTables S (t :: tables) (before.map TableDescription.stored) = some stored' ↔
          t.Creatable before
            ∧ createTables S tables ((before ++ [t]).map TableDescription.stored) = some stored' := by
        show (S.exec _ t.createTableStatement).bind _ = some stored' ↔ _
        rw [Option.bind_eq_some_iff]
        constructor
        · rintro ⟨middle, hmiddle, hrest⟩
          obtain ⟨ht, rfl⟩ := (TableDescription.exec_eq_some_iff S before t middle).1 hmiddle
          exact ⟨ht, hrest⟩
        · rintro ⟨ht, hrest⟩
          exact ⟨_, (TableDescription.exec_eq_some_iff S before t _).2 ⟨ht, rfl⟩, hrest⟩
      rw [hcons, ih, List.append_assoc]
      constructor
      · rintro ⟨ht, hrest, hstored⟩
        refine ⟨fun front u after h => ?_, hstored⟩
        cases front with
        | nil =>
            obtain ⟨rfl, rfl⟩ := List.cons.inj h
            rw [List.append_nil]
            exact ht
        | cons v front =>
            obtain ⟨rfl, rfl⟩ := List.cons.inj h
            have hu := hrest front u after rfl
            rwa [List.append_assoc] at hu
      · rintro ⟨hall, hstored⟩
        have ht := hall [] t tables rfl
        rw [List.append_nil] at ht
        refine ⟨ht, fun front u after h => ?_, hstored⟩
        rw [List.append_assoc]
        exact hall (t :: front) u after (by rw [h]; rfl)

/-- **The statements of a schema create it exactly if it is well ordered.**  Then the
tables of the server are those of the schema, and every statement reads back as its
description. -/
theorem createTables_eq_some_iff (S : TableServer) (tables : List TableDescription)
    (stored : List StoredTable) :
    (createTables S tables [] = some stored ↔
        WellOrdered tables ∧ stored = tables.map TableDescription.stored)
      ∧ (WellOrdered tables → ∀ t ∈ tables, t.ReadsBack) := by
  constructor
  · exact createTables_behind_eq_some_iff S [] tables stored
  · intro hordered t ht
    obtain ⟨before, after, rfl⟩ := List.append_of_mem ht
    exact TableDescription.readsBack_of_plain (hordered before t after rfl).plain

end Sqlate
