/-
Sqlate/InsertBinding.lean

What an assembled INSERT statement inserts.

The text is right: column list and VALUES list run in call order and have the
same length.  The binding loop is not: it binds the values in the order of
the map, that is, by name, to placeholders that are numbered by position in
the column list.  `insertsExactly_iff` says exactly when the two numberings
agree: every placeholder `:i` must stand for a value whose column comes, in
alphabetical order, after exactly `i` columns with values (or happen to be
bound to an equal value).
-/
import Sqlate.InsertQueryBuilder
import Sqlate.PreparedQuery

namespace Sqlate

/-- A call that names a column. -/
inductive InsertCall
  | addColumnValue (columnName : QString) (value : QVariant)
  | addColumn (columnName : QString)
  deriving DecidableEq

namespace InsertCall

def columnName : InsertCall → QString
  | addColumnValue c _ => c
  | addColumn c => c

def entry : InsertCall → Option (QString × QVariant)
  | addColumnValue c v => some (c, v)
  | addColumn _ => none

def apply (b : SqlInsertQueryBuilder) : InsertCall → SqlInsertQueryBuilder
  | addColumnValue c v => b.addColumnValue c v
  | addColumn c => b.addColumn c

/-- The expression that the call at position `i` asks for. -/
def expression (i : Nat) : InsertCall → SqlText
  | addColumnValue _ v => if v = .sqlNow then currentDateTime else [.bound i v]
  | addColumn _ => sql "DEFAULT"

end InsertCall

/-- The builder after the calls. -/
def insertBuilder (db table : QString) (calls : List InsertCall) : SqlInsertQueryBuilder :=
  calls.foldl InsertCall.apply
    { SqlInsertQueryBuilder.new db with table := table }

/-- The statement object of `query()`: the prepared text with the values that
the binding loop binds. -/
def SqlInsertQueryBuilder.boundQuery (b : SqlInsertQueryBuilder) : QSqlResult :=
  (QSqlResult.prepared (SqlText.toQString b.assemble.queryString)).bindLoop b.bindList

/-- An INSERT of the given expressions into the given columns. -/
def insertStatement (table : QString) (columns : List QString) (expressions : List SqlText) :
    SqlText :=
  if columns.isEmpty then sql "INSERT INTO " ++ raw table ++ sql " DEFAULT VALUES"
  else
    sql "INSERT INTO " ++ raw table ++ sql " (" ++ SqlText.join (columns.map raw) (sql ",")
      ++ sql ")" ++ sql " VALUES (" ++ SqlText.join expressions (sql ",") ++ sql ")"

/-- The text names the columns and their expressions in call order, and every
placeholder in it is bound to the value given for its column. -/
structure InsertsExactly (table : QString) (calls : List InsertCall) (text : SqlText)
    (query : QSqlResult) : Prop where
  text_eq : text = insertStatement table (calls.map InsertCall.columnName)
    (calls.zipIdx.map fun c => c.1.expression c.2)
  bound : ∀ i column value, calls[i]? = some (.addColumnValue column value) →
    value ≠ .sqlNow → query.boundValue (placeholderName i) = some value.bindForm

/-- The number of columns with values whose name is alphabetically before
`column`. -/
def alphabeticalRank (calls : List InsertCall) (column : QString) : Nat :=
  (calls.filterMap InsertCall.entry).countP fun e => e.1 < column

/-! ### The builder after the calls -/

@[simp] theorem filterMap_entry_addColumnValue (c : QString) (v : QVariant)
    (calls : List InsertCall) :
    (InsertCall.addColumnValue c v :: calls).filterMap InsertCall.entry
      = (c, v) :: calls.filterMap InsertCall.entry :=
  List.filterMap_cons_some rfl

@[simp] theorem filterMap_entry_addColumn (c : QString) (calls : List InsertCall) :
    (InsertCall.addColumn c :: calls).filterMap InsertCall.entry
      = calls.filterMap InsertCall.entry :=
  List.filterMap_cons_none rfl

theorem mem_filterMap_entry {calls : List InsertCall} {c : QString} {v : QVariant} :
    (c, v) ∈ calls.filterMap InsertCall.entry ↔ .addColumnValue c v ∈ calls := by
  induction calls with
  | nil => simp
  | cons call calls ih => cases call <;> simp [ih]

theorem foldl_insertCall (calls : List InsertCall) (b : SqlInsertQueryBuilder) :
    calls.foldl InsertCall.apply b
      = { b with
          columnNames := b.columnNames ++ calls.map InsertCall.columnName
          values := (calls.filterMap InsertCall.entry).foldl
            (fun m e => m.insert e.1 e.2) b.values } := by
  induction calls generalizing b with
  | nil => simp
  | cons call calls ih =>
      rw [List.foldl_cons, ih]
      cases call with
      | addColumnValue c v =>
          simp [InsertCall.apply, SqlInsertQueryBuilder.addColumnValue, InsertCall.columnName]
      | addColumn c =>
          simp [InsertCall.apply, SqlInsertQueryBuilder.addColumn, InsertCall.columnName]

theorem columnNames_insertBuilder (db table : QString) (calls : List InsertCall) :
    (insertBuilder db table calls).columnNames = calls.map InsertCall.columnName := by
  simp [insertBuilder, foldl_insertCall, SqlInsertQueryBuilder.new]

theorem values_insertBuilder (db table : QString) (calls : List InsertCall) :
    (insertBuilder db table calls).values
      = SortedMap.ofList (calls.filterMap InsertCall.entry) := by
  simp [insertBuilder, foldl_insertCall, SqlInsertQueryBuilder.new, SortedMap.ofList]

theorem queryString_insertBuilder (db table : QString) (calls : List InsertCall) :
    (insertBuilder db table calls).assemble.queryString
      = (insertBuilder db table calls).toText := by
  simp [insertBuilder, foldl_insertCall, SqlInsertQueryBuilder.new,
    SqlInsertQueryBuilder.assemble, SqlQueryBuilderBase.new]

theorem table_insertBuilder (db table : QString) (calls : List InsertCall) :
    (insertBuilder db table calls).table = table := by
  simp [insertBuilder, foldl_insertCall]

section
variable {calls : List InsertCall} (hnames : (calls.map InsertCall.columnName).Nodup)
include hnames

theorem nodup_entries : ((calls.filterMap InsertCall.entry).map Prod.fst).Nodup := by
  refine hnames.sublist ?_
  clear hnames
  induction calls with
  | nil => exact List.Sublist.refl _
  | cons call calls ih =>
      cases call with
      | addColumnValue c v => simpa [InsertCall.columnName] using ih
      | addColumn c => simpa [InsertCall.columnName] using ih.cons c

/-- With distinct names, the map holds what was given for a column. -/
theorem find?_insertBuilder (db table : QString) {call : InsertCall} (hmem : call ∈ calls) :
    (insertBuilder db table calls).values.find? call.columnName = call.entry.map Prod.snd := by
  have hperm := SortedMap.entries_ofList_perm (nodup_entries hnames)
  rw [values_insertBuilder]
  cases call with
  | addColumnValue c v =>
      exact (SortedMap.find?_eq_some_iff _).mpr (hperm.mem_iff.mpr (mem_filterMap_entry.mpr hmem))
  | addColumn c =>
      show _ = none
      rw [Option.eq_none_iff_forall_ne_some]
      intro v hv
      have hcall : .addColumnValue c v ∈ calls := mem_filterMap_entry.mp
        (hperm.mem_iff.mp ((SortedMap.find?_eq_some_iff _).mp hv))
      -- two calls for one name are one call
      have heq : InsertCall.addColumnValue c v = .addColumn c :=
        List.inj_on_of_nodup_map hnames hcall hmem rfl
      cases heq

/-- The VALUES list is what the calls ask for. -/
theorem expressions_insertBuilder (db table : QString) :
    ((calls.map InsertCall.columnName).zipIdx.map fun c =>
        SqlInsertQueryBuilder.valueExpression (insertBuilder db table calls).values c.2 c.1)
      = calls.zipIdx.map fun c => c.1.expression c.2 := by
  rw [List.zipIdx_map, List.map_map]
  refine List.map_congr_left fun c hc => ?_
  have hmem : c.1 ∈ calls := List.fst_mem_of_mem_zipIdx hc
  have hfind := find?_insertBuilder hnames db table hmem
  obtain ⟨call, i⟩ := c
  simp only [Function.comp_apply, Prod.map_apply, id_eq, SqlInsertQueryBuilder.valueExpression,
    hfind]
  cases call with
  | addColumnValue column value =>
      simp [InsertCall.entry, InsertCall.expression, QVariant.userType_eq_sqlNowType]
  | addColumn column => rfl

theorem text_insertBuilder (db table : QString) :
    (insertBuilder db table calls).toText
      = insertStatement table (calls.map InsertCall.columnName)
          (calls.zipIdx.map fun c => c.1.expression c.2) := by
  rw [SqlInsertQueryBuilder.toText, insertStatement]
  simp only [columnNames_insertBuilder, table_insertBuilder, expressions_insertBuilder hnames]
  split
  · rfl
  · next hne =>
    have hcalls : calls ≠ [] := fun h => hne (by simp [h])
    rw [SqlText.closeList_appendCommaSeparated _ (by simpa using hcalls),
      SqlText.closeList_appendCommaSeparated _ (by simpa using hcalls)]

omit hnames in
theorem bindList_insertBuilder (db table : QString) :
    (insertBuilder db table calls).bindList
      = (SortedMap.ofList (calls.filterMap InsertCall.entry)).values := by
  rw [SqlInsertQueryBuilder.bindList, values_insertBuilder, columnNames_insertBuilder]
  cases calls with
  | nil => rfl
  | cons call calls => rfl

theorem rank_insertBuilder (column : QString) :
    (SortedMap.ofList (calls.filterMap InsertCall.entry)).rank column
      = alphabeticalRank calls column := by
  rw [SortedMap.rank_ofList (nodup_entries hnames), alphabeticalRank]
  exact List.countP_congr fun e _ => by simp

/-- What the binding loop binds to `:i`: the value of alphabetical rank `i`. -/
theorem boundValue_insertBuilder_iff (db table : QString) (i : Nat) (w : QVariant) :
    (insertBuilder db table calls).boundQuery.boundValue (placeholderName i) = some w
      ↔ ∃ column value, .addColumnValue column value ∈ calls ∧
          boundForm value = some w ∧ alphabeticalRank calls column = i := by
  have hperm := SortedMap.entries_ofList_perm (nodup_entries hnames)
  simp only [SqlInsertQueryBuilder.boundQuery, QSqlResult.boundValue_bindLoop,
    bindList_insertBuilder, QSqlResult.prepared, Option.or_none, Option.bind_eq_some_iff,
    SortedMap.getElem?_values_iff, hperm.mem_iff, mem_filterMap_entry,
    rank_insertBuilder hnames]
  constructor
  · rintro ⟨value, ⟨column, hmem, hrank⟩, hform⟩
    exact ⟨column, value, hmem, hform, hrank⟩
  · rintro ⟨column, value, hmem, hform, hrank⟩
    exact ⟨value, ⟨column, hmem, hrank⟩, hform⟩

end

theorem bindForm_eq_sqlNow {v : QVariant} : v.bindForm = .sqlNow ↔ v = .sqlNow := by
  cases v <;> simp [QVariant.bindForm]

/-- A value is bound in the form of another ordinary value iff it has the
same bind form. -/
theorem boundForm_eq_some_bindForm {v w : QVariant} (hw : w ≠ .sqlNow) :
    boundForm v = some w.bindForm ↔ v.bindForm = w.bindForm := by
  by_cases hv : v = .sqlNow
  · have hne : QVariant.sqlNow ≠ w.bindForm := fun h => hw (bindForm_eq_sqlNow.mp h.symm)
    simp only [hv, boundForm, show QVariant.sqlNow.bindForm = .sqlNow from rfl, hne,
      reduceCtorEq]
  · simp [boundForm_of_ne hv]

/-- **When an INSERT inserts what was given.**  For calls with distinct column
names, the assembled and bound statement inserts exactly what was given iff
every position `i` with an ordinary or NULL value is the alphabetical rank of
a column that was given a value of the same bind form. -/
theorem insertsExactly_iff (db table : QString) {calls : List InsertCall}
    (hnames : (calls.map InsertCall.columnName).Nodup) :
    InsertsExactly table calls (insertBuilder db table calls).assemble.queryString
        (insertBuilder db table calls).boundQuery
      ↔ ∀ i column value, calls[i]? = some (.addColumnValue column value) → value ≠ .sqlNow →
          ∃ column' value', .addColumnValue column' value' ∈ calls ∧
            value'.bindForm = value.bindForm ∧ alphabeticalRank calls column' = i := by
  constructor
  · intro h i column value hcall hvalue
    have hbound := h.bound i column value hcall hvalue
    rw [boundValue_insertBuilder_iff hnames] at hbound
    obtain ⟨column', value', hmem, hform, hrank⟩ := hbound
    exact ⟨column', value', hmem, (boundForm_eq_some_bindForm hvalue).mp hform, hrank⟩
  · intro h
    refine ⟨?_, ?_⟩
    · rw [queryString_insertBuilder, text_insertBuilder hnames]
    · intro i column value hcall hvalue
      obtain ⟨column', value', hmem, hform, hrank⟩ := h i column value hcall hvalue
      rw [boundValue_insertBuilder_iff hnames]
      exact ⟨column', value', hmem, (boundForm_eq_some_bindForm hvalue).mpr hform, hrank⟩

/-- Columns in alphabetical order, all with values, are bound correctly. -/
def alphabeticalCalls : List InsertCall :=
  [.addColumnValue (latin1 "first") (.string (latin1 "1")),
   .addColumnValue (latin1 "second") .invalid]

/-- The same columns in the other order. -/
def swappedCalls : List InsertCall :=
  [.addColumnValue (latin1 "second") .invalid,
   .addColumnValue (latin1 "first") (.string (latin1 "1"))]

theorem insertsExactly_iff_alphabeticalCalls :
    InsertsExactly (latin1 "table1") alphabeticalCalls
        (insertBuilder [] (latin1 "table1") alphabeticalCalls).assemble.queryString
        (insertBuilder [] (latin1 "table1") alphabeticalCalls).boundQuery
      ↔ ∀ i column value, alphabeticalCalls[i]? = some (.addColumnValue column value) →
          value ≠ .sqlNow →
          ∃ column' value', .addColumnValue column' value' ∈ alphabeticalCalls ∧
            value'.bindForm = value.bindForm ∧ alphabeticalRank alphabeticalCalls column' = i :=
  insertsExactly_iff [] (latin1 "table1") (by decide)

/-- **Values end up in the wrong columns**: `second` was given NULL, but `:0`,
its expression, is bound to the value of `first`. -/
theorem not_insertsExactly_swappedCalls :
    (swappedCalls.map InsertCall.columnName).Nodup ∧
      ¬ InsertsExactly (latin1 "table1") swappedCalls
        (insertBuilder [] (latin1 "table1") swappedCalls).assemble.queryString
        (insertBuilder [] (latin1 "table1") swappedCalls).boundQuery := by
  refine ⟨by decide, fun h => ?_⟩
  have hbound := h.bound 0 (latin1 "second") .invalid rfl (by decide)
  have hwrong : (insertBuilder [] (latin1 "table1") swappedCalls).boundQuery.boundValue
      (placeholderName 0) = some (.string (latin1 "1")) := by decide
  rw [hwrong] at hbound
  cases hbound

end Sqlate
