/-
Sqlate/TableReading.lean

What the grammar reads from the statement of a description.

A statement describes a table if it has the columns and constraints of the
description in their order, with all that is said of them
(`CreateStmt.Describes`).  A column with a default has one default, and that is a
literal of the type of the column.

Defaults are written without quotes, whatever the type is.  The statement is read
as the description if all defaults are numbers or truth values
(`stmt_describes`).  It is not if there is any other: the literals of the other
types are strings, and a statement has none (`noStrings_words`).
-/
import Sqlate.TableCreation

namespace Sqlate

open SqlLexer (Closed Yields lexemes)

/-! ### Descriptions -/

/-- A column of a statement is the one that is described. -/
structure ColumnDef.Describes (d : ColumnDef) (c : TableColumn) : Prop where
  name : d.name = c.identifier
  type : d.type = c.type.dbType c.size
  primaryKey : d.primaryKey = c.primaryKey
  unique : d.unique = c.unique
  notNull : d.notNull = c.notNull
  default : c.useDefault → ∃ value, d.defaults = [value] ∧ value.kind = d.type.literalKind
  noDefault : ¬ c.useDefault → d.defaults = []
  references : d.references =
    c.referencedColumn.toList.map fun r => (r.tableName, r.sqlName, c.onDelete)

/-- A statement is the table that is described. -/
structure CreateStmt.Describes (s : CreateStmt) (t : TableDescription) : Prop where
  name : s.name = t.tableName
  columns : List.Forall₂ ColumnDef.Describes s.columns t.columns
  uniques : s.uniques = t.constraints.map UniqueConstraint.columns

/-- The grammar reads the statement of a description, and as this description. -/
def TableDescription.ReadsBack (t : TableDescription) : Prop :=
  Closed t.createTableStatement
    ∧ ∃ s, CreateStmt.read (lexemes t.createTableStatement) = some s ∧ s.Describes t

/-! ### The statement that is read -/

namespace TableColumn

def keyConstraints (c : TableColumn) : List ColumnConstraint :=
  if c.primaryKey then [.primaryKey]
  else (if c.unique then [.unique] else []) ++ (if c.notNull then [.notNull] else [])

def defaultConstraints (c : TableColumn) : List ColumnConstraint :=
  if c.useDefault then (Constant.ofLexeme c.type.defaultText).toList.map .default else []

def referenceConstraints (c : TableColumn) : List ColumnConstraint :=
  c.referencedColumn.toList.map fun r => .references r.tableName r.sqlName c.onDelete

/-- The column, as it is read if its default is. -/
def definition (c : TableColumn) : ColumnDef where
  name := c.identifier
  type := c.type.dbType c.size
  constraints := c.keyConstraints ++ c.defaultConstraints ++ c.referenceConstraints

variable {c : TableColumn}

/-- A primary key is flagged as unique and not null, too. -/
theorem unique_notNull_of_primaryKey (h : c.primaryKey) : c.unique ∧ c.notNull := by
  have hflags : c.properties &&& ColumnProperties.primaryKey = ColumnProperties.primaryKey := by
    simpa [ColumnType.primaryKey] using h
  have hpart : ∀ flag, ColumnProperties.primaryKey &&& flag = flag → c.properties &&& flag = flag := by
    intro flag hflag
    rw [← hflag, ← Nat.and_assoc, hflags]
  have hunique := hpart ColumnProperties.unique (by decide)
  have hnotNull := hpart ColumnProperties.notNull (by decide)
  rw [ColumnType.unique, ColumnType.notNull, hunique, hnotNull]
  exact ⟨by decide, by decide⟩

/-- The types whose values are written as literals. -/
theorem constant_of_type {type : CppType} (h : type = .bool ∨ type = .int ∨ type = .float)
    (size : Int) :
    ∃ value, Constant.ofLexeme type.defaultText = some value ∧ lexemes type.defaultText = [value.text]
      ∧ value.kind = (type.dbType size).literalKind := by
  rcases h with rfl | rfl | rfl
  · exact ⟨⟨latin1 "false", .truth, by decide⟩, by decide, by decide, rfl⟩
  · exact ⟨⟨latin1 "0", .number, by decide⟩, by decide, by decide, rfl⟩
  · exact ⟨⟨latin1 "0", .number, by decide⟩, by decide, by decide, rfl⟩

theorem definition_yield (h : c.useDefault → c.type = .bool ∨ c.type = .int ∨ c.type = .float) :
    c.definition.yield = c.words := by
  have hkey : c.keyConstraints.flatMap ColumnConstraint.yield = c.keyWords := by
    rw [keyConstraints, keyWords]
    split_ifs <;> rfl
  have hdefault : c.defaultConstraints.flatMap ColumnConstraint.yield = c.defaultWords := by
    rw [defaultConstraints, defaultWords]
    by_cases huse : c.useDefault
    · obtain ⟨value, hvalue, hwords, -⟩ := constant_of_type (h huse) c.size
      rw [if_pos huse, if_pos huse, hvalue, hwords]
      rfl
    · rw [if_neg huse, if_neg huse]
      rfl
  have hreference : c.referenceConstraints.flatMap ColumnConstraint.yield = c.referenceWords := by
    rw [referenceConstraints, referenceWords]
    cases c.referencedColumn with
    | none => rfl
    | some r =>
        show _ ++ [] = _
        rw [List.append_nil]
        rfl
  show [c.sqlName] ++ (c.type.dbType c.size).yield
    ++ (c.keyConstraints ++ c.defaultConstraints ++ c.referenceConstraints).flatMap _ = c.words
  rw [List.flatMap_append, List.flatMap_append, hkey, hdefault, hreference, words]
  simp only [List.append_assoc]

/-- Only the first of the three parts of a column tells of its keys. -/
theorem any_constraints {k : ColumnConstraint} (hk : k = .primaryKey ∨ k = .unique ∨ k = .notNull) :
    (c.definition.constraints.any fun x => x = k) = c.keyConstraints.any fun x => x = k := by
  have hdefault : (c.defaultConstraints.any fun x => x = k) = false := by
    rw [defaultConstraints]
    split_ifs
    · rcases hk with rfl | rfl | rfl <;> cases Constant.ofLexeme c.type.defaultText <;> rfl
    · rfl
  have hreference : (c.referenceConstraints.any fun x => x = k) = false := by
    rw [referenceConstraints]
    rcases hk with rfl | rfl | rfl <;> cases c.referencedColumn <;> rfl
  show ((c.keyConstraints ++ c.defaultConstraints ++ c.referenceConstraints).any _) = _
  rw [List.any_append, List.any_append, hdefault, hreference, Bool.or_false, Bool.or_false]

theorem definition_primaryKey : c.definition.primaryKey = c.primaryKey := by
  rw [ColumnDef.primaryKey, any_constraints (.inl rfl), keyConstraints]
  by_cases hprimary : c.primaryKey
  · rw [if_pos hprimary, hprimary]
    rfl
  · rw [if_neg hprimary, Bool.eq_false_iff.2 hprimary]
    split_ifs <;> rfl

theorem definition_unique : c.definition.unique = c.unique := by
  rw [ColumnDef.unique, definition_primaryKey, any_constraints (.inr (.inl rfl)), keyConstraints]
  by_cases hprimary : c.primaryKey
  · rw [if_pos hprimary, hprimary, (unique_notNull_of_primaryKey hprimary).1]
    rfl
  · rw [if_neg hprimary, Bool.eq_false_iff.2 hprimary, Bool.false_or]
    cases c.unique <;> cases c.notNull <;> rfl

theorem definition_notNull : c.definition.notNull = c.notNull := by
  rw [ColumnDef.notNull, definition_primaryKey, any_constraints (.inr (.inr rfl)), keyConstraints]
  by_cases hprimary : c.primaryKey
  · rw [if_pos hprimary, hprimary, (unique_notNull_of_primaryKey hprimary).2]
    rfl
  · rw [if_neg hprimary, Bool.eq_false_iff.2 hprimary, Bool.false_or]
    cases c.unique <;> cases c.notNull <;> rfl

theorem definition_defaults : c.definition.defaults =
    if c.useDefault then (Constant.ofLexeme c.type.defaultText).toList else [] := by
  show (c.keyConstraints ++ c.defaultConstraints ++ c.referenceConstraints).filterMap _ = _
  have hkey : c.keyConstraints.filterMap ColumnConstraint.default? = [] := by
    rw [keyConstraints]
    split_ifs <;> rfl
  have hreference : c.referenceConstraints.filterMap ColumnConstraint.default? = [] := by
    rw [referenceConstraints]
    cases c.referencedColumn <;> rfl
  rw [List.filterMap_append, List.filterMap_append, hkey, hreference, List.append_nil,
    List.nil_append, defaultConstraints]
  split_ifs
  · cases Constant.ofLexeme c.type.defaultText <;> rfl
  · rfl

theorem definition_references : c.definition.references =
    c.referencedColumn.toList.map fun r => (r.tableName, r.sqlName, c.onDelete) := by
  show (c.keyConstraints ++ c.defaultConstraints ++ c.referenceConstraints).filterMap _ = _
  have hkey : c.keyConstraints.filterMap ColumnConstraint.references? = [] := by
    rw [keyConstraints]
    split_ifs <;> rfl
  have hdefault : c.defaultConstraints.filterMap ColumnConstraint.references? = [] := by
    rw [defaultConstraints]
    split_ifs
    · cases Constant.ofLexeme c.type.defaultText <;> rfl
    · rfl
  rw [List.filterMap_append, List.filterMap_append, hkey, hdefault, List.nil_append,
    List.nil_append, referenceConstraints]
  cases c.referencedColumn <;> rfl

theorem definition_describes (h : c.useDefault → c.type = .bool ∨ c.type = .int ∨ c.type = .float) :
    c.definition.Describes c where
  name := rfl
  type := rfl
  primaryKey := definition_primaryKey
  unique := definition_unique
  notNull := definition_notNull
  default huse := by
    obtain ⟨value, hvalue, -, hkind⟩ := constant_of_type (h huse) c.size
    refine ⟨value, ?_, hkind⟩
    rw [definition_defaults, if_pos huse, hvalue]
    rfl
  noDefault huse := by rw [definition_defaults, if_neg huse]
  references := definition_references

end TableColumn

namespace TableDescription

variable {t : TableDescription}

def elements (t : TableDescription) : List TableElement :=
  t.columns.map (fun c => .column c.definition)
    ++ t.constraints.map fun u => .unique u.columns u.columns_ne

theorem elements_ne (t : TableDescription) : t.elements ≠ [] := by
  intro h
  have hcolumns := (List.append_eq_nil_iff.1 h).1
  exact t.columns_ne (List.map_eq_nil_iff.1 hcolumns)

/-- The statement, as it is read if all defaults are. -/
def stmt (t : TableDescription) : CreateStmt := ⟨t.tableName, t.elements, t.elements_ne⟩

theorem stmt_yield
    (h : ∀ c ∈ t.columns, c.useDefault → c.type = .bool ∨ c.type = .int ∨ c.type = .float) :
    t.stmt.yield = t.words := by
  have hcolumns : t.columns.map (fun c => TableElement.yield (.column c.definition))
      = t.columns.map TableColumn.words :=
    List.map_congr_left fun c hc => c.definition_yield (h c hc)
  have helements : t.elements.map TableElement.yield
      = t.columns.map TableColumn.words ++ t.constraints.map UniqueConstraint.words := by
    rw [elements, List.map_append, List.map_map, List.map_map, ← hcolumns]
    rfl
  show _ ++ commaSeparated (t.elements.map TableElement.yield) ++ _ = _
  rw [helements]
  rfl

theorem stmt_describes
    (h : ∀ c ∈ t.columns, c.useDefault → c.type = .bool ∨ c.type = .int ∨ c.type = .float) :
    t.stmt.Describes t where
  name := rfl
  columns := by
    have hnone : t.constraints.filterMap
        (TableElement.column? ∘ fun u => .unique u.columns u.columns_ne) = [] :=
      List.filterMap_eq_nil_iff.2 fun _ _ => rfl
    have hcolumns : t.stmt.columns = t.columns.map TableColumn.definition := by
      show (t.columns.map _ ++ t.constraints.map _).filterMap TableElement.column? = _
      rw [List.filterMap_append, List.filterMap_map, List.filterMap_map, hnone, List.append_nil]
      exact congrFun List.filterMap_eq_map t.columns
    rw [hcolumns, List.forall₂_map_left_iff, List.forall₂_same]
    exact fun c hc => TableColumn.definition_describes (h c hc)
  uniques := by
    have hnone : t.columns.filterMap (TableElement.unique? ∘ fun c => .column c.definition) = [] :=
      List.filterMap_eq_nil_iff.2 fun _ _ => rfl
    show (t.columns.map _ ++ t.constraints.map _).filterMap TableElement.unique? = _
    rw [List.filterMap_append, List.filterMap_map, List.filterMap_map, hnone, List.nil_append]
    exact congrFun List.filterMap_eq_map t.constraints

end TableDescription

/-! ### No strings -/

/-- No lexeme is a string. -/
def noStrings (ws : List QString) : Bool := ws.all fun w => !isStringConstant w

theorem noStrings_append {ws us : List QString} (hws : noStrings ws) (hus : noStrings us) :
    noStrings (ws ++ us) := by
  rw [noStrings, List.all_append, Bool.and_eq_true]
  exact ⟨hws, hus⟩

theorem noStrings_commaSeparated {parts : List (List QString)}
    (h : ∀ part ∈ parts, noStrings part) : noStrings (commaSeparated parts) := by
  induction parts with
  | nil => rfl
  | cons part parts ih =>
      rw [List.forall_mem_cons] at h
      cases parts with
      | nil =>
          rw [commaSeparated_singleton]
          exact h.1
      | cons part' parts =>
          rw [commaSeparated_cons_cons]
          exact noStrings_append h.1 (noStrings_append (by decide) (ih h.2))

theorem noStrings_word {w : QString} (hw : ∀ c ∈ w, SqlLexer.isWordChar c)
    (hdollar : w.head? ≠ some SqlLexer.dollarSign) : noStrings [w] := by
  have hquote : ∀ c, SqlLexer.isWordChar c → c ≠ SqlLexer.quote := by
    rintro c hc rfl
    exact absurd hc (by decide)
  have hand : ∀ c, SqlLexer.isWordChar c → QChar.ofChar '&' ≠ c := by
    rintro c hc rfl
    exact absurd hc (by decide)
  have hword : isStringConstant w = false := by
    rcases w with _ | ⟨c, _ | ⟨d, w⟩⟩
    · rfl
    · have hc := hquote c (hw c (by simp))
      have hcdollar : c ≠ SqlLexer.dollarSign := fun hc => hdollar (congrArg some hc)
      simp [isStringConstant, hc, hcdollar, latin1]
    · have hc := hquote c (hw c (by simp))
      have hd := hquote d (hw d (by simp))
      have hcdollar : c ≠ SqlLexer.dollarSign := fun hc => hdollar (congrArg some hc)
      have hunicode : (latin1 "&'").isPrefixOf (d :: w) = false := by
        show (QChar.ofChar '&' == d && _) = false
        rw [beq_eq_false_iff_ne.2 (hand d (hw d (by simp))), Bool.false_and]
      simp [isStringConstant, hc, hd, hcdollar, hunicode]
  rw [noStrings, List.all_cons, hword]
  rfl

theorem noStrings_number (n : Nat) : noStrings [QString.number n] := by
  have hdigit : ∀ c ∈ QString.number n, SqlLexer.isDigit c := by
    intro c hc
    have hval := QString.val_of_mem_number hc
    simp only [SqlLexer.isDigit, Bool.and_eq_true, decide_eq_true_eq]
    exact hval
  apply noStrings_word
  · exact fun c hc => SqlLexer.isWordChar_of_isDigit (hdigit c hc)
  · intro hhead
    exact absurd (hdigit _ (List.mem_of_head? hhead)) (by decide)

theorem Identifier.noStrings (i : Identifier) : Sqlate.noStrings [i.text] := by
  obtain ⟨c, s, htext, hword, -, hdollar⟩ := i.exists_cons
  rw [htext]
  exact noStrings_word hword fun hhead => hdollar (Option.some.inj hhead)

theorem SqlType.noStrings (type : SqlType) : Sqlate.noStrings type.yield := by
  cases type with
  | varchar length =>
      have hlength := noStrings_number length
      exact noStrings_append (noStrings_append (by decide) hlength) (by decide)
  | _ => decide

namespace TableColumn

theorem noStrings_words (c : TableColumn) : noStrings c.words := by
  have hkey : noStrings c.keyWords := by
    rw [keyWords]
    split_ifs <;> decide
  have hdefault : noStrings c.defaultWords := by
    rw [defaultWords]
    split_ifs
    · cases c.type <;> decide
    · rfl
  have hreference : noStrings c.referenceWords := by
    rw [referenceWords]
    cases c.referencedColumn with
    | none => rfl
    | some r =>
        have honDelete : noStrings (onDeleteWords c.onDelete) := by
          rw [ColumnType.onDelete]
          split_ifs <;> decide
        have htable := r.tableName.noStrings
        have hcolumn := r.sqlName.noStrings
        exact noStrings_append (noStrings_append (noStrings_append (noStrings_append
          (noStrings_append (by decide) htable) (by decide)) hcolumn) (by decide)) honDelete
  have hname : noStrings [c.sqlName] := c.identifier.noStrings
  exact noStrings_append (noStrings_append (noStrings_append (noStrings_append hname
    (c.type.dbType c.size).noStrings) hkey) hdefault) hreference

end TableColumn

theorem UniqueConstraint.noStrings_words (u : UniqueConstraint) : noStrings u.words := by
  have hcolumns : noStrings (commaSeparated (u.columns.map fun i => [i.text])) := by
    apply noStrings_commaSeparated
    rw [List.forall_mem_map]
    exact fun i _ => i.noStrings
  exact noStrings_append (noStrings_append (by decide) hcolumns) (by decide)

/-- The statement of a description has no strings, whatever its defaults are. -/
theorem TableDescription.noStrings_words (t : TableDescription) : noStrings t.words := by
  have helements : noStrings (commaSeparated
      (t.columns.map TableColumn.words ++ t.constraints.map UniqueConstraint.words)) := by
    apply noStrings_commaSeparated
    rw [List.forall_mem_append, List.forall_mem_map, List.forall_mem_map]
    exact ⟨fun c _ => c.noStrings_words, fun u _ => u.noStrings_words⟩
  have hname := t.tableName.noStrings
  exact noStrings_append (noStrings_append (noStrings_append (noStrings_append (by decide) hname)
    (by decide)) helements) (by decide)

/-! ### What is read -/

theorem mem_commaSeparated {parts : List (List QString)} {part : List QString} {w : QString}
    (hpart : part ∈ parts) (hw : w ∈ part) : w ∈ commaSeparated parts := by
  induction parts with
  | nil => cases hpart
  | cons first parts ih =>
      cases parts with
      | nil =>
          rw [commaSeparated_singleton]
          exact List.mem_singleton.1 hpart ▸ hw
      | cons second parts =>
          rw [commaSeparated_cons_cons]
          rcases List.mem_cons.1 hpart with rfl | hpart
          · exact List.mem_append_left _ hw
          · exact List.mem_append_right _ (List.mem_append_right _ (ih hpart))

/-- The defaults of the columns are lexemes of the statement. -/
theorem CreateStmt.mem_yield {s : CreateStmt} {d : ColumnDef} {value : Constant}
    (hd : d ∈ s.columns) (hvalue : value ∈ d.defaults) : value.text ∈ s.yield := by
  obtain ⟨e, he, hcolumn⟩ := List.mem_filterMap.1 hd
  obtain rfl : e = .column d := by
    cases e with
    | column d' => exact congrArg _ (Option.some.inj hcolumn)
    | unique columns columns_ne => cases hcolumn
  obtain ⟨k, hk, hdefault⟩ := List.mem_filterMap.1 hvalue
  obtain rfl : k = .default value := by
    cases k with
    | default value' => exact congrArg _ (Option.some.inj hdefault)
    | _ => cases hdefault
  have hconstraint : value.text ∈ (ColumnConstraint.default value).yield :=
    List.mem_append_right _ (List.mem_singleton_self _)
  have hyield : value.text ∈ (TableElement.column d).yield :=
    List.mem_append_right _ (List.mem_flatMap.2 ⟨_, hk, hconstraint⟩)
  have helements := mem_commaSeparated (List.mem_map_of_mem he) hyield
  exact List.mem_append_left _ (List.mem_append_right _ helements)

theorem Constant.isString {value : Constant} (h : value.kind = .string) :
    isStringConstant value.text = true := by
  have hkind := value.isConstant
  rw [h, constantKind] at hkind
  split_ifs at hkind with hstring
  · exact hstring
  · cases hkind
  · cases hkind

theorem CreateStmt.Describes.exists_column {s : CreateStmt} {t : TableDescription}
    (h : s.Describes t) : ∀ c ∈ t.columns, ∃ d ∈ s.columns, d.Describes c := by
  have hcolumns := h.columns
  generalize s.columns = ds, t.columns = cs at hcolumns
  induction hcolumns with
  | nil => intro c hc; cases hc
  | @cons d c ds cs hd _ ih =>
      rw [List.forall_mem_cons]
      refine ⟨⟨d, List.mem_cons_self, hd⟩, fun c hc => ?_⟩
      obtain ⟨d, hmem, hd⟩ := ih c hc
      exact ⟨d, List.mem_cons_of_mem _ hmem, hd⟩

/-- The literals of all other types are strings. -/
theorem CppType.literalKind_eq_string {type : CppType}
    (h : ¬ (type = .bool ∨ type = .int ∨ type = .float)) (size : Int) :
    (type.dbType size).literalKind = .string := by
  rw [not_or, not_or] at h
  cases type with
  | qString =>
      show (if size > 0 then SqlType.varchar size.toNat else .text).literalKind = _
      split_ifs <;> rfl
  | bool => exact absurd rfl h.1
  | int => exact absurd rfl h.2.1
  | float => exact absurd rfl h.2.2
  | _ => rfl

namespace TableDescription

/-- A default of any other type is not read as a literal of it. -/
theorem not_readsBack {t : TableDescription} {c : TableColumn} (hc : c ∈ t.columns)
    (huse : c.useDefault) (htype : ¬ (c.type = .bool ∨ c.type = .int ∨ c.type = .float)) :
    ¬ t.ReadsBack := by
  rintro ⟨-, s, hread, hs⟩
  obtain ⟨d, hd, hdescribes⟩ := hs.exists_column c hc
  obtain ⟨value, hvalue, hkind⟩ := hdescribes.default huse
  rw [hdescribes.type, CppType.literalKind_eq_string htype] at hkind
  have hmem : value.text ∈ t.words := by
    rw [← t.yields_createTableStatement.lexemes, CreateStmt.read_eq_some_iff.1 hread]
    exact CreateStmt.mem_yield hd (hvalue ▸ List.mem_singleton_self value)
  have hnot := List.all_eq_true.1 t.noStrings_words _ hmem
  rw [Constant.isString hkind] at hnot
  cases hnot

/-- Numbers and truth values are. -/
theorem readsBack_of_plain {t : TableDescription}
    (h : ∀ c ∈ t.columns, c.useDefault → c.type = .bool ∨ c.type = .int ∨ c.type = .float) :
    t.ReadsBack := by
  have hyields := t.yields_createTableStatement
  refine ⟨hyields.closed, t.stmt, ?_, stmt_describes h⟩
  rw [CreateStmt.read_eq_some_iff, hyields.lexemes, stmt_yield h]

/-- **A statement is read as the description of its table if and only if all defaults are
those of numbers and truth values.** -/
theorem readsBack_iff (t : TableDescription) :
    t.ReadsBack ↔
      ∀ c ∈ t.columns, c.useDefault → c.type = .bool ∨ c.type = .int ∨ c.type = .float := by
  constructor
  · intro h c hc huse
    by_contra htype
    exact not_readsBack hc huse htype h
  · exact readsBack_of_plain

/-- Nothing is written as the default of a text. -/
theorem exists_not_readsBack : ∃ t : TableDescription,
    t.createTableStatement = latin1 "CREATE TABLE tblNote (\nnote TEXT DEFAULT \n)"
      ∧ ¬ t.ReadsBack := by
  let note : TableColumn :=
    { sqlName := latin1 "note", properties := ColumnProperties.default, isName := by decide
      type := .qString, size := -1, admitsSize := rfl, referencedColumn := none
      foreignKey_size := nofun, foreignKey_onDelete := nofun }
  let t : TableDescription :=
    { tableName := ⟨latin1 "tblNote", by decide⟩, columns := [note]
      columns_ne := List.cons_ne_nil _ _, constraints := [] }
  have htext : t.createTableStatement
      = latin1 "CREATE TABLE tblNote (\nnote TEXT DEFAULT \n)" := by decide
  refine ⟨t, htext, ?_⟩
  rintro ⟨-, s, hread, -⟩
  rw [htext] at hread
  have hnone : CreateStmt.read
      (lexemes (latin1 "CREATE TABLE tblNote (\nnote TEXT DEFAULT \n)")) = none := by decide
  rw [hnone] at hread
  cases hread

end TableDescription

end Sqlate
