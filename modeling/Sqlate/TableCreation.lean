/-
Sqlate/TableCreation.lean

`createTableStatement`: from the description of a table to its statement.

A column has a C++ type, a size and flags, and refers to another column if it is
a foreign key; it has the type of that column then, and no size.  What the
assertions and static checks refuse is no `TableColumn`.  The value of a default
is that of the default constructor of the type, in the text that `QVariant` has
for it.

`TableDescription.words` are the lexemes of the statement of any description
(`yields_createTableStatement`).
-/
import Sqlate.SchemaStatements
import Sqlate.SchemaUpdater
import Sqlate.SelectReading
import Sqlate.TableGrammar

namespace Sqlate

open SqlLexer (Closed Yields Follows lexemes fresh delimits)
open SelectRequest (Leads)

/-! ### Columns -/

namespace ColumnProperties

def default : Nat := 8
def onDeleteCascade : Nat := 16
def onDeleteRestrict : Nat := 32

end ColumnProperties

namespace ColumnType

def notNull (c : ColumnType) : Bool := c.properties &&& ColumnProperties.notNull ≠ 0

def unique (c : ColumnType) : Bool := c.properties &&& ColumnProperties.unique ≠ 0

def useDefault (c : ColumnType) : Bool := c.properties &&& ColumnProperties.default ≠ 0

def onDeleteCascade (c : ColumnType) : Bool := c.properties &&& ColumnProperties.onDeleteCascade ≠ 0

def onDeleteRestrict (c : ColumnType) : Bool :=
  c.properties &&& ColumnProperties.onDeleteRestrict ≠ 0

end ColumnType

/-- The C++ types of columns. -/
inductive CppType
  | qString | bool | qUuid | int | qDateTime | qTime | qDate | qByteArray | float
  deriving DecidableEq, Repr

def sqlType : CppType → Int → QString
  | .qString, size =>
      if size > 0 then latin1 "VARCHAR(" ++ QString.numberInt size ++ latin1 ")" else latin1 "TEXT"
  | .bool, _ => latin1 "BOOLEAN"
  | .qUuid, _ => latin1 "UUID"
  | .int, _ => latin1 "INTEGER"
  | .qDateTime, _ => latin1 "TIMESTAMP WITH TIME ZONE"
  | .qTime, _ => latin1 "TIME"
  | .qDate, _ => latin1 "DATE"
  | .qByteArray, _ => latin1 "BYTEA"
  | .float, _ => latin1 "REAL"

namespace CppType

/-- The assertions of `sqlType`. -/
def admitsSize : CppType → Int → Bool
  | bool, size | qUuid, size | qDateTime, size | qTime, size | qDate, size => size = -1
  | _, _ => true

/-- `QVariant::fromValue( T() ).toString()`. -/
def defaultText : CppType → QString
  | qString => []
  | bool => latin1 "false"
  | qUuid => (⟨0⟩ : QUuid).toString
  | int => QString.numberInt 0
  | qDateTime => []
  | qTime => []
  | qDate => []
  | qByteArray => []
  | float => latin1 "0"

end CppType

/-- The column that a foreign key refers to, and its table. -/
structure ReferencedColumn where
  tableName : Identifier
  sqlName : Identifier
  deriving DecidableEq, Repr

/-- `Column`, and `ForeignKey` if there is a referenced column. -/
structure TableColumn extends ColumnType where
  isName : isIdentifier sqlName
  type : CppType
  size : Int
  admitsSize : type.admitsSize size
  referencedColumn : Option ReferencedColumn
  foreignKey_size : referencedColumn.isSome → size = -1
  foreignKey_onDelete :
    referencedColumn.isSome → ¬ (toColumnType.onDeleteCascade ∧ toColumnType.onDeleteRestrict)

namespace TableColumn

def referenceStatement (c : TableColumn) : QString :=
  match c.referencedColumn with
  | none => []
  | some r =>
      latin1 " REFERENCES " ++ r.tableName.text ++ latin1 " (" ++ r.sqlName.text ++ latin1 ")"
        ++ (if c.onDeleteCascade then latin1 " ON DELETE CASCADE"
          else if c.onDeleteRestrict then latin1 " ON DELETE RESTRICT" else [])

/-- `column_creator`. -/
def columnStatement (c : TableColumn) : QString :=
  c.sqlName ++ latin1 " " ++ sqlType c.type c.size
    ++ (if c.primaryKey then latin1 " PRIMARY KEY"
      else (if c.unique then latin1 " UNIQUE" else [])
        ++ (if c.notNull then latin1 " NOT NULL" else []))
    ++ (if c.useDefault then latin1 " DEFAULT " ++ c.type.defaultText else [])
    ++ c.referenceStatement

end TableColumn

/-! ### Tables -/

structure UniqueConstraint where
  columns : List Identifier
  columns_ne : columns ≠ []

/-- `table_constraint_creator`. -/
def UniqueConstraint.statement (u : UniqueConstraint) : QString :=
  latin1 "UNIQUE( " ++ (latin1 ", ").intercalate (u.columns.map Identifier.text) ++ latin1 " )"

structure TableDescription where
  tableName : Identifier
  columns : List TableColumn
  columns_ne : columns ≠ []
  constraints : List UniqueConstraint

namespace TableDescription

/-- The table, as the updater of the schema uses it. -/
def schemaTable (t : TableDescription) : SchemaTable where
  tableName := t.tableName.text
  columns := t.columns.map fun c => (c.sqlName, c.columnStatement)
  constraints := t.constraints.map UniqueConstraint.statement

def createTableStatement (t : TableDescription) : QString := t.schemaTable.createTableStatement

end TableDescription

/-! ### The lexemes of a column -/

/-- The type of a column in the database.  Only strings have a size there. -/
def CppType.dbType : CppType → Int → SqlType
  | qString, size => if size > 0 then .varchar size.toNat else .text
  | bool, _ => .boolean
  | qUuid, _ => .uuid
  | int, _ => .integer
  | qDateTime, _ => .timestampWithTimeZone
  | qTime, _ => .time
  | qDate, _ => .date
  | qByteArray, _ => .bytea
  | float, _ => .real

/-- What happens to a row when the row it refers to is deleted. -/
def ColumnType.onDelete (c : ColumnType) : Option DeleteAction :=
  if c.onDeleteCascade then some .cascade
  else if c.onDeleteRestrict then some .restrict
  else none

namespace TableColumn

def identifier (c : TableColumn) : Identifier := ⟨c.sqlName, c.isName⟩

def keyWords (c : TableColumn) : List QString :=
  if c.primaryKey then kw "PRIMARY" ++ kw "KEY"
  else (if c.unique then kw "UNIQUE" else []) ++ (if c.notNull then kw "NOT" ++ kw "NULL" else [])

def defaultWords (c : TableColumn) : List QString :=
  if c.useDefault then kw "DEFAULT" ++ lexemes c.type.defaultText else []

def referenceWords (c : TableColumn) : List QString :=
  c.referencedColumn.elim [] fun r =>
    kw "REFERENCES" ++ [r.tableName.text] ++ kw "(" ++ [r.sqlName.text] ++ kw ")"
      ++ onDeleteWords c.onDelete

/-- The lexemes of the statement of a column. -/
def words (c : TableColumn) : List QString :=
  [c.sqlName] ++ (c.type.dbType c.size).yield ++ c.keyWords ++ c.defaultWords ++ c.referenceWords

end TableColumn

theorem Identifier.yields (i : Identifier) : Yields i.text [i.text] := by
  obtain ⟨c, s, htext, hword, hdigit, hdollar⟩ := i.exists_cons
  rw [htext]
  exact SqlLexer.yields_name hword hdigit hdollar

theorem leads_openingParenthesis : Leads (latin1 " (") (kw "(") := ⟨by decide, by decide, fun _ => rfl⟩

theorem leads_varchar : Leads (latin1 " VARCHAR(") (kw "VARCHAR" ++ kw "(") :=
  ⟨by decide, by decide, fun _ => rfl⟩

theorem leads_references : Leads (latin1 " REFERENCES ") (kw "REFERENCES") :=
  ⟨by decide, by decide, fun _ => rfl⟩

variable {s : QString} {ls : List QString}

theorem follows_closingParenthesis (h : Follows s ls) : Follows (latin1 ")" ++ s) (kw ")" ++ ls) := by
  apply Follows.piece ⟨by decide, by decide⟩ _ h
  intro t
  cases t <;> rfl

theorem follows_varchar {size : Int} (hsize : size > 0) (h : Follows s ls) :
    Follows (latin1 " " ++ (sqlType .qString size ++ s))
      ((CppType.qString.dbType size).yield ++ ls) := by
  have hnumber : QString.numberInt size = QString.number size.toNat := by
    have habs : size.natAbs = size.toNat := by omega
    rw [QString.numberInt, if_neg (by omega), habs]
  have htype : sqlType .qString size
      = latin1 "VARCHAR(" ++ QString.numberInt size ++ latin1 ")" := if_pos hsize
  have hyield : (CppType.qString.dbType size).yield
      = kw "VARCHAR" ++ kw "(" ++ [QString.number size.toNat] ++ kw ")" :=
    congrArg SqlType.yield (if_pos hsize)
  rw [htype, hyield, hnumber]
  simp only [List.append_assoc]
  exact leads_varchar.follows (SqlLexer.yields_number size.toNat) (follows_closingParenthesis h)

theorem follows_sqlType (type : CppType) (size : Int) (h : Follows s ls) :
    Follows (latin1 " " ++ (sqlType type size ++ s)) ((type.dbType size).yield ++ ls) := by
  by_cases hsized : type = .qString ∧ size > 0
  · obtain ⟨rfl, hsize⟩ := hsized
    exact follows_varchar hsize h
  · -- the text does not depend on the size
    have hsize : sqlType type size = sqlType type (-1) ∧ type.dbType size = type.dbType (-1) := by
      cases type with
      | qString =>
          have hnot : ¬ size > 0 := fun hsize => hsized ⟨rfl, hsize⟩
          exact ⟨if_neg hnot, if_neg hnot⟩
      | _ => exact ⟨rfl, rfl⟩
    rw [hsize.1, hsize.2, ← List.append_assoc]
    have htype : Yields (latin1 " " ++ sqlType type (-1)) (type.dbType (-1)).yield := by
      cases type <;> exact ⟨by decide, by decide⟩
    apply Follows.piece htype _ h
    cases type <;> exact fun _ => rfl

namespace TableColumn

theorem follows_key (c : TableColumn) (h : Follows s ls) :
    Follows ((if c.primaryKey then latin1 " PRIMARY KEY"
      else (if c.unique then latin1 " UNIQUE" else [])
        ++ (if c.notNull then latin1 " NOT NULL" else [])) ++ s) (c.keyWords ++ ls) := by
  rw [keyWords]
  by_cases hprimary : c.primaryKey
  · rw [if_pos hprimary, if_pos hprimary]
    exact .piece ⟨by decide, by decide⟩ (fun _ => rfl) h
  · rw [if_neg hprimary, if_neg hprimary, List.append_assoc, List.append_assoc]
    have hnotNull : Follows ((if c.notNull then latin1 " NOT NULL" else []) ++ s)
        ((if c.notNull then kw "NOT" ++ kw "NULL" else []) ++ ls) :=
      .ite (fun _ => .piece ⟨by decide, by decide⟩ (fun _ => rfl) h) h
    exact .ite (fun _ => .piece ⟨by decide, by decide⟩ (fun _ => rfl) hnotNull) hnotNull

/-- Whatever it is, the text of a default is closed. -/
theorem follows_default (c : TableColumn) (h : Follows s ls) :
    Follows ((if c.useDefault then latin1 " DEFAULT " ++ c.type.defaultText else []) ++ s)
      (c.defaultWords ++ ls) := by
  refine Follows.ite (fun _ => ?_) h
  have hdefault : Yields (latin1 " DEFAULT " ++ c.type.defaultText)
      (kw "DEFAULT" ++ lexemes c.type.defaultText) := by
    cases c.type <;> exact ⟨by decide, by decide⟩
  exact .piece hdefault (fun _ => rfl) h

theorem follows_reference (c : TableColumn) (h : Follows s ls) :
    Follows (c.referenceStatement ++ s) (c.referenceWords ++ ls) := by
  rw [referenceStatement, referenceWords]
  cases c.referencedColumn with
  | none => exact h
  | some r =>
      have honDelete : Follows ((if c.onDeleteCascade then latin1 " ON DELETE CASCADE"
          else if c.onDeleteRestrict then latin1 " ON DELETE RESTRICT" else []) ++ s)
          (onDeleteWords c.onDelete ++ ls) := by
        rw [ColumnType.onDelete]
        split_ifs
        · exact .piece ⟨by decide, by decide⟩ (fun _ => rfl) h
        · exact .piece ⟨by decide, by decide⟩ (fun _ => rfl) h
        · exact h
      have hcolumn := leads_openingParenthesis.follows r.sqlName.yields
        (follows_closingParenthesis honDelete)
      have hall := leads_references.follows r.tableName.yields hcolumn
      simpa only [Option.elim, List.append_assoc] using hall

theorem yields_columnStatement (c : TableColumn) : Yields c.columnStatement c.words := by
  have hreference := c.follows_reference .nil
  have hdefault := c.follows_default hreference
  have hkey := c.follows_key hdefault
  have hname : Yields c.sqlName [c.sqlName] := c.identifier.yields
  have hall := hname.follows (follows_sqlType c.type c.size hkey)
  rw [columnStatement, words]
  simpa only [List.append_assoc, List.append_nil] using hall

end TableColumn

/-! ### The lexemes of a table -/

def UniqueConstraint.words (u : UniqueConstraint) : List QString :=
  kw "UNIQUE" ++ kw "(" ++ commaSeparated (u.columns.map fun i => [i.text]) ++ kw ")"

/-- The lexemes of the statement. -/
def TableDescription.words (t : TableDescription) : List QString :=
  kw "CREATE" ++ kw "TABLE" ++ [t.tableName.text] ++ kw "("
    ++ commaSeparated (t.columns.map TableColumn.words ++ t.constraints.map UniqueConstraint.words)
    ++ kw ")"

theorem UniqueConstraint.yields_statement (u : UniqueConstraint) : Yields u.statement u.words := by
  have hunique : fresh (latin1 "UNIQUE( ") := by decide
  have hwords : lexemes (latin1 "UNIQUE( ") = kw "UNIQUE" ++ kw "(" := by decide
  have hcomma : fresh (latin1 ", ") := by decide
  have hcolumns : Yields ((latin1 ", ").intercalate (u.columns.map Identifier.text))
      (commaSeparated (u.columns.map fun i => [i.text])) := by
    apply SqlLexer.yields_intercalate hcomma fun _ => rfl
    rw [List.forall₂_map_left_iff, List.forall₂_map_right_iff, List.forall₂_same]
    exact fun i _ => i.yields
  have hclosing : Yields (latin1 " )") (kw ")") := ⟨by decide, by decide⟩
  have hall := (hcolumns.append rfl hclosing).fresh_append hunique
  rw [hwords] at hall
  rw [statement, words, List.append_assoc, List.append_assoc _ _ (kw ")")]
  exact hall

/-- The statement of any description is closed, and these are its lexemes. -/
theorem TableDescription.yields_createTableStatement (t : TableDescription) :
    Yields t.createTableStatement t.words := by
  have hcreate : fresh (latin1 "CREATE TABLE ") := by decide
  have hwords : lexemes (latin1 "CREATE TABLE ") = kw "CREATE" ++ kw "TABLE" := by decide
  have hopening : fresh (latin1 " (\n") := by decide
  have hparenthesis : lexemes (latin1 " (\n") = kw "(" := by decide
  have hcomma : fresh (latin1 ",\n") := by decide
  have helements : Yields ((latin1 ",\n").intercalate (t.columns.map TableColumn.columnStatement
        ++ t.constraints.map UniqueConstraint.statement))
      (commaSeparated (t.columns.map TableColumn.words ++ t.constraints.map UniqueConstraint.words)) := by
    apply SqlLexer.yields_intercalate hcomma fun _ => rfl
    apply List.rel_append
    · rw [List.forall₂_map_left_iff, List.forall₂_map_right_iff, List.forall₂_same]
      exact fun c _ => c.yields_columnStatement
    · rw [List.forall₂_map_left_iff, List.forall₂_map_right_iff, List.forall₂_same]
      exact fun u _ => u.yields_statement
  have hbody := helements.closing_line.fresh_append hopening
  have hall := (t.tableName.yields.append rfl hbody).fresh_append hcreate
  have htext : t.createTableStatement = latin1 "CREATE TABLE " ++ (t.tableName.text
      ++ (latin1 " (\n" ++ ((latin1 ",\n").intercalate (t.columns.map TableColumn.columnStatement
        ++ t.constraints.map UniqueConstraint.statement) ++ latin1 "\n)"))) := by
    simp [createTableStatement, SchemaTable.createTableStatement, schemaTable, Function.comp_def]
  rw [hwords, hparenthesis] at hall
  rw [htext, words]
  simpa only [List.append_assoc] using hall

end Sqlate
