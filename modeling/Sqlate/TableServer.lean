/-
Sqlate/TableServer.lean

A server that executes CREATE TABLE and ALTER TABLE … ADD COLUMN.

A text is split into lexemes and read by the grammar, and what is read is executed on
the tables that are there.  Names are folded to lower case.  The server refuses what it
cannot read, a second table or column of a name, a second primary key, a default that
is no literal of its type, a constraint over other columns than those of the table, and
a reference to anything but a key of a table that is there.  What the rows of a table
have against a new column is known to the server alone (`rowsAdmit`).  PostgreSQL refuses more
than that: the names of system columns, a VARCHAR of length zero or of more than 10485760, and
a table whose name is that of an index.

The statement of a description is read exactly if all its defaults are literals
(`read_createTableStatement`, `read_alterStatement`): behind the word DEFAULT there is
nothing else that could be read.
-/
import Sqlate.StatementServer
import Sqlate.TableReading

namespace Sqlate

open Reader (Inverts Sound Reads)
open SqlLexer (Closed Yields Follows lexemes fresh)

/-! ### ALTER TABLE … ADD COLUMN -/

structure AlterStmt where
  table : Identifier
  column : ColumnDef
  deriving DecidableEq, Repr

namespace AlterStmt

def yield (s : AlterStmt) : List QString :=
  kw "ALTER" ++ kw "TABLE" ++ [s.table.text] ++ kw "ADD" ++ kw "COLUMN" ++ s.column.yield

/-- The column is the end of the statement. -/
def reader : Reader QString AlterStmt := do
  Reader.words (kw "ALTER" ++ kw "TABLE")
  let table ← Identifier.read
  Reader.words (kw "ADD" ++ kw "COLUMN")
  let name ← Identifier.read
  let type ← SqlType.read
  let constraints ← Reader.many List.isEmpty ColumnConstraint.read
  return ⟨table, name, type, constraints⟩

def read (ls : List QString) : Option AlterStmt := Reader.whole reader ls

theorem inverts : Inverts reader yield fun rest => rest = [] := by
  have hends : ∀ (c : ColumnConstraint) (ls : List QString), List.isEmpty (c.yield ++ ls) = false := by
    intro c ls
    cases c <;> rfl
  have hmany := ColumnConstraint.inverts.many hends fun c ls => (c.yield_begins ls).2
  constructor
  · apply Sound.words
    apply Sound.bind Identifier.inverts.sound
    intro table
    apply Sound.words
    apply Sound.bind Identifier.inverts.sound
    intro name
    apply Sound.bind SqlType.inverts.sound
    intro type
    apply Sound.bind hmany.sound
    intro constraints
    apply Sound.pure
    simp [yield, ColumnDef.yield]
  · rintro ⟨table, name, type, constraints⟩
    have hyield : yield ⟨table, name, type, constraints⟩ = kw "ALTER" ++ kw "TABLE" ++ ([table.text]
        ++ (kw "ADD" ++ kw "COLUMN" ++ ([name.text]
          ++ (type.yield ++ constraints.flatMap ColumnConstraint.yield)))) := by
      simp [yield, ColumnDef.yield]
    rw [hyield]
    apply Reads.words
    apply Reads.bind (Identifier.inverts.reads table) _ fun _ _ => trivial
    apply Reads.words
    apply Reads.bind (Identifier.inverts.reads name) _ fun _ _ => trivial
    apply Reads.bind (SqlType.inverts.reads type) _ fun _ _ => trivial
    apply Reads.bind_pure (hmany.reads constraints) rfl
    rintro _ rfl
    refine ⟨rfl, fun h => ?_⟩
    cases h

theorem read_eq_some_iff {ls : List QString} {s : AlterStmt} : read ls = some s ↔ ls = s.yield :=
  inverts.whole rfl

end AlterStmt

/-! ### The server -/

section
variable [CaseFolding]

def Identifier.folded (i : Identifier) : QString := CaseFolding.toLower i.text

/-- A table, as the server keeps it. -/
structure StoredTable where
  name : QString
  columns : List ColumnDef
  uniques : List (List QString)
  deriving DecidableEq, Repr

/-- The types whose values can be compared. -/
def SqlType.withoutLength : SqlType → SqlType
  | varchar _ => text
  | type => type

namespace StoredTable

def columnNames (t : StoredTable) : List QString := t.columns.map fun d => d.name.folded

def primaryKeys (t : StoredTable) : List ColumnConstraint :=
  (t.columns.flatMap ColumnDef.constraints).filter fun c => c = .primaryKey

/-- A column that a foreign key of a type can refer to. -/
def hasKey (t : StoredTable) (column : QString) (type : SqlType) : Bool :=
  t.columns.any fun d =>
    d.name.folded == column && d.type.withoutLength == type.withoutLength
      && (d.unique || t.uniques.contains [column])

end StoredTable

/-- The defaults and the references of a column are possible. -/
def ColumnDef.admitted (tables : List StoredTable) (d : ColumnDef) : Bool :=
  d.defaults.length ≤ 1 && d.defaults.all (fun value => value.kind = d.type.literalKind)
    && d.references.all fun r =>
      tables.any fun t => t.name == r.1.folded && t.hasKey r.2.1.folded d.type

namespace CreateStmt

def stored (s : CreateStmt) : StoredTable where
  name := s.name.folded
  columns := s.columns
  uniques := s.uniques.map fun u => u.map Identifier.folded

/-- A table may refer to itself. -/
def admitted (tables : List StoredTable) (s : CreateStmt) : Bool :=
  !(tables.map StoredTable.name).contains s.stored.name
    && distinctNames s.stored.columnNames
    && s.stored.primaryKeys.length ≤ 1
    && s.stored.uniques.all (fun u => distinctNames u && u.all s.stored.columnNames.contains)
    && s.columns.all (ColumnDef.admitted (tables ++ [s.stored]))

end CreateStmt

structure TableServer where
  rowsAdmit : StoredTable → ColumnDef → Bool

namespace TableServer

variable (S : TableServer)

def create (tables : List StoredTable) (s : CreateStmt) : Option (List StoredTable) :=
  if s.admitted tables then some (tables ++ [s.stored]) else none

/-- The tables, with a column behind those of one. -/
def widen (tables : List StoredTable) (name : QString) (d : ColumnDef) : List StoredTable :=
  tables.map fun t => if t.name == name then { t with columns := t.columns ++ [d] } else t

def addColumn (tables : List StoredTable) (s : AlterStmt) : Option (List StoredTable) :=
  (tables.find? fun t => t.name == s.table.folded).bind fun t =>
    let widened := { t with columns := t.columns ++ [s.column] }
    if !t.columnNames.contains s.column.name.folded && widened.primaryKeys.length ≤ 1
        && s.column.admitted (widen tables t.name s.column) && S.rowsAdmit t s.column then
      some (widen tables t.name s.column)
    else none

/-- The tables after a text, if it is not refused. -/
def exec (tables : List StoredTable) (text : QString) : Option (List StoredTable) :=
  if Closed text then
    match CreateStmt.read (lexemes text) with
    | some s => create tables s
    | none => (AlterStmt.read (lexemes text)).bind (S.addColumn tables)
  else none

end TableServer

end

/-! ### Behind the word DEFAULT -/

/-- The types whose default values are written as literals. -/
def CppType.isLiteral : CppType → Bool
  | bool | int | float => true
  | _ => false

theorem CppType.isLiteral_iff {type : CppType} :
    type.isLiteral = true ↔ type = .bool ∨ type = .int ∨ type = .float := by
  cases type <;> decide

/-- A default of the column, if it has one, is a literal. -/
def TableColumn.isPlain (c : TableColumn) : Bool := !c.useDefault || c.type.isLiteral

/-- A constant is behind every DEFAULT. -/
structure SuppliesDefaults (ws : List QString) : Prop where
  chain : ws.IsChain fun v w => v = latin1 "DEFAULT" → (constantKind w).isSome = true
  last : ws.getLast? ≠ some (latin1 "DEFAULT")

namespace SuppliesDefaults

variable {us ws : List QString}

theorem nil : SuppliesDefaults [] := ⟨.nil, nofun⟩

theorem append (hus : SuppliesDefaults us) (hws : SuppliesDefaults ws) : SuppliesDefaults (us ++ ws) := by
  constructor
  · refine List.isChain_append.2 ⟨hus.chain, hws.chain, ?_⟩
    rintro v hv w - rfl
    exact absurd hv hus.last
  · rw [List.getLast?_append]
    intro hlast
    rcases Option.or_eq_some_iff.1 hlast with hlast | ⟨-, hlast⟩
    · exact hws.last hlast
    · exact hus.last hlast

theorem word {w : QString} (hw : w ≠ latin1 "DEFAULT") : SuppliesDefaults [w] :=
  ⟨.singleton _, fun h => hw (Option.some.inj h)⟩

/-- Words without DEFAULT. -/
theorem of_not_mem (h : latin1 "DEFAULT" ∉ ws) : SuppliesDefaults ws := by
  induction ws with
  | nil => exact nil
  | cons w ws ih =>
      rw [List.mem_cons, not_or] at h
      exact (word (Ne.symm h.1)).append (ih h.2)

theorem commaSeparated {parts : List (List QString)} (h : ∀ part ∈ parts, SuppliesDefaults part) :
    SuppliesDefaults (commaSeparated parts) := by
  induction parts with
  | nil => exact nil
  | cons part parts ih =>
      rw [List.forall_mem_cons] at h
      cases parts with
      | nil =>
          rw [commaSeparated_singleton]
          exact h.1
      | cons part' parts =>
          rw [commaSeparated_cons_cons]
          exact h.1.append ((word (by decide)).append (ih h.2))

theorem flatMap {α : Type} {f : α → List QString} {as : List α} (h : ∀ a ∈ as, SuppliesDefaults (f a)) :
    SuppliesDefaults (as.flatMap f) := by
  induction as with
  | nil => exact nil
  | cons a as ih =>
      rw [List.forall_mem_cons] at h
      rw [List.flatMap_cons]
      exact h.1.append (ih h.2)

/-- What is behind a DEFAULT is a constant. -/
theorem constant (h : SuppliesDefaults (us ++ latin1 "DEFAULT" :: ws)) :
    ∃ w ∈ ws.head?, (constantKind w).isSome = true := by
  have hchain := (List.isChain_append.1 h.chain).2.1
  cases ws with
  | nil =>
      have hlast := h.last
      rw [List.getLast?_append] at hlast
      exact absurd rfl hlast
  | cons w ws => exact ⟨w, rfl, (List.isChain_cons_cons.1 hchain).1 rfl⟩

end SuppliesDefaults

theorem Identifier.suppliesDefaults (i : Identifier) : SuppliesDefaults [i.text] :=
  .word (i.text_ne (by decide : isIdentifier (latin1 "DEFAULT") = false))

theorem suppliesDefaults_number (n : Nat) : SuppliesDefaults [QString.number n] := by
  apply SuppliesDefaults.word
  intro hnumber
  have hmem : QChar.ofChar 'D' ∈ QString.number n := by
    rw [hnumber]
    exact List.mem_cons_self
  exact absurd (QString.val_of_mem_number hmem) (by decide)

theorem SqlType.suppliesDefaults (type : SqlType) : SuppliesDefaults type.yield := by
  cases type with
  | varchar length =>
      have hlength := suppliesDefaults_number length
      exact ((SuppliesDefaults.of_not_mem (by decide)).append hlength).append (.of_not_mem (by decide))
  | _ => exact .of_not_mem (by decide)

theorem suppliesDefaults_onDeleteWords (action : Option DeleteAction) :
    SuppliesDefaults (onDeleteWords action) := by
  rcases action with _ | _ | _ <;> exact .of_not_mem (by decide)

theorem suppliesDefaults_references (table column : Identifier) (action : Option DeleteAction) :
    SuppliesDefaults (kw "REFERENCES" ++ [table.text] ++ kw "(" ++ [column.text] ++ kw ")"
      ++ onDeleteWords action) := by
  have hreferences : SuppliesDefaults (kw "REFERENCES") := .of_not_mem (by decide)
  have hopening : SuppliesDefaults (kw "(") := .of_not_mem (by decide)
  have hclosing : SuppliesDefaults (kw ")") := .of_not_mem (by decide)
  have htable := (hreferences.append table.suppliesDefaults).append hopening
  exact ((htable.append column.suppliesDefaults).append hclosing).append
    (suppliesDefaults_onDeleteWords action)

namespace ColumnConstraint

theorem suppliesDefaults (c : ColumnConstraint) : SuppliesDefaults c.yield := by
  cases c with
  | default value =>
      have hsome : (constantKind value.text).isSome = true := by
        rw [value.isConstant]
        rfl
      refine ⟨List.isChain_cons_cons.2 ⟨fun _ => hsome, .singleton _⟩, fun hlast => ?_⟩
      have hdefault : value.text = latin1 "DEFAULT" := Option.some.inj hlast
      rw [hdefault] at hsome
      exact absurd hsome (by decide)
  | references table column onDelete => exact suppliesDefaults_references table column onDelete
  | _ => exact .of_not_mem (by decide)

end ColumnConstraint

theorem ColumnDef.suppliesDefaults (d : ColumnDef) : SuppliesDefaults d.yield :=
  (d.name.suppliesDefaults.append d.type.suppliesDefaults).append
    (.flatMap fun c _ => c.suppliesDefaults)

theorem suppliesDefaults_names (names : List Identifier) :
    SuppliesDefaults (kw "UNIQUE" ++ kw "(" ++ commaSeparated (names.map fun i => [i.text]) ++ kw ")") := by
  have hnames : SuppliesDefaults (commaSeparated (names.map fun i => [i.text])) := by
    apply SuppliesDefaults.commaSeparated
    rw [List.forall_mem_map]
    exact fun i _ => i.suppliesDefaults
  exact (SuppliesDefaults.append (.of_not_mem (by decide)) hnames).append (.of_not_mem (by decide))

theorem TableElement.suppliesDefaults (e : TableElement) : SuppliesDefaults e.yield := by
  cases e with
  | column d => exact d.suppliesDefaults
  | unique columns columns_ne => exact suppliesDefaults_names columns

/-- Every DEFAULT that the grammar can read has a constant behind it. -/
theorem CreateStmt.suppliesDefaults (s : CreateStmt) : SuppliesDefaults s.yield := by
  have helements : SuppliesDefaults (commaSeparated (s.elements.map TableElement.yield)) := by
    apply SuppliesDefaults.commaSeparated
    rw [List.forall_mem_map]
    exact fun e _ => e.suppliesDefaults
  have hname : SuppliesDefaults (kw "CREATE" ++ kw "TABLE" ++ [s.name.text]) :=
    SuppliesDefaults.append (.of_not_mem (by decide)) s.name.suppliesDefaults
  exact ((hname.append (.of_not_mem (by decide))).append helements).append (.of_not_mem (by decide))

theorem AlterStmt.suppliesDefaults (s : AlterStmt) : SuppliesDefaults s.yield := by
  have htable : SuppliesDefaults (kw "ALTER" ++ kw "TABLE" ++ [s.table.text]) :=
    SuppliesDefaults.append (.of_not_mem (by decide)) s.table.suppliesDefaults
  exact ((htable.append (.of_not_mem (by decide))).append (.of_not_mem (by decide))).append
    s.column.suppliesDefaults

/-- What may stand behind a column. -/
def endsColumn (w : Option QString) : Prop := w = none ∨ w = some (latin1 ",") ∨ w = some (latin1 ")")

theorem not_constant_of_endsColumn {w : Option QString} (hw : endsColumn w) :
    ¬∃ v ∈ w, (constantKind v).isSome = true := by
  rintro ⟨v, hv, hconstant⟩
  rcases hw with rfl | rfl | rfl
  · cases hv
  · obtain rfl := Option.some.inj hv
    exact absurd hconstant (by decide)
  · obtain rfl := Option.some.inj hv
    exact absurd hconstant (by decide)

namespace TableColumn

variable {c : TableColumn}

theorem head_lexemes_defaultText {type : CppType} (h : type.isLiteral = false) :
    lexemes type.defaultText = [] ∨ ∃ ls, lexemes type.defaultText = latin1 "\x7b" :: ls := by
  cases type with
  | qUuid => exact .inr ⟨_, rfl⟩
  | bool => cases h
  | int => cases h
  | float => cases h
  | _ => exact .inl rfl

/-- A default that is no literal has no constant behind its DEFAULT, whatever follows the column. -/
theorem isPlain_of_suppliesDefaults {us ws : List QString} (h : SuppliesDefaults (us ++ (c.words ++ ws)))
    (hend : endsColumn ws.head?) : c.isPlain = true := by
  by_contra hplain
  obtain ⟨huse, htype⟩ : c.useDefault = true ∧ c.type.isLiteral = false := by
    simpa [isPlain] using hplain
  have hwords : c.words = [c.sqlName] ++ (c.type.dbType c.size).yield ++ c.keyWords
      ++ (latin1 "DEFAULT" :: lexemes c.type.defaultText) ++ c.referenceWords := by
    rw [words, defaultWords, if_pos huse]
    rfl
  have hsplit : us ++ (c.words ++ ws) = (us ++ ([c.sqlName] ++ (c.type.dbType c.size).yield ++ c.keyWords))
      ++ latin1 "DEFAULT" :: (lexemes c.type.defaultText ++ (c.referenceWords ++ ws)) := by
    rw [hwords]
    simp only [List.append_assoc, List.cons_append, List.nil_append]
  rw [hsplit] at h
  have hconstant := h.constant
  rcases head_lexemes_defaultText htype with hnone | ⟨ls, hls⟩
  · rw [hnone, List.nil_append, referenceWords] at hconstant
    cases hreferenced : c.referencedColumn with
    | none =>
        rw [hreferenced] at hconstant
        exact not_constant_of_endsColumn hend hconstant
    | some r =>
        rw [hreferenced] at hconstant
        obtain ⟨v, hv, hconstant⟩ := hconstant
        obtain rfl : latin1 "REFERENCES" = v := Option.some.inj hv
        exact absurd hconstant (by decide)
  · rw [hls] at hconstant
    obtain ⟨v, hv, hconstant⟩ := hconstant
    obtain rfl : latin1 "\x7b" = v := Option.some.inj hv
    exact absurd hconstant (by decide)

end TableColumn

theorem exists_split_commaSeparated {parts : List (List QString)} {part : List QString}
    (hpart : part ∈ parts) : ∃ us ws, commaSeparated parts = us ++ (part ++ ws)
      ∧ (ws = [] ∨ ws.head? = some (latin1 ",")) := by
  induction parts with
  | nil => cases hpart
  | cons first parts ih =>
      cases parts with
      | nil =>
          obtain rfl := List.mem_singleton.1 hpart
          exact ⟨[], [], by rw [commaSeparated_singleton, List.append_nil]; rfl, .inl rfl⟩
      | cons second parts =>
          rw [commaSeparated_cons_cons]
          rcases List.mem_cons.1 hpart with rfl | hpart
          · exact ⟨[], _, rfl, .inr rfl⟩
          · obtain ⟨us, ws, hsplit, hws⟩ := ih hpart
            refine ⟨first ++ (kw "," ++ us), ws, ?_, hws⟩
            rw [hsplit]
            simp only [List.append_assoc]

/-! ### The statements of a description -/

namespace TableDescription

/-- All defaults are literals. -/
def isPlain (t : TableDescription) : Bool := t.columns.all TableColumn.isPlain

theorem isPlain_iff {t : TableDescription} : t.isPlain = true ↔
    ∀ c ∈ t.columns, c.useDefault → c.type = .bool ∨ c.type = .int ∨ c.type = .float := by
  rw [isPlain, List.all_eq_true]
  refine forall₂_congr fun c _ => ?_
  rw [TableColumn.isPlain, Bool.or_eq_true, Bool.not_eq_true', CppType.isLiteral_iff]
  cases c.useDefault <;> simp

/-- The grammar reads the statement exactly if all defaults are literals. -/
theorem read_createTableStatement (t : TableDescription) :
    CreateStmt.read (lexemes t.createTableStatement) = if t.isPlain then some t.stmt else none := by
  rw [t.yields_createTableStatement.lexemes]
  split
  next hplain => rw [CreateStmt.read_eq_some_iff, stmt_yield (isPlain_iff.1 hplain)]
  next hplain =>
    by_contra hread
    obtain ⟨s, hread⟩ := Option.ne_none_iff_exists'.1 hread
    rw [CreateStmt.read_eq_some_iff] at hread
    have hsupplies := s.suppliesDefaults
    rw [← hread] at hsupplies
    apply hplain
    rw [isPlain, List.all_eq_true]
    intro c hc
    have hpart : c.words ∈ t.columns.map TableColumn.words ++ t.constraints.map UniqueConstraint.words :=
      List.mem_append_left _ (List.mem_map_of_mem hc)
    obtain ⟨us, ws, hsplit, hws⟩ := exists_split_commaSeparated hpart
    have hwords : t.words = (kw "CREATE" ++ kw "TABLE" ++ [t.tableName.text] ++ kw "(" ++ us)
        ++ (c.words ++ (ws ++ kw ")")) := by
      rw [words, hsplit]
      simp only [List.append_assoc]
    rw [hwords] at hsupplies
    refine c.isPlain_of_suppliesDefaults hsupplies ?_
    rcases hws with rfl | hws
    · exact .inr (.inr rfl)
    · cases ws with
      | nil => cases hws
      | cons w ws => exact .inr (.inl hws)

/-- The lexemes of the statement that adds a column. -/
def alterWords (t : TableDescription) (c : TableColumn) : List QString :=
  kw "ALTER" ++ kw "TABLE" ++ [t.tableName.text] ++ kw "ADD" ++ kw "COLUMN" ++ c.words

theorem yields_alterStatement (t : TableDescription) (c : TableColumn) :
    Yields (t.schemaTable.alterStatement (c.sqlName, c.columnStatement)) (t.alterWords c) := by
  have halter : fresh (latin1 "ALTER TABLE ") := by decide
  have hwords : lexemes (latin1 "ALTER TABLE ") = kw "ALTER" ++ kw "TABLE" := by decide
  have hadd : fresh (latin1 " ADD COLUMN ") := by decide
  have haddWords : lexemes (latin1 " ADD COLUMN ") = kw "ADD" ++ kw "COLUMN" := by decide
  have hcolumn := c.yields_columnStatement.fresh_append hadd
  have hall := (t.tableName.yields.append rfl hcolumn).fresh_append halter
  rw [hwords, haddWords] at hall
  show Yields (latin1 "ALTER TABLE " ++ t.tableName.text ++ latin1 " ADD COLUMN " ++ c.columnStatement) _
  rw [alterWords]
  simpa only [List.append_assoc] using hall

/-- The grammar reads the statement exactly if the default is a literal. -/
theorem read_alterStatement (t : TableDescription) (c : TableColumn) :
    AlterStmt.read (lexemes (t.schemaTable.alterStatement (c.sqlName, c.columnStatement)))
      = if c.isPlain then some ⟨t.tableName, c.definition⟩ else none := by
  rw [(t.yields_alterStatement c).lexemes]
  split
  next hplain =>
    have hliteral : c.useDefault → c.type = .bool ∨ c.type = .int ∨ c.type = .float := by
      intro huse
      rw [TableColumn.isPlain, huse] at hplain
      exact CppType.isLiteral_iff.1 hplain
    rw [AlterStmt.read_eq_some_iff, AlterStmt.yield, TableColumn.definition_yield hliteral]
    rfl
  next hplain =>
    by_contra hread
    obtain ⟨s, hread⟩ := Option.ne_none_iff_exists'.1 hread
    rw [AlterStmt.read_eq_some_iff] at hread
    have hsupplies := s.suppliesDefaults
    rw [← hread] at hsupplies
    have hwords : t.alterWords c = (kw "ALTER" ++ kw "TABLE" ++ [t.tableName.text] ++ kw "ADD"
        ++ kw "COLUMN") ++ (c.words ++ []) := by
      rw [alterWords, List.append_nil]
    rw [hwords] at hsupplies
    exact hplain (c.isPlain_of_suppliesDefaults hsupplies (.inl rfl))

/-- A statement that adds a column is none that creates a table. -/
theorem read_alterStatement_eq_none (t : TableDescription) (c : TableColumn) :
    CreateStmt.read (lexemes (t.schemaTable.alterStatement (c.sqlName, c.columnStatement))) = none := by
  by_contra hread
  obtain ⟨s, hread⟩ := Option.ne_none_iff_exists'.1 hread
  rw [(t.yields_alterStatement c).lexemes, CreateStmt.read_eq_some_iff] at hread
  exact absurd (List.cons.inj hread).1 (by decide)

theorem read_createTableStatement_eq_none (t : TableDescription) :
    AlterStmt.read (lexemes t.createTableStatement) = none := by
  by_contra hread
  obtain ⟨s, hread⟩ := Option.ne_none_iff_exists'.1 hread
  rw [t.yields_createTableStatement.lexemes, AlterStmt.read_eq_some_iff] at hread
  exact absurd (List.cons.inj hread).1 (by decide)

variable [CaseFolding]

/-- What the server does when a table is created. -/
theorem exec_createTableStatement (S : TableServer) (t : TableDescription) (tables : List StoredTable) :
    S.exec tables t.createTableStatement = if t.isPlain then TableServer.create tables t.stmt else none := by
  rw [TableServer.exec, if_pos t.yields_createTableStatement.closed, read_createTableStatement,
    read_createTableStatement_eq_none]
  cases t.isPlain <;> rfl

/-- What the server does when a column is added. -/
theorem exec_alterStatement (S : TableServer) (t : TableDescription) (c : TableColumn)
    (tables : List StoredTable) :
    S.exec tables (t.schemaTable.alterStatement (c.sqlName, c.columnStatement))
      = if c.isPlain then S.addColumn tables ⟨t.tableName, c.definition⟩ else none := by
  rw [TableServer.exec, if_pos (t.yields_alterStatement c).closed, read_alterStatement_eq_none,
    read_alterStatement]
  cases c.isPlain <;> rfl

end TableDescription

end Sqlate
