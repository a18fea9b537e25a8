/-
Sqlate/TableGrammar.lean

The grammar of PostgreSQL's CREATE TABLE, as far as it is the library that writes it.

A `CreateStmt` is a parse tree, and `CreateStmt.yield` are the lexemes of the
statement it stands for.  `CreateStmt.read` reads lexemes; it finds a tree if
and only if they are its yield, so there is one tree at most
(`CreateStmt.read_eq_some_iff`).

A column has any constraints in any order, and the elements of a table come in
any order.  A default is a constant of one lexeme.  Names are kept as they are
written; the server folds and truncates them when it looks them up.
-/
import Sqlate.Base.Readers
import Sqlate.SelectGrammar

namespace Sqlate

open Reader (Inverts Sound Reads)

/-! ### Names -/

/-- The key words that are no names of tables and columns. -/
def reservedWords : List QString :=
  ["all", "analyse", "analyze", "and", "any", "array", "as", "asc", "asymmetric", "authorization",
    "binary", "both", "case", "cast", "check", "collate", "collation", "column", "concurrently",
    "constraint", "create", "cross", "current_catalog", "current_date", "current_role",
    "current_schema", "current_time", "current_timestamp", "current_user", "default", "deferrable",
    "desc", "distinct", "do", "else", "end", "except", "false", "fetch", "for", "foreign", "freeze",
    "from", "full", "grant", "group", "having", "ilike", "in", "initially", "inner", "intersect",
    "into", "is", "isnull", "join", "lateral", "leading", "left", "like", "limit", "localtime",
    "localtimestamp", "natural", "not", "notnull", "null", "offset", "on", "only", "or", "order",
    "outer", "overlaps", "placing", "primary", "references", "returning", "right", "select",
    "session_user", "similar", "some", "symmetric", "table", "tablesample", "then", "to", "trailing",
    "true", "union", "unique", "user", "using", "variadic", "verbose", "when", "where", "window",
    "with"].map latin1

/-- A name without quotes, in upper and lower case. -/
def isIdentifier (s : QString) : Bool :=
  s.all SqlLexer.isWordChar
    && s.head?.any (fun c => !SqlLexer.isDigit c && !(c = SqlLexer.dollarSign))
    && !reservedWords.contains (CaseFolding.ascii.toLower s)

structure Identifier where
  text : QString
  isName : isIdentifier text
  deriving DecidableEq, Repr

def Identifier.ofLexeme (l : QString) : Option Identifier :=
  if h : isIdentifier l then some ⟨l, h⟩ else none

def Identifier.read : Reader QString Identifier := Reader.one Identifier.ofLexeme

/-! ### Types -/

inductive SqlType
  | varchar (length : Nat)
  | text | boolean | uuid | integer | timestampWithTimeZone | time | date | bytea | real
  deriving DecidableEq, Repr

def SqlType.yield : SqlType → List QString
  | varchar length => kw "VARCHAR" ++ kw "(" ++ [QString.number length] ++ kw ")"
  | text => kw "TEXT"
  | boolean => kw "BOOLEAN"
  | uuid => kw "UUID"
  | integer => kw "INTEGER"
  | timestampWithTimeZone => kw "TIMESTAMP" ++ kw "WITH" ++ kw "TIME" ++ kw "ZONE"
  | time => kw "TIME"
  | date => kw "DATE"
  | bytea => kw "BYTEA"
  | real => kw "REAL"

/-- A number in decimal notation, without leading zeros. -/
def numberOfLexeme (l : QString) : Option Nat :=
  let n := Nat.ofDigitChars 10 (l.map fun c => Char.ofNat c.val) 0
  if QString.number n = l then some n else none

def SqlType.read : Reader QString SqlType :=
  Reader.byWord
    [(latin1 "VARCHAR", do
        Reader.words (kw "(")
        let length ← Reader.one numberOfLexeme
        Reader.words (kw ")")
        return .varchar length),
      (latin1 "TEXT", return .text),
      (latin1 "BOOLEAN", return .boolean),
      (latin1 "UUID", return .uuid),
      (latin1 "INTEGER", return .integer),
      (latin1 "TIMESTAMP", do
        Reader.words (kw "WITH" ++ kw "TIME" ++ kw "ZONE")
        return .timestampWithTimeZone),
      (latin1 "TIME", return .time),
      (latin1 "DATE", return .date),
      (latin1 "BYTEA", return .bytea),
      (latin1 "REAL", return .real)]

/-! ### Constants -/

inductive ConstantKind
  | number
  | string
  /-- TRUE and FALSE. -/
  | truth
  deriving DecidableEq, Repr

/-- A string in quotes, with or without one of the letters in front that change how it is
read, or between dollar signs. -/
def isStringConstant : QString → Bool
  | [] => false
  | c :: s =>
      c = SqlLexer.quote
        || (c = SqlLexer.dollarSign && !s.head?.any SqlLexer.isDigit)
        || (SqlLexer.oneOf "eEbBxXnN" c && s.head? = some SqlLexer.quote)
        || (SqlLexer.oneOf "uU" c && (latin1 "&'").isPrefixOf s)

def constantKind (l : QString) : Option ConstantKind :=
  if isStringConstant l then some .string
  else if !l.isEmpty && l.all SqlLexer.isDigit then some .number
  else if CaseFolding.ascii.toLower l = latin1 "true"
      || CaseFolding.ascii.toLower l = latin1 "false" then some .truth
  else none

structure Constant where
  text : QString
  kind : ConstantKind
  isConstant : constantKind text = some kind
  deriving DecidableEq, Repr

def Constant.ofLexeme (l : QString) : Option Constant :=
  match h : constantKind l with
  | some kind => some ⟨l, kind, h⟩
  | none => none

/-- A literal of a type: numbers, TRUE and FALSE, and for all other types a string. -/
def SqlType.literalKind : SqlType → ConstantKind
  | integer | real => .number
  | boolean => .truth
  | _ => .string

/-! ### Columns -/

inductive DeleteAction
  | cascade | restrict
  deriving DecidableEq, Repr

def DeleteAction.yield : DeleteAction → List QString
  | cascade => kw "CASCADE"
  | restrict => kw "RESTRICT"

inductive ColumnConstraint
  | notNull
  | unique
  | primaryKey
  | default (value : Constant)
  | references (table column : Identifier) (onDelete : Option DeleteAction)
  deriving DecidableEq, Repr

def onDeleteWords (action : Option DeleteAction) : List QString :=
  action.elim [] fun action => kw "ON" ++ kw "DELETE" ++ action.yield

def ColumnConstraint.yield : ColumnConstraint → List QString
  | notNull => kw "NOT" ++ kw "NULL"
  | unique => kw "UNIQUE"
  | primaryKey => kw "PRIMARY" ++ kw "KEY"
  | default value => kw "DEFAULT" ++ [value.text]
  | references table column onDelete =>
      kw "REFERENCES" ++ [table.text] ++ kw "(" ++ [column.text] ++ kw ")" ++ onDeleteWords onDelete

def readOnDelete : Reader QString (Option DeleteAction) :=
  Reader.ifNext (latin1 "ON")
    (do
      Reader.words (kw "DELETE")
      Reader.byWord
        [(latin1 "CASCADE", return some .cascade), (latin1 "RESTRICT", return some .restrict)])
    (return none)

def ColumnConstraint.read : Reader QString ColumnConstraint :=
  Reader.byWord
    [(latin1 "NOT", do
        Reader.words (kw "NULL")
        return .notNull),
      (latin1 "UNIQUE", return .unique),
      (latin1 "PRIMARY", do
        Reader.words (kw "KEY")
        return .primaryKey),
      (latin1 "DEFAULT", do
        let value ← Reader.one Constant.ofLexeme
        return .default value),
      (latin1 "REFERENCES", do
        let table ← Identifier.read
        Reader.words (kw "(")
        let column ← Identifier.read
        Reader.words (kw ")")
        let onDelete ← readOnDelete
        return .references table column onDelete)]

structure ColumnDef where
  name : Identifier
  type : SqlType
  constraints : List ColumnConstraint
  deriving DecidableEq, Repr

def ColumnDef.yield (d : ColumnDef) : List QString :=
  [d.name.text] ++ d.type.yield ++ d.constraints.flatMap ColumnConstraint.yield

/-- The end of an element of a table. -/
def endsElement (ls : List QString) : Bool :=
  ls.head?.any fun l => l = latin1 "," || l = latin1 ")"

def ColumnDef.read : Reader QString ColumnDef := do
  let name ← Identifier.read
  let type ← SqlType.read
  let constraints ← Reader.many endsElement ColumnConstraint.read
  return ⟨name, type, constraints⟩

/-! ### Tables -/

inductive TableElement
  | column (d : ColumnDef)
  | unique (columns : List Identifier) (columns_ne : columns ≠ [])
  deriving DecidableEq, Repr

def TableElement.yield : TableElement → List QString
  | column d => d.yield
  | unique columns _ =>
      kw "UNIQUE" ++ kw "(" ++ commaSeparated (columns.map fun c => [c.text]) ++ kw ")"

def TableElement.read : Reader QString TableElement :=
  Reader.ifNext (latin1 "UNIQUE")
    (do
      Reader.words (kw "(")
      let columns ← Reader.separated (latin1 ",") Identifier.read
      Reader.words (kw ")")
      return .unique (columns.1 :: columns.2) (List.cons_ne_nil _ _))
    (do
      let d ← ColumnDef.read
      return .column d)

structure CreateStmt where
  name : Identifier
  elements : List TableElement
  elements_ne : elements ≠ []
  deriving DecidableEq, Repr

def CreateStmt.yield (s : CreateStmt) : List QString :=
  kw "CREATE" ++ kw "TABLE" ++ [s.name.text] ++ kw "("
    ++ commaSeparated (s.elements.map TableElement.yield) ++ kw ")"

def CreateStmt.reader : Reader QString CreateStmt := do
  Reader.words (kw "CREATE" ++ kw "TABLE")
  let name ← Identifier.read
  Reader.words (kw "(")
  let elements ← Reader.separated (latin1 ",") TableElement.read
  Reader.words (kw ")")
  return ⟨name, elements.1 :: elements.2, List.cons_ne_nil _ _⟩

/-- The tree of a statement, if there is one. -/
def CreateStmt.read (ls : List QString) : Option CreateStmt := Reader.whole CreateStmt.reader ls

/-! ### What a statement means -/

def ColumnConstraint.default? : ColumnConstraint → Option Constant
  | default value => some value
  | _ => none

/-- The table and the column that are referenced, and what happens on deletion. -/
def ColumnConstraint.references? :
    ColumnConstraint → Option (Identifier × Identifier × Option DeleteAction)
  | references table column onDelete => some (table, column, onDelete)
  | _ => none

namespace ColumnDef

def primaryKey (d : ColumnDef) : Bool := d.constraints.any fun c => c = .primaryKey

/-- A primary key is unique. -/
def unique (d : ColumnDef) : Bool := d.primaryKey || d.constraints.any fun c => c = .unique

/-- And not null. -/
def notNull (d : ColumnDef) : Bool := d.primaryKey || d.constraints.any fun c => c = .notNull

def defaults (d : ColumnDef) : List Constant := d.constraints.filterMap ColumnConstraint.default?

def references (d : ColumnDef) : List (Identifier × Identifier × Option DeleteAction) :=
  d.constraints.filterMap ColumnConstraint.references?

end ColumnDef

def TableElement.column? : TableElement → Option ColumnDef
  | column d => some d
  | unique _ _ => none

def TableElement.unique? : TableElement → Option (List Identifier)
  | column _ => none
  | unique columns _ => some columns

namespace CreateStmt

def columns (s : CreateStmt) : List ColumnDef := s.elements.filterMap TableElement.column?

/-- The columns of the constraints of the table. -/
def uniques (s : CreateStmt) : List (List Identifier) := s.elements.filterMap TableElement.unique?

end CreateStmt

/-! ### Reading -/

/-- The first character of a name is neither a digit nor a dollar sign. -/
theorem Identifier.exists_cons (i : Identifier) :
    ∃ c s, i.text = c :: s ∧ (∀ d ∈ c :: s, SqlLexer.isWordChar d)
      ∧ SqlLexer.isDigit c = false ∧ c ≠ SqlLexer.dollarSign := by
  obtain ⟨text, isName⟩ := i
  obtain ⟨⟨hword, hfirst⟩, -⟩ : (text.all SqlLexer.isWordChar = true ∧ text.head?.any
      (fun c => !SqlLexer.isDigit c && !(c = SqlLexer.dollarSign)) = true) ∧ _ := by
    simpa [isIdentifier] using isName
  cases text with
  | nil => cases hfirst
  | cons c s =>
      obtain ⟨hdigit, hdollar⟩ : SqlLexer.isDigit c = false ∧ c ≠ SqlLexer.dollarSign := by
        simpa using hfirst
      exact ⟨c, s, rfl, List.all_eq_true.1 hword, hdigit, hdollar⟩

theorem Identifier.inverts : Inverts Identifier.read (fun i => [i.text]) fun _ => True := by
  apply Inverts.one
  intro l i
  rw [Identifier.ofLexeme]
  constructor
  · intro h
    split_ifs at h
    rw [← Option.some.inj h]
  · rintro rfl
    exact dif_pos i.isName

theorem numberOfLexeme_eq_some_iff (l : QString) (n : Nat) :
    numberOfLexeme l = some n ↔ l = QString.number n := by
  rw [numberOfLexeme]
  constructor
  · intro h
    split_ifs at h with hl
    rw [← Option.some.inj h, hl]
  · rintro rfl
    have hn : Nat.ofDigitChars 10 ((QString.number n).map fun c => Char.ofNat c.val) 0 = n := by
      rw [QString.map_ofNat_number]
      exact Nat.ofDigitChars_ten_toDigits
    show (if QString.number (Nat.ofDigitChars 10 ((QString.number n).map _) 0) = _ then _ else _) = _
    rw [hn, if_pos rfl]

theorem Constant.ofLexeme_eq_some_iff (l : QString) (c : Constant) :
    Constant.ofLexeme l = some c ↔ l = c.text := by
  rw [Constant.ofLexeme]
  constructor
  · intro h
    split at h
    · rw [← Option.some.inj h]
    · cases h
  · rintro rfl
    obtain ⟨text, kind, hkind⟩ := c
    split
    case h_1 kind' h =>
      obtain rfl : kind' = kind := Option.some.inj (h.symm.trans hkind)
      rfl
    case h_2 h => exact absurd (h.symm.trans hkind) nofun

theorem SqlType.inverts : Inverts SqlType.read SqlType.yield fun _ => True := by
  have hnumber := Inverts.one numberOfLexeme_eq_some_iff
  constructor
  · apply Sound.byWord
    simp only [List.forall_mem_cons, List.not_mem_nil, false_implies, implies_true, and_true]
    refine ⟨?_, Sound.pure rfl, Sound.pure rfl, Sound.pure rfl, Sound.pure rfl, ?_, Sound.pure rfl,
      Sound.pure rfl, Sound.pure rfl, Sound.pure rfl⟩
    · apply Sound.words
      apply Sound.bind hnumber.sound
      intro length
      apply Sound.words
      exact Sound.pure rfl
    · apply Sound.words
      exact Sound.pure rfl
  · intro t
    cases t with
    | varchar length =>
        apply Reads.byWord rfl
        apply Reads.words
        apply Reads.bind (hnumber.reads length) _ fun _ _ => trivial
        exact Reads.words_pure
    | timestampWithTimeZone =>
        apply Reads.byWord rfl
        exact Reads.words_pure
    | _ => exact Reads.byWord rfl Reads.pure

theorem readOnDelete_inverts :
    Inverts readOnDelete onDeleteWords fun rest => rest.head? ≠ some (latin1 "ON") := by
  constructor
  · apply Sound.ifNext
    · apply Sound.words
      apply Sound.byWord
      simp only [List.forall_mem_cons, List.not_mem_nil, false_implies, implies_true, and_true]
      exact ⟨Sound.pure rfl, Sound.pure rfl⟩
    · exact Sound.pure rfl
  · intro action
    cases action with
    | none => exact Reads.ifNext_other Reads.pure fun rest hrest => hrest
    | some action =>
        apply Reads.ifNext_word
        apply Reads.words
        cases action with
        | cascade => exact Reads.byWord rfl Reads.pure
        | restrict => exact Reads.byWord rfl Reads.pure

theorem ColumnConstraint.inverts :
    Inverts ColumnConstraint.read ColumnConstraint.yield
      fun rest => rest.head? ≠ some (latin1 "ON") := by
  have hconstant := Inverts.one Constant.ofLexeme_eq_some_iff
  constructor
  · apply Sound.byWord
    simp only [List.forall_mem_cons, List.not_mem_nil, false_implies, implies_true, and_true]
    refine ⟨?_, Sound.pure rfl, ?_, ?_, ?_⟩
    · apply Sound.words
      exact Sound.pure rfl
    · apply Sound.words
      exact Sound.pure rfl
    · apply Sound.bind hconstant.sound
      intro value
      exact Sound.pure rfl
    · apply Sound.bind Identifier.inverts.sound
      intro table
      apply Sound.words
      apply Sound.bind Identifier.inverts.sound
      intro column
      apply Sound.words
      apply Sound.bind readOnDelete_inverts.sound
      intro onDelete
      exact Sound.pure rfl
  · intro c
    cases c with
    | notNull =>
        apply Reads.byWord rfl
        exact Reads.words_pure
    | unique => exact Reads.byWord rfl Reads.pure
    | primaryKey =>
        apply Reads.byWord rfl
        exact Reads.words_pure
    | default value =>
        apply Reads.byWord rfl
        exact Reads.bind_pure (hconstant.reads value) rfl fun _ _ => trivial
    | references table column onDelete =>
        apply Reads.byWord rfl
        apply Reads.bind (Identifier.inverts.reads table) _ fun _ _ => trivial
        apply Reads.words
        apply Reads.bind (Identifier.inverts.reads column) _ fun _ _ => trivial
        apply Reads.words
        exact Reads.bind_pure (readOnDelete_inverts.reads onDelete) rfl fun _ hrest => hrest

/-- A constraint is told from what may follow a column. -/
theorem ColumnConstraint.yield_begins (c : ColumnConstraint) (ls : List QString) :
    endsElement (c.yield ++ ls) = false ∧ (c.yield ++ ls).head? ≠ some (latin1 "ON") := by
  cases c <;> exact ⟨rfl, fun h => absurd (Option.some.inj h) (by decide)⟩

theorem ColumnDef.inverts :
    Inverts ColumnDef.read ColumnDef.yield fun rest => endsElement rest := by
  have hmany := ColumnConstraint.inverts.many (fun c ls => (c.yield_begins ls).1)
    fun c ls => (c.yield_begins ls).2
  constructor
  · apply Sound.bind Identifier.inverts.sound
    intro name
    apply Sound.bind SqlType.inverts.sound
    intro type
    apply Sound.bind hmany.sound
    intro constraints
    exact Sound.pure rfl
  · intro d
    have hyield : d.yield = [d.name.text]
        ++ (d.type.yield ++ d.constraints.flatMap ColumnConstraint.yield) := by
      rw [ColumnDef.yield, List.append_assoc]
    rw [hyield]
    apply Reads.bind (Identifier.inverts.reads d.name) _ fun _ _ => trivial
    apply Reads.bind (SqlType.inverts.reads d.type) _ fun _ _ => trivial
    apply Reads.bind_pure (hmany.reads d.constraints) rfl
    intro rest hends
    refine ⟨hends, fun hon => ?_⟩
    rw [endsElement, hon] at hends
    exact absurd hends (by decide)

/-- A name is no word of the grammar. -/
theorem Identifier.text_ne (i : Identifier) {w : QString} (hw : isIdentifier w = false) :
    i.text ≠ w := by
  rintro rfl
  exact absurd (i.isName.symm.trans hw) nofun

theorem TableElement.inverts :
    Inverts TableElement.read TableElement.yield fun rest => endsElement rest := by
  have hseparated := Identifier.inverts.separated (latin1 ",") fun _ => trivial
  constructor
  · apply Sound.ifNext
    · apply Sound.words
      apply Sound.bind hseparated.sound
      intro columns
      apply Sound.words
      exact Sound.pure rfl
    · apply Sound.bind ColumnDef.inverts.sound
      intro d
      exact Sound.pure rfl
  · intro e
    cases e with
    | column d =>
        apply Reads.ifNext_other
        · exact Reads.bind_pure (ColumnDef.inverts.reads d) rfl fun _ hrest => hrest
        · intro rest _ hhead
          exact d.name.text_ne (by decide : isIdentifier (latin1 "UNIQUE") = false)
            (Option.some.inj hhead)
    | unique columns columns_ne =>
        obtain ⟨c, cs, rfl⟩ := List.exists_cons_of_ne_nil columns_ne
        have hyield : (TableElement.unique (c :: cs) columns_ne).yield = latin1 "UNIQUE"
            :: (kw "(" ++ (commaSeparated ((c :: cs).map fun c => [c.text]) ++ kw ")")) := by
          simp [TableElement.yield]
        rw [hyield]
        apply Reads.ifNext_word
        apply Reads.words
        apply Reads.bind (hseparated.reads (c, cs))
        · exact Reads.words_pure
        · intro rest _
          exact ⟨fun hhead => absurd (Option.some.inj hhead) (by decide), trivial⟩

theorem CreateStmt.inverts : Inverts CreateStmt.reader CreateStmt.yield fun _ => True := by
  have hseparated := TableElement.inverts.separated (latin1 ",") fun _ => rfl
  constructor
  · apply Sound.words
    apply Sound.bind Identifier.inverts.sound
    intro name
    apply Sound.words
    apply Sound.bind hseparated.sound
    intro elements
    apply Sound.words
    exact Sound.pure rfl
  · rintro ⟨name, elements, elements_ne⟩
    obtain ⟨e, es, rfl⟩ := List.exists_cons_of_ne_nil elements_ne
    have hyield : CreateStmt.yield ⟨name, e :: es, elements_ne⟩ = kw "CREATE" ++ kw "TABLE"
        ++ ([name.text] ++ (kw "(" ++ (commaSeparated ((e :: es).map TableElement.yield) ++ kw ")"))) := by
      simp [CreateStmt.yield]
    rw [hyield]
    apply Reads.words
    apply Reads.bind (Identifier.inverts.reads name) _ fun _ _ => trivial
    apply Reads.words
    apply Reads.bind (hseparated.reads (e, es))
    · exact Reads.words_pure
    · intro rest _
      exact ⟨fun hhead => absurd (Option.some.inj hhead) (by decide), rfl⟩

/-- **The reader of statements undoes their yield.** -/
theorem CreateStmt.read_eq_some_iff {ls : List QString} {s : CreateStmt} :
    CreateStmt.read ls = some s ↔ ls = s.yield :=
  CreateStmt.inverts.whole trivial

example : (CreateStmt.read (SqlLexer.lexemes
    (latin1 "CREATE TABLE t (\nid UUID PRIMARY KEY,\nUNIQUE( id )\n)"))).map
      (fun s => (s.columns.map fun d => (d.type, d.notNull), s.uniques.length))
    = some ([(.uuid, true)], 1) := by decide

end Sqlate
