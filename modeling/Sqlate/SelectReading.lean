/-
Sqlate/SelectReading.lean

The lexemes of the text of a SELECT builder.

`builtWords` are those of the text of `toString`, clause after clause, when the
names in it are closed and no label has a quote (`lexemes_toString_of_plain`).
The words up to the columns do not depend on the labels (`lexemes_toString`),
and a label with a quote is read as something that is no word of the grammar
(`labels_plain`).
-/
import Sqlate.SelectRequest
import Sqlate.ColumnLabels

namespace Sqlate

open SqlLexer (Closed Yields Follows lexemes fresh delimits)

variable {G : Phrases}

/-! ### The lexemes of the text -/

/-- Both sides of a comparison are closed. -/
structure Comparison.Closed (a : Comparison) : Prop where
  column : SqlLexer.Closed a.column
  rightHandSide : SqlLexer.Closed a.rightHandSide.toQString

/-- The lexemes of a condition. -/
def conditionWords (t : ConnTree Comparison) : List QString := (Token.write t).flatMap Token.lexemes

theorem fresh_compareOperatorToString (op : CompareOperator) :
    fresh (compareOperatorToString op).toQString := by
  cases op <;> decide

theorem lexemes_compareOperatorToString (op : CompareOperator) :
    lexemes (compareOperatorToString op).toQString = compareWords op := by
  cases op <;> decide

theorem Comparison.Closed.yields {a : Comparison} (h : a.Closed) :
    Yields a.text.toQString a.lexemes := by
  have hright := h.rightHandSide.yields.fresh_append (fresh_compareOperatorToString a.compareOp)
  rw [lexemes_compareOperatorToString] at hright
  rw [Comparison.text, SqlText.toQString_append, SqlText.toQString_append, SqlText.toQString_raw,
    Comparison.lexemes, List.append_assoc, List.append_assoc]
  apply h.column.yields.append _ hright
  cases a.compareOp <;> rfl

theorem yields_write {t : ConnTree Comparison} (ht : t.Full) (hleaf : ∀ a ∈ t.leaves, a.Closed) :
    Yields (SqlText.toQString (sqlLayout.write t)) (conditionWords t) := by
  have hrespects : Layout.Respects
      (fun x y => Yields (SqlText.toQString x) (y.flatMap Token.lexemes))
      sqlLayout (Token.punctuation.layout fun a => [Token.comparison a]) := by
    constructor
    · intro x y h
      have hopening : fresh (latin1 "(") := by decide
      have hclosing : Yields (latin1 ")") (kw ")") := ⟨by decide, by decide⟩
      show Yields (SqlText.toQString (sql "(" ++ x ++ sql ")"))
        (([Token.opening] ++ y ++ [Token.closing]).flatMap Token.lexemes)
      simp only [SqlText.toQString_append, SqlText.toQString_sql, List.flatMap_append,
        List.append_assoc]
      exact (h.append rfl hclosing).fresh_append hopening
    · intro op x y x' y' h h'
      have hfresh : fresh (SqlText.toQString (sqlLayout.separator op)) := by cases op <;> decide
      have hwords : lexemes (SqlText.toQString (sqlLayout.separator op)) =
          [Token.connective op].flatMap Token.lexemes := by cases op <;> decide
      show Yields (SqlText.toQString (x ++ sqlLayout.separator op ++ x'))
        ((y ++ [Token.connective op] ++ y').flatMap Token.lexemes)
      simp only [SqlText.toQString_append, List.flatMap_append, List.append_assoc]
      rw [← hwords]
      apply h.append _ (h'.fresh_append hfresh)
      cases op <;> rfl
  apply Layout.rel_write hrespects t ht
  intro a ha
  show Yields a.text.toQString (a.lexemes ++ [])
  rw [List.append_nil]
  exact (hleaf a ha).yields

theorem toQString_join (ts : List SqlText) (sep : SqlText) :
    (SqlText.join ts sep).toQString = sep.toQString.intercalate (ts.map SqlText.toQString) := by
  induction ts with
  | nil => rfl
  | cons t ts ih =>
      cases ts with
      | nil =>
          rw [SqlText.join_singleton, List.map_singleton, List.intercalate_singleton]
      | cons u ts =>
          rw [SqlText.join_cons_cons, SqlText.toQString_append, SqlText.toQString_append, ih]
          exact List.intercalate_cons_cons.symm

theorem toQString_ite (c : Prop) [Decidable c] (t : SqlText) :
    SqlText.toQString (if c then t else []) = if c then t.toQString else [] := by
  split <;> rfl

theorem yields_raw {s : QString} (h : Closed s) : Yields (raw s).toQString (lexemes s) := by
  rw [SqlText.toQString_raw]
  exact h.yields

/-- Closed pieces with commas between them. -/
theorem yields_join {α : Type} {as : List α} {f : α → SqlText} {words : α → List QString}
    (h : ∀ a ∈ as, Yields (f a).toQString (words a)) :
    Yields (SqlText.join (as.map f) (sql ", ")).toQString (commaSeparated (as.map words)) := by
  rw [toQString_join, SqlText.toQString_sql, List.map_map]
  have hcomma : fresh (latin1 ", ") := by decide
  apply SqlLexer.yields_intercalate hcomma fun _ => rfl
  rw [List.forall₂_map_left_iff, List.forall₂_map_right_iff, List.forall₂_same]
  exact h

namespace SelectRequest

/-- A join as it is written. -/
def joinWordsBuilt (j : Join) : List QString :=
  joinWords j.type ++ lexemes j.table ++ kw "ON" ++ conditionWords j.condition

def distinctWords (r : SelectRequest) : List QString :=
  (if r.distinct then kw "DISTINCT" else [])
    ++ if !r.distinctOn.isEmpty then
        kw "DISTINCT" ++ kw "ON" ++ kw "(" ++ lexemes r.distinctOn ++ kw ")" else []

/-- A column as it is written. -/
def targetWords (expr label : QString) : List QString :=
  lexemes expr ++ if label.isEmpty then [] else kw "AS" ++ [quotedLabel label]

def columnWords (r : SelectRequest) : List QString :=
  commaSeparated (r.columns.map fun col => targetWords col.1 col.2)

def fromWords (r : SelectRequest) : List QString :=
  if !r.table.isEmpty then kw "FROM" ++ lexemes r.table else []

def whereWords (r : SelectRequest) : List QString :=
  if r.whereCondition.hasSubConditions then kw "WHERE" ++ conditionWords r.whereTree else []

def groupWords (r : SelectRequest) : List QString :=
  if !r.groupColumns.isEmpty then
    kw "GROUP" ++ kw "BY" ++ commaSeparated (r.groupColumns.map lexemes) else []

def sortWords (r : SelectRequest) : List QString :=
  if !r.sortColumns.isEmpty then
    kw "ORDER" ++ kw "BY"
      ++ commaSeparated (r.sortColumns.map fun col => lexemes col.1 ++ orderWords col.2) else []

/-- The mode of the last table is written for all. -/
def lockWords (r : SelectRequest) : List QString :=
  if !r.locks.isEmpty then
    kw "FOR" ++ kw "UPDATE" ++ kw "OF" ++ commaSeparated (r.locks.map fun l => lexemes l.1)
      ++ if r.locks.getLast?.elim false Prod.snd then kw "NOWAIT" else []
  else []

/-- The offset that stands for no limit is not written. -/
def limitWordsBuilt (r : SelectRequest) : List QString :=
  match r.limit with
  | none => []
  | some l => if l.1 ≠ SqlSelectQueryBuilder.noLimit then limitWords l.1.toNat l.2.toNat else []

/-- The lexemes of the text of `toString`. -/
def builtWords (r : SelectRequest) : List QString :=
  kw "SELECT" ++ (r.distinctWords ++ (r.columnWords ++ (r.fromWords
    ++ (r.joinTrees.flatMap joinWordsBuilt ++ (r.whereWords ++ (r.groupWords ++ (r.sortWords
      ++ (r.lockWords ++ r.limitWordsBuilt))))))))

/-- All names are closed. -/
structure NamesClosed (r : SelectRequest) : Prop where
  distinctOn : Closed r.distinctOn
  columns : ∀ col ∈ r.columns, Closed col.1
  table : Closed r.table
  joins : ∀ j ∈ r.joinTrees, Closed j.table ∧ ∀ a ∈ j.condition.leaves, a.Closed
  whereCondition : r.whereCondition.hasSubConditions → ∀ a ∈ r.whereTree.leaves, a.Closed
  groupColumns : ∀ col ∈ r.groupColumns, Closed col
  sortColumns : ∀ col ∈ r.sortColumns, Closed col.1
  locks : ∀ l ∈ r.locks, Closed l.1

/-! ### Clauses -/

/-- The words a clause begins with. -/
structure Leads (p : QString) (ws : List QString) : Prop where
  fresh : fresh p
  lexemes : lexemes p = ws
  delimits : ∀ t, delimits (p ++ t)

/-- A clause: its words, a part of the caller, and what follows. -/
theorem Leads.follows {p s t : QString} {ws ls ms : List QString} (h : Leads p ws)
    (hs : Yields s ls) (ht : Follows t ms) : Follows (p ++ (s ++ t)) (ws ++ (ls ++ ms)) := by
  rw [← h.lexemes]
  exact ⟨h.delimits _, (hs.follows ht).fresh_append h.fresh⟩

theorem leads_from : Leads (latin1 " FROM ") (kw "FROM") := ⟨by decide, by decide, fun _ => rfl⟩

theorem leads_join (type : JoinType) : Leads (joinTypeToString type).toQString (joinWords type) := by
  cases type <;> exact ⟨by decide, by decide, fun _ => rfl⟩

theorem leads_on : Leads (latin1 " ON ") (kw "ON") := ⟨by decide, by decide, fun _ => rfl⟩

theorem leads_where : Leads (latin1 " WHERE ") (kw "WHERE") := ⟨by decide, by decide, fun _ => rfl⟩

theorem leads_groupBy : Leads (latin1 " GROUP BY ") (kw "GROUP" ++ kw "BY") :=
  ⟨by decide, by decide, fun _ => rfl⟩

theorem leads_orderBy : Leads (latin1 " ORDER BY ") (kw "ORDER" ++ kw "BY") :=
  ⟨by decide, by decide, fun _ => rfl⟩

theorem leads_forUpdateOf :
    Leads (latin1 " FOR UPDATE OF ") (kw "FOR" ++ kw "UPDATE" ++ kw "OF") :=
  ⟨by decide, by decide, fun _ => rfl⟩

theorem leads_offset : Leads (latin1 " OFFSET ") (kw "OFFSET") := ⟨by decide, by decide, fun _ => rfl⟩

theorem leads_limit : Leads (latin1 " LIMIT ") (kw "LIMIT") := ⟨by decide, by decide, fun _ => rfl⟩

section
variable {r : SelectRequest} {b : SqlSelectQueryBuilder} {t : QString} {ms : List QString}

theorem follows_limitFrom (offset length : UInt32) :
    Follows (SqlText.toQString (if offset ≠ SqlSelectQueryBuilder.noLimit then
      sql " OFFSET " ++ raw (QString.number offset.toNat)
        ++ sql " LIMIT " ++ raw (QString.number length.toNat) else []))
      (if offset ≠ SqlSelectQueryBuilder.noLimit then limitWords offset.toNat length.toNat else []) := by
  rw [toQString_ite]
  by_cases hoffset : offset ≠ SqlSelectQueryBuilder.noLimit
  · rw [if_pos hoffset, if_pos hoffset]
    have htail := leads_limit.follows (SqlLexer.yields_number length.toNat) .nil
    have hall := leads_offset.follows (SqlLexer.yields_number offset.toNat) htail
    simpa [limitWords] using hall
  · rw [if_neg hoffset, if_neg hoffset]
    exact .nil

theorem follows_limit (h : Holds r b) :
    Follows (SqlText.toQString (if b.limitOffset ≠ SqlSelectQueryBuilder.noLimit then
      sql " OFFSET " ++ raw (QString.number b.limitOffset.toNat)
        ++ sql " LIMIT " ++ raw (QString.number b.limitLength.toNat) else [])) r.limitWordsBuilt := by
  have hlimit := h.limit
  have hfollows := follows_limitFrom b.limitOffset b.limitLength
  rw [limitWordsBuilt]
  cases hr : r.limit with
  | none =>
      rw [hr] at hlimit
      rw [(Prod.mk.inj hlimit).1]
      exact .nil
  | some l =>
      rw [hr] at hlimit
      obtain ⟨hoffset, hlength⟩ := Prod.mk.inj hlimit
      rw [hoffset, hlength] at hfollows ⊢
      exact hfollows

/-- The words of a lock clause. -/
def lockTablesWords (tables : List QString) (noWait : Bool) : List QString :=
  if !tables.isEmpty then
    kw "FOR" ++ kw "UPDATE" ++ kw "OF" ++ commaSeparated (tables.map lexemes)
      ++ if noWait then kw "NOWAIT" else []
  else []

theorem follows_lockTables {tables : List QString} (hnames : ∀ table ∈ tables, Closed table)
    (noWait : Bool) (ht : Follows t ms) :
    Follows (SqlText.toQString (if !tables.isEmpty then
      sql " FOR UPDATE OF " ++ SqlText.join (tables.map raw) (sql ", ")
        ++ (if noWait then sql " NOWAIT" else []) else []) ++ t)
      (lockTablesWords tables noWait ++ ms) := by
  have htables : Yields (SqlText.join (tables.map raw) (sql ", ")).toQString
      (commaSeparated (tables.map lexemes)) :=
    yields_join fun table htable => yields_raw (hnames table htable)
  have hnoWait : Yields (latin1 " NOWAIT") (kw "NOWAIT") := ⟨by decide, by decide⟩
  have hmode : Follows ((if noWait then latin1 " NOWAIT" else []) ++ t)
      ((if noWait then kw "NOWAIT" else []) ++ ms) :=
    .ite (fun _ => ⟨rfl, hnoWait.follows ht⟩) ht
  have hclause := leads_forUpdateOf.follows htables hmode
  rw [toQString_ite, lockTablesWords]
  apply SqlLexer.Follows.ite _ ht
  intro _
  simp only [SqlText.toQString_append, SqlText.toQString_sql, toQString_ite, List.append_assoc]
  simpa only [List.append_assoc] using hclause

theorem lockWords_eq : r.lockWords =
    lockTablesWords (r.locks.map Prod.fst) (r.locks.getLast?.elim false Prod.snd) := by
  rw [lockWords, lockTablesWords, List.isEmpty_map, List.map_map]
  rfl

theorem follows_locks (h : Holds r b) (hnames : r.NamesClosed) (ht : Follows t ms) :
    Follows (SqlText.toQString (if !b.lockTablesForUpdate.isEmpty then
      sql " FOR UPDATE OF " ++ SqlText.join (b.lockTablesForUpdate.map raw) (sql ", ")
        ++ (if b.lockNoWait then sql " NOWAIT" else []) else []) ++ t) (r.lockWords ++ ms) := by
  have htables : ∀ table ∈ b.lockTablesForUpdate, Closed table := by
    rw [h.lockTablesForUpdate, List.forall_mem_map]
    exact hnames.locks
  rw [lockWords_eq, ← h.lockNoWait, ← h.lockTablesForUpdate]
  exact follows_lockTables htables b.lockNoWait ht

theorem follows_sort (h : Holds r b) (hnames : r.NamesClosed) (ht : Follows t ms) :
    Follows (SqlText.toQString (if !b.sortColumns.isEmpty then
      sql " ORDER BY " ++ SqlText.join (b.sortColumns.map SqlSelectQueryBuilder.sortColumnToString)
        (sql ", ") else []) ++ t) (r.sortWords ++ ms) := by
  have hcolumns : Yields (SqlText.join (r.sortColumns.map SqlSelectQueryBuilder.sortColumnToString)
      (sql ", ")).toQString
      (commaSeparated (r.sortColumns.map fun col => lexemes col.1 ++ orderWords col.2)) := by
    apply yields_join
    intro col hcol
    have horder : Yields (orderToString col.2).toQString (orderWords col.2) := by
      cases col.2 <;> exact ⟨by decide, by decide⟩
    rw [SqlSelectQueryBuilder.sortColumnToString, SqlText.toQString_append, SqlText.toQString_raw]
    apply (hnames.sortColumns col hcol).yields.append _ horder
    cases col.2 <;> rfl
  have hclause := leads_orderBy.follows hcolumns ht
  rw [toQString_ite, sortWords, h.sortColumns]
  apply SqlLexer.Follows.ite _ ht
  intro _
  simp only [SqlText.toQString_append, SqlText.toQString_sql, List.append_assoc]
  simpa only [List.append_assoc] using hclause

theorem follows_group (h : Holds r b) (hnames : r.NamesClosed) (ht : Follows t ms) :
    Follows (SqlText.toQString (if !b.groupColumns.isEmpty then
      sql " GROUP BY " ++ SqlText.join (b.groupColumns.map raw) (sql ", ") else []) ++ t)
      (r.groupWords ++ ms) := by
  have hcolumns : Yields (SqlText.join (r.groupColumns.map raw) (sql ", ")).toQString
      (commaSeparated (r.groupColumns.map lexemes)) :=
    yields_join fun col hcol => yields_raw (hnames.groupColumns col hcol)
  have hclause := leads_groupBy.follows hcolumns ht
  rw [toQString_ite, groupWords, h.groupColumns]
  apply SqlLexer.Follows.ite _ ht
  intro _
  simp only [SqlText.toQString_append, SqlText.toQString_sql, List.append_assoc]
  simpa only [List.append_assoc] using hclause

theorem follows_where (h : Holds r b) (hnames : r.NamesClosed) (ht : Follows t ms) :
    Follows ((b.whereTextFrom (b.nextNumber
        + (b.joins.flatMap fun j => j.condition.boundValues).length)).toQString ++ t)
      (r.whereWords ++ ms) := by
  rw [SqlConditionalQueryBuilderBase.whereTextFrom, toQString_ite, whereWords, h.nextNumber,
    Nat.zero_add, h.whereCondition, h.joins]
  apply SqlLexer.Follows.ite _ ht
  intro hwhere
  have hcondition := yields_write (SqlCondition.toTree_full _ r.whereCondition)
    (hnames.whereCondition hwhere)
  rw [textFrom_eq_write, SqlText.toQString_append, SqlText.toQString_sql, List.append_assoc,
    List.append_assoc]
  exact leads_where.follows hcondition ht

theorem follows_joins {js : List JoinInfo} {n : Nat}
    (hnames : ∀ j ∈ joinsFrom n js, Closed j.table ∧ ∀ a ∈ j.condition.leaves, a.Closed)
    (ht : Follows t ms) :
    Follows ((SqlSelectQueryBuilder.joinsTextFrom n js).toQString ++ t)
      ((joinsFrom n js).flatMap joinWordsBuilt ++ ms) := by
  induction js generalizing n with
  | nil => exact ht
  | cons j js ih =>
      rw [joinsFrom, List.forall_mem_cons] at hnames
      have hrest := ih hnames.2
      have hcondition := yields_write (j.condition.toTree_full n) hnames.1.2
      have hclause := (leads_join j.type).follows hnames.1.1.yields
        (leads_on.follows hcondition hrest)
      rw [SqlSelectQueryBuilder.joinsTextFrom, joinsFrom, List.flatMap_cons, joinWordsBuilt,
        textFrom_eq_write]
      simp only [SqlText.toQString_append, SqlText.toQString_sql, SqlText.toQString_raw,
        List.append_assoc]
      exact hclause

theorem follows_tailClauses (h : Holds r b) (hnames : r.NamesClosed) :
    Follows b.tailClauses.toQString
      (r.groupWords ++ (r.sortWords ++ (r.lockWords ++ r.limitWordsBuilt))) := by
  rw [SqlSelectQueryBuilder.tailClauses, SqlText.toQString_append, SqlText.toQString_append,
    SqlText.toQString_append, List.append_assoc, List.append_assoc]
  exact follows_group h hnames (follows_sort h hnames (follows_locks h hnames (follows_limit h)))

/-- The text behind the columns. -/
def bodyText (b : SqlSelectQueryBuilder) : SqlText :=
  (if !b.table.isEmpty then sql " FROM " ++ raw b.table else [])
    ++ SqlSelectQueryBuilder.joinsTextFrom b.nextNumber b.joins
    ++ b.whereTextFrom (b.nextNumber + (b.joins.flatMap fun j => j.condition.boundValues).length)
    ++ b.tailClauses

theorem follows_bodyText (h : Holds r b) (hnames : r.NamesClosed) :
    Follows (bodyText b).toQString
      (r.fromWords ++ (r.joinTrees.flatMap joinWordsBuilt ++ (r.whereWords ++ (r.groupWords
        ++ (r.sortWords ++ (r.lockWords ++ r.limitWordsBuilt)))))) := by
  have hjoins := follows_joins hnames.joins (follows_where h hnames (follows_tailClauses h hnames))
  have hjoinsText : SqlSelectQueryBuilder.joinsTextFrom b.nextNumber b.joins =
      SqlSelectQueryBuilder.joinsTextFrom 0 r.joins := by rw [h.nextNumber, h.joins]
  rw [bodyText, SqlText.toQString_append, SqlText.toQString_append, SqlText.toQString_append,
    List.append_assoc, List.append_assoc, hjoinsText, toQString_ite, fromWords, h.table]
  apply SqlLexer.Follows.ite _ hjoins
  intro _
  rw [SqlText.toQString_append, SqlText.toQString_sql, List.append_assoc, List.append_assoc]
  exact leads_from.follows (yields_raw hnames.table) hjoins

/-- The text of the columns. -/
def columnsText (cols : List (QString × QString)) : QString :=
  (SqlText.join (cols.map SqlSelectQueryBuilder.columnToString) (sql ", ")).toQString

theorem lexemes_ite {c : Prop} [Decidable c] {p : QString} {ws : List QString}
    (hp : ∀ t, lexemes (p ++ t) = ws ++ lexemes t) (t : QString) :
    lexemes ((if c then p else []) ++ t) = (if c then ws else []) ++ lexemes t := by
  split
  · exact hp t
  · rfl

/-- In front of the columns, all words are those of the request. -/
theorem lexemes_toString (h : Holds r b) (hnames : r.NamesClosed) :
    lexemes b.toString.1.toQString =
      kw "SELECT" ++ (r.distinctWords
        ++ lexemes (columnsText r.columns ++ (bodyText b).toQString)) := by
  have htext : b.toString.1.toQString = latin1 "SELECT "
      ++ ((if r.distinct then latin1 "DISTINCT " else [])
        ++ ((if !r.distinctOn.isEmpty then
            latin1 "DISTINCT ON(" ++ (r.distinctOn ++ latin1 ") ") else [])
          ++ (columnsText r.columns ++ (bodyText b).toQString))) := by
    rw [SqlSelectQueryBuilder.toString_eq, SqlSelectQueryBuilder.textFrom,
      SqlSelectQueryBuilder.selectClause, bodyText, columnsText, h.distinct, h.distinctOn, h.columns]
    simp only [SqlText.toQString_append, SqlText.toQString_sql, SqlText.toQString_raw,
      toQString_ite, List.append_assoc]
  have hselect : ∀ t, lexemes (latin1 "SELECT " ++ t) = kw "SELECT" ++ lexemes t :=
    SqlLexer.lexemes_append_of_fresh (by decide)
  have hdistinct : ∀ t, lexemes (latin1 "DISTINCT " ++ t) = kw "DISTINCT" ++ lexemes t :=
    SqlLexer.lexemes_append_of_fresh (by decide)
  have hdistinctOn : ∀ t, lexemes (latin1 "DISTINCT ON(" ++ (r.distinctOn ++ latin1 ") ") ++ t) =
      kw "DISTINCT" ++ kw "ON" ++ kw "(" ++ lexemes r.distinctOn ++ kw ")" ++ lexemes t := by
    intro t
    have hopening : fresh (latin1 "DISTINCT ON(") := by decide
    have hclosing : ∀ t, lexemes (latin1 ") " ++ t) = kw ")" ++ lexemes t :=
      SqlLexer.lexemes_append_of_fresh (by decide)
    rw [List.append_assoc, List.append_assoc, SqlLexer.lexemes_append_of_fresh hopening,
      SqlLexer.lexemes_append_of_delimits hnames.distinctOn rfl, hclosing]
    simp only [List.append_assoc]
    rfl
  rw [htext, hselect, lexemes_ite hdistinct, lexemes_ite hdistinctOn, distinctWords]
  simp only [List.append_assoc]

end

/-! ### Labels -/

theorem flatMap_double {label : QString} (hlabel : SqlLexer.doubleQuote ∉ label) :
    label.flatMap (fun c => if c = SqlLexer.doubleQuote then [c, c] else [c]) = label := by
  induction label with
  | nil => rfl
  | cons c label ih =>
      rw [List.mem_cons, not_or] at hlabel
      rw [List.flatMap_cons, if_neg (Ne.symm hlabel.1), ih hlabel.2]
      rfl

theorem quotedLabel_of_not_mem {label : QString} (hlabel : SqlLexer.doubleQuote ∉ label) :
    quotedLabel label = SqlLexer.doubleQuote :: (label ++ [SqlLexer.doubleQuote]) := by
  rw [quotedLabel, flatMap_double hlabel]

theorem yields_column {name label : QString} (hname : Closed name)
    (hlabel : SqlLexer.doubleQuote ∉ label) :
    Yields (SqlSelectQueryBuilder.columnToString (name, label)).toQString
      (targetWords name label) := by
  by_cases hempty : label = []
  · subst hempty
    show Yields (raw name).toQString (lexemes name ++ [])
    rw [List.append_nil]
    exact yields_raw hname
  · have hclause : SqlSelectQueryBuilder.labelClause label =
        SqlLexer.doubleQuote :: (label ++ [SqlLexer.doubleQuote]) := by
      rw [SqlSelectQueryBuilder.labelClause, SqlSelectQueryBuilder.quotedAs_of_not_mem hlabel]
      rfl
    have has : Leads (latin1 " AS ") (kw "AS") := ⟨by decide, by decide, fun _ => rfl⟩
    have hfollows := has.follows (SqlLexer.yields_quoted hlabel) .nil
    rw [SqlSelectQueryBuilder.toQString_columnToString hempty, hclause, targetWords,
      quotedLabel_of_not_mem hlabel, List.append_assoc]
    simpa [hempty] using hname.yields.follows hfollows

/-- A label with a quote is no word of the grammar, wherever it ends. -/
theorem lexemes_column_of_mem {name label : QString} (hname : Closed name)
    (hlabel : SqlLexer.doubleQuote ∈ label) (t : QString) (ws : List QString) :
    lexemes ((SqlSelectQueryBuilder.columnToString (name, label)).toQString ++ t) ≠
      targetWords name label ++ ws := by
  intro h
  obtain ⟨u, v, rfl, hu⟩ := List.eq_append_cons_of_mem hlabel
  have hne : u ++ SqlLexer.doubleQuote :: v ≠ [] := by simp
  have hempty : (u ++ SqlLexer.doubleQuote :: v).isEmpty = false := by simp
  have hbackslash : SqlLexer.doubleQuote ∉ u ++ [QChar.ofChar '\\'] := by
    rw [List.mem_append, not_or]
    exact ⟨hu, by decide⟩
  have hquoted : SqlSelectQueryBuilder.labelClause (u ++ SqlLexer.doubleQuote :: v) ++ t =
      SqlLexer.doubleQuote :: ((u ++ [QChar.ofChar '\\']) ++ (SqlLexer.doubleQuote
        :: (SqlSelectQueryBuilder.quotedAs v ++ SqlLexer.doubleQuote :: t))) := by
    rw [SqlSelectQueryBuilder.labelClause_append]
    show SqlLexer.doubleQuote :: (SqlSelectQueryBuilder.quotedAs (u ++ SqlLexer.doubleQuote :: v)
      ++ SqlLexer.doubleQuote :: t) = _
    rw [SqlSelectQueryBuilder.quotedAs_append_quote hu, List.append_assoc, List.append_assoc]
    rfl
  have hlabelWord : quotedLabel (u ++ SqlLexer.doubleQuote :: v) =
      SqlLexer.doubleQuote :: (u ++ (SqlLexer.doubleQuote :: (SqlLexer.doubleQuote :: v.flatMap
        (fun c => if c = SqlLexer.doubleQuote then [c, c] else [c]) ++ [SqlLexer.doubleQuote]))) := by
    rw [quotedLabel, List.flatMap_append, List.flatMap_cons, if_pos rfl, flatMap_double hu,
      List.append_assoc]
    rfl
  have has : fresh (latin1 " AS ") := by decide
  rw [SqlSelectQueryBuilder.toQString_columnToString hne, List.append_assoc, List.append_assoc,
    SqlLexer.lexemes_append_of_delimits hname rfl, SqlLexer.lexemes_append_of_fresh has, hquoted,
    SqlLexer.lexemes_quoted hbackslash, targetWords, if_neg (by simp [hempty]), List.append_assoc,
    List.append_assoc, List.append_assoc] at h
  have htail : kw "AS" ++ _ = kw "AS" ++ _ := List.append_cancel_left h
  obtain ⟨hword, -⟩ := List.cons.inj (List.append_cancel_left htail)
  rw [hlabelWord] at hword
  have hchar := List.append_cancel_left (List.cons.inj hword).2
  exact absurd (List.cons.inj hchar).1 (by decide)

/-- If the columns are what they should be, no label has a quote. -/
theorem labels_plain {cols : List (QString × QString)} (hnames : ∀ col ∈ cols, Closed col.1)
    {t : QString} {ws : List QString}
    (h : lexemes (columnsText cols ++ t) =
      commaSeparated (cols.map fun col => targetWords col.1 col.2) ++ ws) :
    ∀ col ∈ cols, SqlLexer.doubleQuote ∉ col.2 := by
  induction cols with
  | nil => intro col hcol; cases hcol
  | cons col cols ih =>
      rw [List.forall_mem_cons] at hnames ⊢
      have hhead : ∀ {t ws}, lexemes ((SqlSelectQueryBuilder.columnToString col).toQString ++ t) =
          targetWords col.1 col.2 ++ ws → SqlLexer.doubleQuote ∉ col.2 :=
        fun hwords hlabel => lexemes_column_of_mem hnames.1 hlabel _ _ hwords
      cases cols with
      | nil =>
          have htext : columnsText [col] = (SqlSelectQueryBuilder.columnToString col).toQString := by
            rw [columnsText, List.map_singleton, SqlText.join_singleton]
          rw [htext, List.map_singleton, commaSeparated_singleton] at h
          exact ⟨hhead h, fun _ hcol => by cases hcol⟩
      | cons col' cols =>
          have htext : columnsText (col :: col' :: cols) =
              (SqlSelectQueryBuilder.columnToString col).toQString
                ++ (latin1 ", " ++ columnsText (col' :: cols)) := by
            rw [columnsText, List.map_cons, List.map_cons, SqlText.join_cons_cons,
              SqlText.toQString_append, SqlText.toQString_append, List.append_assoc]
            rfl
          have hwords : commaSeparated ((col :: col' :: cols).map fun col => targetWords col.1 col.2) =
              targetWords col.1 col.2 ++ (kw ","
                ++ commaSeparated ((col' :: cols).map fun col => targetWords col.1 col.2)) :=
            commaSeparated_cons_cons _ _ _
          rw [htext, hwords, List.append_assoc, List.append_assoc, List.append_assoc] at h
          have hplain := hhead h
          have hcomma : ∀ t, lexemes (latin1 ", " ++ t) = kw "," ++ lexemes t :=
            SqlLexer.lexemes_append_of_fresh (by decide)
          have hcolumn := yields_column hnames.1 hplain
          rw [SqlLexer.lexemes_append_of_delimits hcolumn.closed rfl, hcolumn.lexemes, hcomma] at h
          exact ⟨hplain, ih hnames.2 (List.append_cancel_left (List.append_cancel_left h))⟩

/-- The lexemes of the whole text. -/
theorem lexemes_toString_of_plain {r : SelectRequest} {b : SqlSelectQueryBuilder} (h : Holds r b)
    (hnames : r.NamesClosed) (hlabels : ∀ col ∈ r.columns, SqlLexer.doubleQuote ∉ col.2) :
    lexemes b.toString.1.toQString = r.builtWords := by
  have hcolumns : Yields (columnsText r.columns) r.columnWords :=
    yields_join fun col hcol => yields_column (hnames.columns col hcol) (hlabels col hcol)
  rw [lexemes_toString h hnames, (hcolumns.follows (follows_bodyText h hnames)).lexemes]
  rfl

end SelectRequest

end Sqlate
