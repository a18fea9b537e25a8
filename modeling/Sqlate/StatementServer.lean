/-
Sqlate/StatementServer.lean

INSERT, UPDATE and DELETE on the side of the server.

`Modification.read` reads the words of a statement, as far as it is the library
that writes it, and `Modification.execute` is what the statement does to the rows
of all tables.  What the server brings along is a parameter (`Server`): its
operators, LOWER, its time, the defaults of the columns, and which tables inherit
from which.  A statement is refused if it is none, if it names a column twice, or
if an operand of its condition is neither a column of the table nor a value.

Names are folded to lower case; a value that is not bound is NULL.  PostgreSQL
refuses more, such as IS before a value; which texts can be prepared is up to the
driver.
-/
import Sqlate.PreparedQuery
import Sqlate.TableGrammar

namespace Sqlate

open Reader (Inverts Sound Reads)

/-! ### Names -/

/-- A name of a table or a column that is one word. -/
def isPlainName (w : QString) : Bool := isName w && isIdentifier w

structure PlainName where
  text : QString
  isPlain : isPlainName text
  deriving DecidableEq, Repr

namespace PlainName

def ofWord (w : QString) : Option PlainName := if h : isPlainName w then some ⟨w, h⟩ else none

def read : Reader QString PlainName := Reader.one ofWord

/-- The name under which the server keeps what is called so. -/
def folded (n : PlainName) : QString := lower n.text

end PlainName

/-- The column of a table that a word refers to, with or without the table in front. -/
def columnOf (table w : QString) : Option QString :=
  let qualifier := lower table ++ latin1 "."
  let column := if qualifier.isPrefixOf (lower w) then w.drop qualifier.length else w
  if isName w && isPlainName column then some (lower column) else none

theorem isName_of_columnOf {table w c : QString} (h : columnOf table w = some c) : isName w = true := by
  simp only [columnOf, Bool.and_eq_true, Option.ite_none_right_eq_some] at h
  exact h.1.1

/-- The columns that words refer to. -/
structure Scope where
  column : QString → Option QString
  isName_of_column : ∀ {w c}, column w = some c → isName w = true

def Scope.table (table : QString) : Scope := ⟨columnOf table, isName_of_columnOf⟩

/-! ### Statements -/

/-- The new value of a column. -/
inductive Expression
  | parameter (n : Nat)
  | now
  | default
  deriving DecidableEq, Repr

def Expression.yield : Expression → List QString
  | parameter n => [placeholderName n]
  | now => kw "now" ++ kw "(" ++ kw ")"
  | default => kw "DEFAULT"

def parameterOfWord : QString → Option Nat
  | [] => none
  | c :: s => if c = QChar.ofChar ':' then numberOfLexeme s else none

def Expression.read : Reader QString Expression :=
  Reader.ifNext (latin1 "now")
    (do
      Reader.words (kw "(" ++ kw ")")
      return .now)
    (Reader.ifNext (latin1 "DEFAULT") (return .default) do
      let n ← Reader.one parameterOfWord
      return .parameter n)

/-- A column and its new value. -/
abbrev Assignment := PlainName × Expression

def assignmentYield (a : Assignment) : List QString := [a.1.text] ++ kw "=" ++ a.2.yield

def readAssignment : Reader QString Assignment := do
  let column ← PlainName.read
  Reader.words (kw "=")
  let value ← Expression.read
  return (column, value)

/-- A condition, with nothing behind it. -/
def readCondition : Reader QString (ConnExpr ReadComparison) := fun ls =>
  (conditionGrammar.read ls).map fun e => (e, [])

def readWhere : Reader QString (Option (ConnExpr ReadComparison)) :=
  Reader.ifNext (latin1 "WHERE")
    (do
      let condition ← readCondition
      return some condition)
    (return none)

/-- Without the tables that inherit. -/
def readOnly : Reader QString Bool := Reader.ifNext (latin1 "ONLY") (return true) (return false)

def onlyWords (only : Bool) : List QString := if only then kw "ONLY" else []

inductive Modification
  | insertDefaults (table : PlainName)
  | insert (table : PlainName) (columns : List PlainName) (values : List Expression)
  | update (only : Bool) (table : PlainName) (assignments : List Assignment)
      (condition : Option (ConnExpr ReadComparison))
  | delete (only : Bool) (table : PlainName) (condition : Option (ConnExpr ReadComparison))

namespace Modification

def readInsert : Reader QString Modification := do
  Reader.words (kw "INTO")
  let table ← PlainName.read
  Reader.ifNext (latin1 "DEFAULT")
    (do
      Reader.words (kw "VALUES")
      return .insertDefaults table)
    (do
      Reader.words (kw "(")
      let columns ← Reader.separated (latin1 ",") PlainName.read
      Reader.words (kw ")" ++ kw "VALUES" ++ kw "(")
      let values ← Reader.separated (latin1 ",") Expression.read
      Reader.words (kw ")")
      return .insert table (columns.1 :: columns.2) (values.1 :: values.2))

def readUpdate : Reader QString Modification := do
  let only ← readOnly
  let table ← PlainName.read
  Reader.words (kw "SET")
  let assignments ← Reader.separated (latin1 ",") readAssignment
  let condition ← readWhere
  return .update only table (assignments.1 :: assignments.2) condition

def readDelete : Reader QString Modification := do
  Reader.words (kw "FROM")
  let only ← readOnly
  let table ← PlainName.read
  let condition ← readWhere
  return .delete only table condition

def reader : Reader QString Modification :=
  Reader.byWord
    [(latin1 "INSERT", readInsert), (latin1 "UPDATE", readUpdate), (latin1 "DELETE", readDelete)]

/-- The statement that the words are, if they are one. -/
def read (ws : List QString) : Option Modification := Reader.whole reader ws

end Modification

/-! ### Execution -/

/-- What the server brings along. -/
structure Server where
  compare : CompareOperator → QVariant → QVariant → Truth
  /-- LOWER. -/
  toLower : QVariant → QVariant
  now : QVariant
  /-- The tables that inherit from a table, directly or not. -/
  subTables : QString → List QString
  default : QString → QString → QVariant

/-- A row: what its columns hold. -/
abbrev Record := QString → QVariant

/-- The rows of all tables, each with the name of its table. -/
abbrev Rows := List (QString × Record)

/-- What is bound to the placeholders. -/
abbrev Parameters := QString → Option QVariant

/-- One side of a comparison. -/
inductive Operand
  | column (name : QString)
  | lowerColumn (name : QString)
  | parameter (name : QString)
  | now
  | null
  deriving DecidableEq, Repr

/-- A placeholder: a colon, and letters, digits and `_` behind it. -/
def isPlaceholder : QString → Bool
  | [] => false
  | c :: s =>
      c = QChar.ofChar ':' && !s.isEmpty
        && s.all fun c => SqlLexer.isDigit c || (0x41 ≤ c.val && c.val ≤ 0x5A)
          || (0x61 ≤ c.val && c.val ≤ 0x7A) || c.val = 0x5F

/-- What the words of an operand are. -/
def operandOf (scope : Scope) : List QString → Option Operand
  | [w] =>
      if isPlaceholder w then some (.parameter w)
      else if lower w = latin1 "null" then some .null
      else (scope.column w).map .column
  | [f, _, _] => if lower f = latin1 "now" then some .now else none
  | [f, _, w, _] => if lower f = latin1 "lower" then (scope.column w).map .lowerColumn else none
  | _ => none

/-- Both sides are columns or values. -/
def ReadComparison.resolves (scope : Scope) (a : ReadComparison) : Bool :=
  (operandOf scope a.left).isSome && (operandOf scope a.right).isSome

/-- No two names are the same. -/
def distinctNames : List QString → Bool
  | [] => true
  | w :: ws => !ws.contains w && distinctNames ws

theorem distinctNames_iff {ws : List QString} : distinctNames ws = true ↔ ws.Nodup := by
  induction ws with
  | nil => exact iff_of_true rfl List.nodup_nil
  | cons w ws ih =>
      rw [distinctNames, Bool.and_eq_true, ih, List.nodup_cons, Bool.not_eq_true', ← Bool.not_eq_true,
        List.contains_iff_mem]

namespace Server

variable (S : Server) (parameters : Parameters)

def operandValue (r : Record) : Operand → QVariant
  | .column c => r c
  | .lowerColumn c => S.toLower (r c)
  | .parameter p => (parameters p).getD .invalid
  | .now => S.now
  | .null => .invalid

def truth (scope : Scope) (r : Record) (a : ReadComparison) : Truth :=
  match operandOf scope a.left, operandOf scope a.right with
  | some x, some y =>
      S.compare a.compareOp (S.operandValue parameters r x) (S.operandValue parameters r y)
  | _, _ => .unknown

/-- Is a table the one that is named, or one that inherits from it? -/
def concerns (only : Bool) (table name : QString) : Bool :=
  name == table || (!only && (S.subTables table).contains name)

/-- A row that an UPDATE or a DELETE is about. -/
def selects (only : Bool) (table : PlainName) (condition : Option (ConnExpr ReadComparison))
    (x : QString × Record) : Bool :=
  S.concerns only table.folded x.1
    && condition.all fun e => e.eval (S.truth parameters (.table table.text) x.2) = .true

def expressionValue (table column : QString) : Expression → QVariant
  | .parameter n => (parameters (placeholderName n)).getD .invalid
  | .now => S.now
  | .default => S.default table column

/-- The row of a table with new values. -/
def assign (table : QString) (assignments : List Assignment) (r : Record) : Record :=
  assignments.foldl
    (fun r a => Function.update r a.1.folded (S.expressionValue parameters table a.1.folded a.2)) r

end Server

/-- All operands of a condition are columns or values. -/
def conditionResolves (scope : Scope) (condition : Option (ConnExpr ReadComparison)) : Bool :=
  condition.all fun e => e.atoms.all (ReadComparison.resolves scope)

/-- The rows after a statement, if it is not refused. -/
def Modification.execute (S : Server) (parameters : Parameters) (rows : Rows) :
    Modification → Option Rows
  | insertDefaults table => some (rows ++ [(table.folded, S.default table.folded)])
  | insert table columns values =>
      if columns.length = values.length && distinctNames (columns.map PlainName.folded) then
        some (rows ++ [(table.folded,
          S.assign parameters table.folded (columns.zip values) (S.default table.folded))])
      else none
  | update only table assignments condition =>
      if distinctNames (assignments.map fun a => a.1.folded)
          && conditionResolves (.table table.text) condition then
        some (rows.map fun x =>
          if S.selects parameters only table condition x then
            (x.1, S.assign parameters x.1 assignments x.2)
          else x)
      else none
  | delete only table condition =>
      if conditionResolves (.table table.text) condition then
        some (rows.filter fun x => !S.selects parameters only table condition x)
      else none

/-- A prepared statement is executed. -/
def Server.exec (S : Server) (r : QSqlResult) (rows : Rows) : Option Rows :=
  (Modification.read (words r.lastQuery)).bind (Modification.execute S r.boundValue rows)

/-! ### Reading -/

theorem PlainName.inverts : Inverts PlainName.read (fun n => [n.text]) fun _ => True := by
  apply Inverts.one
  intro w n
  rw [PlainName.ofWord]
  constructor
  · intro h
    split_ifs at h
    rw [← Option.some.inj h]
  · rintro rfl
    exact dif_pos n.isPlain

theorem PlainName.isName (n : PlainName) : isName n.text = true := by
  have hplain := n.isPlain
  simp only [isPlainName, Bool.and_eq_true] at hplain
  exact hplain.1

/-- A plain name is no word of the grammar. -/
theorem PlainName.text_ne (n : PlainName) {w : QString} (hw : isPlainName w = false) :
    n.text ≠ w := by
  rintro rfl
  exact absurd (n.isPlain.symm.trans hw) nofun

theorem isPlaceholder_placeholderName (n : Nat) : isPlaceholder (placeholderName n) = true := by
  have hdigit : ∀ c ∈ QString.number n, SqlLexer.isDigit c = true := by
    intro c hc
    have hval := QString.val_of_mem_number hc
    simp [SqlLexer.isDigit, hval]
  have hne : (QString.number n).isEmpty = false := by
    rw [List.isEmpty_eq_false_iff]
    exact QString.number_ne_nil n
  show (_ && !(QString.number n).isEmpty && (QString.number n).all _) = true
  rw [hne, List.all_eq_true.2 fun c hc => by rw [hdigit c hc]; rfl]
  rfl

theorem isName_of_isPlaceholder {w : QString} (h : isPlaceholder w = true) : isName w = true := by
  cases w with
  | nil => cases h
  | cons c s =>
      simp only [isPlaceholder, Bool.and_eq_true, decide_eq_true_eq, List.all_eq_true] at h
      obtain ⟨⟨rfl, -⟩, hall⟩ := h
      have hkeyword : ∀ w ∈ keywords, w.head? ≠ some (QChar.ofChar ':') := by decide
      have hnot : lower (QChar.ofChar ':' :: s) ∉ keywords := fun hmem => hkeyword _ hmem rfl
      have hcolon : charKind (QChar.ofChar ':') = .name := by decide
      have hname : ∀ c ∈ s, charKind c = .name := by
        intro c hc
        have hchar := hall c hc
        simp only [SqlLexer.isDigit, Bool.or_eq_true, Bool.and_eq_true, decide_eq_true_eq] at hchar
        have hspace : c.isSpace = false := by
          simp [QChar.isSpace]
          omega
        simp only [charKind, hspace]
        rw [if_neg (by simp), if_pos (by omega)]
      simpa [isName, hnot, hcolon] using hname

theorem parameterOfWord_eq_some_iff (w : QString) (n : Nat) :
    parameterOfWord w = some n ↔ w = placeholderName n := by
  have hname : placeholderName n = QChar.ofChar ':' :: QString.number n := rfl
  cases w with
  | nil => exact ⟨nofun, fun h => nomatch h.trans hname⟩
  | cons c s =>
      rw [hname, List.cons.injEq, ← numberOfLexeme_eq_some_iff]
      show (if c = QChar.ofChar ':' then numberOfLexeme s else none) = some n ↔ _
      split_ifs with hc
      · exact (and_iff_right hc).symm
      · exact ⟨nofun, fun h => absurd h.1 hc⟩

theorem Expression.inverts : Inverts Expression.read Expression.yield fun _ => True := by
  have hparameter := Inverts.one parameterOfWord_eq_some_iff
  constructor
  · apply Sound.ifNext
    · apply Sound.words
      exact Sound.pure rfl
    · apply Sound.ifNext
      · exact Sound.pure rfl
      · apply Sound.bind hparameter.sound
        intro n
        exact Sound.pure rfl
  · intro e
    cases e with
    | now =>
        apply Reads.ifNext_word
        exact Reads.words_pure
    | default =>
        apply Reads.ifNext_other
        · exact Reads.ifNext_word Reads.pure
        · intro rest _ hhead
          exact absurd (Option.some.inj hhead) (by decide)
    | parameter n =>
        -- a placeholder begins with a colon
        have hne : ∀ w : QString, w.head? ≠ some (QChar.ofChar ':') → ∀ rest : List QString,
            ((placeholderName n :: []) ++ rest).head? ≠ some w := by
          intro w hw rest hhead
          rw [← Option.some.inj hhead] at hw
          exact hw rfl
        apply Reads.ifNext_other _ fun rest _ => hne _ (by decide) rest
        apply Reads.ifNext_other _ fun rest _ => hne _ (by decide) rest
        exact Reads.bind_pure (hparameter.reads n) rfl fun _ _ => trivial

theorem readAssignment_inverts : Inverts readAssignment assignmentYield fun _ => True := by
  constructor
  · apply Sound.bind PlainName.inverts.sound
    intro column
    apply Sound.words
    apply Sound.bind Expression.inverts.sound
    intro value
    exact Sound.pure rfl
  · rintro ⟨column, value⟩
    have hyield : assignmentYield (column, value) = [column.text] ++ (kw "=" ++ value.yield) :=
      List.append_assoc _ _ _
    rw [hyield]
    apply Reads.bind (PlainName.inverts.reads column) _ fun _ _ => trivial
    apply Reads.words
    exact Reads.bind_pure (Expression.inverts.reads value) rfl fun _ _ => trivial

/-- The words of a WHERE clause, or of none. -/
inductive IsWhere : List QString → Option (ConnExpr ReadComparison) → Prop
  | absent : IsWhere [] none
  | clause {ws : List QString} {e : ConnExpr ReadComparison} (h : conditionGrammar.read ws = some e) :
      IsWhere (kw "WHERE" ++ ws) (some e)

theorem IsWhere.reads {ws : List QString} {condition : Option (ConnExpr ReadComparison)}
    (h : IsWhere ws condition) : Reads ws condition (fun rest => rest = []) readWhere := by
  cases h with
  | absent =>
      apply Reads.ifNext_other Reads.pure
      rintro _ rfl
      exact nofun
  | @clause ws e h =>
      have hcondition : Reads ws e (fun rest => rest = []) readCondition := by
        rintro _ rfl
        rw [List.append_nil]
        show (conditionGrammar.read ws).map _ = _
        rw [h]
        rfl
      apply Reads.ifNext_word
      exact Reads.bind_pure hcondition rfl fun _ hrest => hrest

theorem IsWhere.head_ne {ws : List QString} {condition : Option (ConnExpr ReadComparison)}
    (h : IsWhere ws condition) {w : QString} (hw : w ≠ latin1 "WHERE") : ws.head? ≠ some w := by
  cases h with
  | absent => exact nofun
  | clause _ => exact fun hhead => hw (Option.some.inj hhead).symm

/-- ONLY is told from the name of a table. -/
theorem reads_only (only : Bool) (table : PlainName) (ws : List QString) {β : Type} {b : β}
    {follow : List QString → Prop} {k : Bool → Reader QString β}
    (hk : Reads ([table.text] ++ ws) b follow (k only)) :
    Reads (onlyWords only ++ ([table.text] ++ ws)) b follow (readOnly >>= k) := by
  cases only with
  | true =>
      have honly : Reads (kw "ONLY") true (fun _ => True) readOnly := Reads.ifNext_word Reads.pure
      exact Reads.bind honly hk fun _ _ => trivial
  | false =>
      have hnone : Reads ([] : List QString) false (fun rest => rest.head? ≠ some (latin1 "ONLY"))
          readOnly := Reads.ifNext_other Reads.pure fun _ hrest => hrest
      apply Reads.bind hnone hk
      intro rest _ hhead
      exact table.text_ne (by decide : isPlainName (latin1 "ONLY") = false) (Option.some.inj hhead)

namespace Modification

/-- **A DELETE is read.** -/
theorem read_delete (only : Bool) (table : PlainName) {ws : List QString}
    {condition : Option (ConnExpr ReadComparison)} (h : IsWhere ws condition) :
    read (kw "DELETE" ++ (kw "FROM" ++ (onlyWords only ++ ([table.text] ++ ws))))
      = some (.delete only table condition) := by
  apply Reads.whole
  apply Reads.byWord rfl
  apply Reads.words
  apply reads_only
  apply Reads.bind (PlainName.inverts.reads table) _ fun _ _ => trivial
  exact Reads.bind_pure h.reads rfl fun _ hrest => hrest

/-- **An UPDATE is read.** -/
theorem read_update (only : Bool) (table : PlainName) (a : Assignment) (as : List Assignment)
    {ws : List QString} {condition : Option (ConnExpr ReadComparison)} (h : IsWhere ws condition) :
    read (kw "UPDATE" ++ (onlyWords only ++ ([table.text] ++ (kw "SET"
        ++ (commaSeparated ((a :: as).map assignmentYield) ++ ws)))))
      = some (.update only table (a :: as) condition) := by
  have hseparated := readAssignment_inverts.separated (latin1 ",") fun _ => trivial
  apply Reads.whole
  apply Reads.byWord rfl
  apply reads_only
  apply Reads.bind (PlainName.inverts.reads table) _ fun _ _ => trivial
  apply Reads.words
  apply Reads.bind (hseparated.reads (a, as))
  · exact Reads.bind_pure h.reads rfl fun _ hrest => hrest
  · rintro _ rfl
    rw [List.append_nil]
    have hcomma : latin1 "," ≠ latin1 "WHERE" := by decide
    exact ⟨h.head_ne hcomma, trivial⟩

/-- **An INSERT is read.** -/
theorem read_insert (table : PlainName) (c : PlainName) (cs : List PlainName) (e : Expression)
    (es : List Expression) :
    read (kw "INSERT" ++ (kw "INTO" ++ ([table.text] ++ (kw "("
        ++ (commaSeparated ((c :: cs).map fun c => [c.text]) ++ ((kw ")" ++ kw "VALUES" ++ kw "(")
          ++ (commaSeparated ((e :: es).map Expression.yield) ++ kw ")")))))))
      = some (.insert table (c :: cs) (e :: es)) := by
  have hcolumns := PlainName.inverts.separated (latin1 ",") fun _ => trivial
  have hvalues := Expression.inverts.separated (latin1 ",") fun _ => trivial
  apply Reads.whole
  apply Reads.byWord rfl
  apply Reads.words
  apply Reads.bind (PlainName.inverts.reads table) _ fun _ _ => trivial
  apply Reads.ifNext_other
  · apply Reads.words
    apply Reads.bind (hcolumns.reads (c, cs))
    · apply Reads.words
      apply Reads.bind (hvalues.reads (e, es))
      · exact Reads.words_pure
      · intro rest _
        exact ⟨fun hhead => absurd (Option.some.inj hhead) (by decide), trivial⟩
    · intro rest _
      exact ⟨fun hhead => absurd (Option.some.inj hhead) (by decide), trivial⟩
  · intro rest _ hhead
    exact absurd (Option.some.inj hhead) (by decide)

theorem read_insertDefaults (table : PlainName) :
    read (kw "INSERT" ++ (kw "INTO" ++ ([table.text] ++ (kw "DEFAULT" ++ kw "VALUES"))))
      = some (.insertDefaults table) := by
  apply Reads.whole
  apply Reads.byWord rfl
  apply Reads.words
  apply Reads.bind (PlainName.inverts.reads table) _ fun _ _ => trivial
  apply Reads.ifNext_word
  exact Reads.words_pure

end Modification

end Sqlate
