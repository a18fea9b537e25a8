/-
Sqlate/SelectGrammar.lean

The grammar of PostgreSQL's SELECT, as far as it is the library that writes it.

A `SelectStmt` is a parse tree, and `SelectStmt.yield` are the lexemes of the
sentence it stands for.  What a tree cannot be, the grammar does not have: a
CROSS JOIN has no condition and any other join has one, joins need a FROM
clause, DISTINCT needs columns, `*` has no label, and behind IS and IS NOT
stands NULL.  (The other tests of IS, such as TRUE, are none that the library
has a call for.)

The inside of an expression or a table is the text of the caller.  The grammar
of these parts is a parameter, `Phrases`, and nothing is assumed of it.  A
condition is read with the precedence of AND and OR and with any parentheses
(`Token.grammar`).
-/
import Sqlate.ConditionReading
import Sqlate.SelectQueryBuilder
import Sqlate.SqlLexemes

namespace Sqlate

open SqlLexer (Closed lexemes)

/-! ### The parts of the caller -/

inductive Category
  /-- A column of the result. -/
  | target
  | expr
  | exprList
  /-- What FROM and JOIN take. -/
  | table
  /-- What FOR UPDATE OF takes. -/
  | relation
  /-- One side of a comparison, which may be a placeholder. -/
  | operand
  deriving DecidableEq, Repr

/-- Which lexemes are a part of a statement. -/
abbrev Phrases := Category → List QString → Prop

structure IsPhrase (G : Phrases) (cat : Category) (text : QString) : Prop where
  nonempty : text ≠ []
  closed : Closed text
  lexemes : G cat (lexemes text)

/-- A text that is a part of a statement. -/
structure Phrase (G : Phrases) (cat : Category) where
  text : QString
  isPhrase : IsPhrase G cat text

variable {G : Phrases}

/-- A word or a punctuation mark of the grammar. -/
abbrev kw (s : String) : List QString := [latin1 s]

def commaSeparated (parts : List (List QString)) : List QString := (kw ",").intercalate parts

theorem commaSeparated_singleton (part : List QString) : commaSeparated [part] = part :=
  List.intercalate_singleton

theorem commaSeparated_cons_cons (part part' : List QString) (parts : List (List QString)) :
    commaSeparated (part :: part' :: parts) = part ++ (kw "," ++ commaSeparated (part' :: parts)) := by
  rw [commaSeparated, List.intercalate_cons_cons, List.append_assoc]
  rfl

/-! ### Conditions -/

def Comparison.lexemes (a : Comparison) : List QString :=
  SqlLexer.lexemes a.column ++ compareWords a.compareOp ++ SqlLexer.lexemes a.rightHandSide.toQString

/-- What stands behind a comparison operator; IS and IS NOT take no operand, but NULL. -/
def CompareOperator.Takes (G : Phrases) : CompareOperator → List QString → Prop
  | is, ws | isNot, ws => ws.map lower = kw "null"
  | _, ws => G .operand ws

/-- A comparison of the grammar. -/
structure Comparison.IsPhrase (G : Phrases) (a : Comparison) : Prop where
  column : Sqlate.IsPhrase G .operand a.column
  nonempty : a.rightHandSide.toQString ≠ []
  closed : Closed a.rightHandSide.toQString
  rightHandSide : a.compareOp.Takes G (SqlLexer.lexemes a.rightHandSide.toQString)

def Token.lexemes : Token → List QString
  | opening => kw "("
  | closing => kw ")"
  | connective .and => kw "AND"
  | connective .or => kw "OR"
  | comparison a => a.lexemes

/-- A condition with the expression it is read as. -/
structure StmtCondition (G : Phrases) where
  tokens : List Token
  expr : ConnExpr Comparison
  read : Token.grammar.read tokens = some expr
  phrases : ∀ a ∈ expr.atoms, a.IsPhrase G

def StmtCondition.yield (c : StmtCondition G) : List QString := c.tokens.flatMap Token.lexemes

/-! ### Clauses -/

def joinWords : JoinType → List QString
  | .innerJoin => kw "INNER" ++ kw "JOIN"
  | .leftOuterJoin => kw "LEFT" ++ kw "OUTER" ++ kw "JOIN"
  | .rightOuterJoin => kw "RIGHT" ++ kw "OUTER" ++ kw "JOIN"
  | .fullOuterJoin => kw "FULL" ++ kw "OUTER" ++ kw "JOIN"
  | .crossJoin => kw "CROSS" ++ kw "JOIN"

inductive StmtJoin (G : Phrases)
  | cross (table : Phrase G .table)
  | qualified (type : JoinType) (hcross : type ≠ .crossJoin) (table : Phrase G .table)
      (on : StmtCondition G)

def StmtJoin.yield : StmtJoin G → List QString
  | cross table => joinWords .crossJoin ++ lexemes table.text
  | qualified type _ table on => joinWords type ++ lexemes table.text ++ kw "ON" ++ on.yield

/-- FROM, with its joins. -/
structure FromClause (G : Phrases) where
  table : Phrase G .table
  joins : List (StmtJoin G)

def FromClause.yield (f : FromClause G) : List QString :=
  kw "FROM" ++ lexemes f.table.text ++ f.joins.flatMap StmtJoin.yield

/-- Which rows that occur more than once are left out. -/
inductive Duplicates (G : Phrases)
  | all
  | distinct
  | distinctOn (exprs : Phrase G .exprList)

def Duplicates.yield : Duplicates G → List QString
  | all => []
  | distinct => kw "DISTINCT"
  | distinctOn exprs => kw "DISTINCT" ++ kw "ON" ++ kw "(" ++ lexemes exprs.text ++ kw ")"

/-- A label in the quotes of the grammar, where a quote is doubled. -/
def quotedLabel (label : QString) : QString :=
  SqlLexer.doubleQuote
    :: (label.flatMap (fun c => if c = SqlLexer.doubleQuote then [c, c] else [c])
      ++ [SqlLexer.doubleQuote])

/-- A column of the result.  A label stands behind an expression, which `*` is not. -/
inductive StmtTarget (G : Phrases)
  | plain (target : Phrase G .target)
  | labelled (expr : Phrase G .expr) (hstar : lexemes expr.text ≠ kw "*") (label : QString)
      (hlabel : label ≠ [])

def StmtTarget.yield : StmtTarget G → List QString
  | plain target => lexemes target.text
  | labelled expr _ label _ => lexemes expr.text ++ (kw "AS" ++ [quotedLabel label])

def orderWords : SortOrder → List QString
  | .ascendingOrder => kw "ASC"
  | .descendingOrder => kw "DESC"

/-- FOR UPDATE OF. -/
structure LockClause (G : Phrases) where
  tables : List (Phrase G .relation)
  tables_ne : tables ≠ []
  noWait : Bool

def LockClause.yield (l : LockClause G) : List QString :=
  kw "FOR" ++ kw "UPDATE" ++ kw "OF" ++ commaSeparated (l.tables.map fun t => lexemes t.text)
    ++ if l.noWait then kw "NOWAIT" else []

def limitWords (offset length : Nat) : List QString :=
  kw "OFFSET" ++ [QString.number offset] ++ kw "LIMIT" ++ [QString.number length]

/-! ### Statements -/

structure SelectStmt (G : Phrases) where
  duplicates : Duplicates G
  targets : List (StmtTarget G)
  targets_ne : duplicates ≠ .all → targets ≠ []
  fromClause : Option (FromClause G)
  whereClause : Option (StmtCondition G)
  groupBy : List (Phrase G .expr)
  orderBy : List (Phrase G .expr × SortOrder)
  locks : List (LockClause G)
  limit : Option (Nat × Nat)

/-- The lexemes of a statement. -/
def SelectStmt.yield (s : SelectStmt G) : List QString :=
  kw "SELECT" ++ s.duplicates.yield
    ++ commaSeparated (s.targets.map StmtTarget.yield)
    ++ s.fromClause.elim [] FromClause.yield
    ++ s.whereClause.elim [] (fun c => kw "WHERE" ++ c.yield)
    ++ (if s.groupBy.isEmpty then []
      else kw "GROUP" ++ kw "BY" ++ commaSeparated (s.groupBy.map fun e => lexemes e.text))
    ++ (if s.orderBy.isEmpty then []
      else kw "ORDER" ++ kw "BY"
        ++ commaSeparated (s.orderBy.map fun e => lexemes e.1.text ++ orderWords e.2))
    ++ s.locks.flatMap LockClause.yield
    ++ s.limit.elim [] fun l => limitWords l.1 l.2

end Sqlate
