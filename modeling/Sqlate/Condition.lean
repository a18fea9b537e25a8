/-
Sqlate/Condition.lean

`SqlCondition`: one part of an SQL WHERE or ON expression.

A condition with sub-conditions is an inner node, one without is a leaf that
compares `column` with a column, a value, a deferred placeholder or NULL.
Both share one class in the source, and so they do here.

What the assertions of the `add...` functions demand of their arguments is
carried by the argument types: a column name is not empty, and a deferred
placeholder is a colon followed by something that does not start with a digit.
-/
import Sqlate.SqlText

namespace Sqlate

inductive CompareOperator
  | equals | notEquals | is | isNot | less | lessOrEqual | greater | greaterOrEqual | like
  deriving DecidableEq, Repr

inductive LogicOperator
  | and | or
  deriving DecidableEq, Repr

structure SqlCondition where
  subConditions : List SqlCondition
  column : QString
  comparedColumn : QString
  placeholder : QString
  comparedValue : QVariant
  compareOp : CompareOperator
  logicOp : LogicOperator
  isCaseSensitive : Bool
  deriving Repr

/-- A column argument that passes `Q_ASSERT( !column.isEmpty() )`. -/
structure ColumnName where
  name : QString
  nonempty : name ≠ []
  deriving DecidableEq

/-- A placeholder argument that passes the assertions of
`addPlaceholderCondition`. -/
structure PlaceholderName where
  name : QString
  size : 2 ≤ name.length
  startsWithColon : name.head? = some (QChar.ofChar ':')
  notDigit : ∀ c ∈ name[1]?, c.isDigit = false

/-- **Deferred placeholders never clash with generated ones**: the second
character of a generated name is a digit. -/
theorem PlaceholderName.name_ne_placeholderName (p : PlaceholderName) (n : Nat) :
    p.name ≠ placeholderName n := by
  intro h
  obtain ⟨c, ds, hnum⟩ := List.exists_cons_of_ne_nil (QString.number_ne_nil n)
  have hsecond : p.name[1]? = some c := by
    rw [h, placeholderName, hnum]
    rfl
  have hdigit : c.isDigit = true :=
    QString.isDigit_of_mem_number (hnum ▸ List.mem_cons_self)
  simp [p.notDigit c hsecond] at hdigit

namespace SqlCondition

/-- The constructor; a fresh condition is also the leaf the `add...`
functions start from. -/
def new (op : LogicOperator) : SqlCondition where
  subConditions := []
  column := []
  comparedColumn := []
  placeholder := []
  comparedValue := .invalid
  compareOp := .equals
  logicOp := op
  isCaseSensitive := true

instance : Inhabited SqlCondition := ⟨new .and⟩

/-- `m_subConditions.push_back( c )`. -/
def push (cond c : SqlCondition) : SqlCondition :=
  { cond with subConditions := cond.subConditions ++ [c] }

/-- `QString::fromLatin1( "LOWER( %1 ) " ).arg( column )`. -/
def lowerOf (column : QString) : QString := latin1 "LOWER( " ++ column ++ latin1 " ) "

section
variable [CaseFolding]

def addValueCondition (cond : SqlCondition) (column : ColumnName) (op : CompareOperator)
    (value : QVariant) : SqlCondition :=
  let c := { new .and with compareOp := op }
  cond.push <|
    match cond.isCaseSensitive, value with
    | false, .string s =>
        { c with
          comparedValue := .string (CaseFolding.toLower s)
          column := lowerOf column.name }
    | _, _ => { c with comparedValue := value, column := column.name }

def addPlaceholderCondition (cond : SqlCondition) (column : ColumnName)
    (op : CompareOperator) (placeholder : PlaceholderName) : SqlCondition :=
  let c := { new .and with compareOp := op }
  cond.push <|
    if cond.isCaseSensitive then
      { c with placeholder := placeholder.name, column := column.name }
    else
      { c with
        placeholder := CaseFolding.toLower placeholder.name
        column := lowerOf column.name }

end

def addColumnCondition (cond : SqlCondition) (column : ColumnName) (op : CompareOperator)
    (column2 : ColumnName) : SqlCondition :=
  cond.push
    { new .and with
      column := column.name
      comparedColumn := column2.name
      compareOp := op }

def addCondition (cond condition : SqlCondition) : SqlCondition := cond.push condition

def setLogicOperator (cond : SqlCondition) (op : LogicOperator) : SqlCondition :=
  { cond with logicOp := op }

def setCaseSensitive (cond : SqlCondition) (isCaseSensitive : Bool) : SqlCondition :=
  { cond with isCaseSensitive := isCaseSensitive }

def hasSubConditions (cond : SqlCondition) : Bool := !cond.subConditions.isEmpty

end SqlCondition

/-! ### Conditions as the caller builds them -/

/-- A call on a condition object.  The nested condition of `addCondition` is
given by its own constructor argument and the calls made on it. -/
inductive ConditionCall
  | addValueCondition (column : ColumnName) (op : CompareOperator) (value : QVariant)
  | addPlaceholderCondition (column : ColumnName) (op : CompareOperator)
      (placeholder : PlaceholderName)
  | addColumnCondition (column : ColumnName) (op : CompareOperator) (column2 : ColumnName)
  | addCondition (op : LogicOperator) (calls : List ConditionCall)
  | setLogicOperator (op : LogicOperator)
  | setCaseSensitive (isCaseSensitive : Bool)

section
variable [CaseFolding]

mutual

def ConditionCall.apply (cond : SqlCondition) : ConditionCall → SqlCondition
  | .addValueCondition column op value => cond.addValueCondition column op value
  | .addPlaceholderCondition column op placeholder =>
      cond.addPlaceholderCondition column op placeholder
  | .addColumnCondition column op column2 => cond.addColumnCondition column op column2
  | .addCondition op calls => cond.addCondition (applyCalls (.new op) calls)
  | .setLogicOperator op => cond.setLogicOperator op
  | .setCaseSensitive flag => cond.setCaseSensitive flag

def applyCalls (cond : SqlCondition) : List ConditionCall → SqlCondition
  | [] => cond
  | call :: calls => applyCalls (call.apply cond) calls

end

end

end Sqlate
