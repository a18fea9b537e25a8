/-
Sqlate/BuilderBase.lean

`SqlQueryBuilderBase` and `SqlConditionalQueryBuilderBase`: the members all
builders share, and the rendering of conditions.

`conditionToString` recurses over the condition tree and, as a side effect,
registers the values of the leaves it meets.  What it computes is said once,
by two functions of the tree alone:

* `cond.boundValues` are the values of the leaves that take a number, in tree
  order;
* `cond.textFrom n` is the text when the first such leaf gets number `n`.

`conditionToString_eq` is the specification lemma; the later modules use it
and never unfold the recursion again.
-/
import Sqlate.Condition

namespace Sqlate

/-- The members of `SqlQueryBuilderBase`.  The prepared query `m_query` belongs
to the objects of the connection and is kept with them. -/
structure SqlQueryBuilderBase where
  db : QString
  table : QString
  queryString : SqlText
  assembled : Bool
  deriving Repr

structure SqlConditionalQueryBuilderBase extends SqlQueryBuilderBase where
  whereCondition : SqlCondition
  bindValues : List QVariant
  bindedValuesOffset : Nat
  deriving Repr

namespace SqlQueryBuilderBase

def new (db : QString) : SqlQueryBuilderBase where
  db := db
  table := []
  queryString := []
  assembled := false

end SqlQueryBuilderBase

/-- The SQL expression for the current date and time on the server. -/
def currentDateTime : SqlText := sql "now()"

def logicOperatorToString : LogicOperator → SqlText
  | .and => sql " AND "
  | .or => sql " OR "

def compareOperatorToString : CompareOperator → SqlText
  | .equals => sql " = "
  | .notEquals => sql " <> "
  | .is => sql " IS "
  | .isNot => sql " IS NOT "
  | .less => sql " < "
  | .lessOrEqual => sql " <= "
  | .greater => sql " > "
  | .greaterOrEqual => sql " >= "
  | .like => sql " LIKE "

namespace SqlConditionalQueryBuilderBase

def new (db : QString) : SqlConditionalQueryBuilderBase where
  toSqlQueryBuilderBase := .new db
  whereCondition := .new .and
  bindValues := []
  bindedValuesOffset := 0

/-- Register a value; the result is the placeholder to use in the query. -/
def registerBindValue (b : SqlConditionalQueryBuilderBase) (value : QVariant) :
    SqlText × SqlConditionalQueryBuilderBase :=
  let b := { b with bindValues := b.bindValues ++ [value] }
  ([.bound (b.bindedValuesOffset + b.bindValues.length - 1) value], b)

mutual

def conditionToString (b : SqlConditionalQueryBuilderBase) :
    SqlCondition → SqlText × SqlConditionalQueryBuilderBase
  | ⟨subConditions, column, comparedColumn, placeholder, comparedValue, compareOp, logicOp, _⟩ =>
      if subConditions.isEmpty then
        let stmt := raw column ++ compareOperatorToString compareOp
        if comparedColumn.isEmpty then
          if comparedValue.isValid then
            -- `SqlNow` is written into the text and never bound
            if comparedValue.userType = .sqlNowType then
              (stmt ++ currentDateTime, b)
            else
              let r := b.registerBindValue comparedValue
              (stmt ++ r.1, r.2)
          else if !placeholder.isEmpty then
            (stmt ++ raw placeholder, b)
          else
            (stmt ++ sql "NULL", b)
        else
          (stmt ++ raw comparedColumn, b)
      else
        let r := conditionsToStrings b subConditions
        match r.1 with
        -- parentheses around a single sub-condition are left out
        | [cond] => (cond, r.2)
        | conds => (sql "(" ++ SqlText.join conds (logicOperatorToString logicOp) ++ sql ")", r.2)

/-- The loop over the sub-conditions. -/
def conditionsToStrings (b : SqlConditionalQueryBuilderBase) :
    List SqlCondition → List SqlText × SqlConditionalQueryBuilderBase
  | [] => ([], b)
  | c :: cs =>
      let r := conditionToString b c
      let s := conditionsToStrings r.2 cs
      (r.1 :: s.1, s.2)

end

end SqlConditionalQueryBuilderBase

/-! ### What the rendering of a condition depends on -/

/-- Does a leaf with this right-hand side take a number? -/
def takesNumber (comparedColumn : QString) (comparedValue : QVariant) : Bool :=
  comparedColumn.isEmpty && comparedValue.isValid && comparedValue.userType ≠ .sqlNowType

/-- The right-hand side of a leaf, when the next number is `n`. -/
def rightHandSide (n : Nat) (comparedColumn placeholder : QString) (comparedValue : QVariant) :
    SqlText :=
  if takesNumber comparedColumn comparedValue then [.bound n comparedValue]
  else if !comparedColumn.isEmpty then raw comparedColumn
  else if comparedValue.isValid then currentDateTime
  else if !placeholder.isEmpty then raw placeholder
  else sql "NULL"

mutual

/-- The values of the leaves that take a number, in tree order. -/
def SqlCondition.boundValues : SqlCondition → List QVariant
  | ⟨subConditions, _, comparedColumn, _, comparedValue, _, _, _⟩ =>
      if subConditions.isEmpty then
        if takesNumber comparedColumn comparedValue then [comparedValue] else []
      else
        boundValuesOf subConditions

def boundValuesOf : List SqlCondition → List QVariant
  | [] => []
  | c :: cs => c.boundValues ++ boundValuesOf cs

end

mutual

/-- The text of a condition whose first numbered leaf gets number `n`. -/
def SqlCondition.textFrom (n : Nat) : SqlCondition → SqlText
  | ⟨subConditions, column, comparedColumn, placeholder, comparedValue, compareOp, logicOp, _⟩ =>
      if subConditions.isEmpty then
        raw column ++ compareOperatorToString compareOp
          ++ rightHandSide n comparedColumn placeholder comparedValue
      else
        match textsFrom n subConditions with
        | [cond] => cond
        | conds => sql "(" ++ SqlText.join conds (logicOperatorToString logicOp) ++ sql ")"

def textsFrom (n : Nat) : List SqlCondition → List SqlText
  | [] => []
  | c :: cs => c.textFrom n :: textsFrom (n + c.boundValues.length) cs

end

@[simp] theorem marks_currentDateTime : SqlText.marks currentDateTime = [] :=
  SqlText.marks_sql _

@[simp] theorem marks_compareOperatorToString (op : CompareOperator) :
    SqlText.marks (compareOperatorToString op) = [] := by
  cases op <;> exact SqlText.marks_sql _

@[simp] theorem marks_logicOperatorToString (op : LogicOperator) :
    SqlText.marks (logicOperatorToString op) = [] := by
  cases op <;> exact SqlText.marks_sql _

theorem marks_rightHandSide (n : Nat) (comparedColumn placeholder : QString)
    (comparedValue : QVariant) :
    SqlText.marks (rightHandSide n comparedColumn placeholder comparedValue)
      = if takesNumber comparedColumn comparedValue then [(comparedValue, n)] else [] := by
  rw [rightHandSide]
  split_ifs <;> simp

mutual

/-- **Text, tree and numbers agree**: the generated placeholders of a
condition's text are its numbered leaves in tree order, numbered without
gaps. -/
theorem marks_textFrom (n : Nat) : (c : SqlCondition) →
    SqlText.marks (c.textFrom n) = c.boundValues.zipIdx n
  | ⟨subConditions, column, comparedColumn, placeholder, comparedValue, compareOp, logicOp, _⟩ => by
      have hsub := marks_textsFrom n subConditions
      simp only [SqlCondition.textFrom, SqlCondition.boundValues]
      split
      · simp only [SqlText.marks_append, SqlText.marks_raw, marks_compareOperatorToString,
          marks_rightHandSide, List.nil_append]
        split_ifs <;> rfl
      · -- an inner node: the connectives between the sub-texts carry no marks
        rw [← hsub]
        split
        · next cond hone => simp [hone]
        · simp [SqlText.marks_join]

theorem marks_textsFrom (n : Nat) : (cs : List SqlCondition) →
    (textsFrom n cs).flatMap SqlText.marks = (boundValuesOf cs).zipIdx n
  | [] => rfl
  | c :: cs => by
      simp only [textsFrom, boundValuesOf, List.flatMap_cons, List.zipIdx_append,
        marks_textFrom n c, marks_textsFrom _ cs]

end

namespace SqlConditionalQueryBuilderBase

/-- The number the next registered value gets. -/
def nextNumber (b : SqlConditionalQueryBuilderBase) : Nat :=
  b.bindedValuesOffset + b.bindValues.length

/-- The builder after the values have been registered. -/
def register (b : SqlConditionalQueryBuilderBase) (values : List QVariant) :
    SqlConditionalQueryBuilderBase :=
  { b with bindValues := b.bindValues ++ values }

@[simp] theorem register_nil (b : SqlConditionalQueryBuilderBase) : b.register [] = b := by
  simp [register]

@[simp] theorem register_register (b : SqlConditionalQueryBuilderBase) (vs ws : List QVariant) :
    (b.register vs).register ws = b.register (vs ++ ws) := by
  simp [register]

@[simp] theorem nextNumber_register (b : SqlConditionalQueryBuilderBase) (vs : List QVariant) :
    (b.register vs).nextNumber = b.nextNumber + vs.length := by
  simp [nextNumber, register, Nat.add_assoc]

theorem registerBindValue_eq (b : SqlConditionalQueryBuilderBase) (value : QVariant) :
    b.registerBindValue value = ([.bound b.nextNumber value], b.register [value]) := by
  simp [registerBindValue, nextNumber, register]

mutual

/-- **Specification of `conditionToString`**: the text numbers the leaves
from the next free number, and their values are appended to the bind list. -/
theorem conditionToString_eq (b : SqlConditionalQueryBuilderBase) : (c : SqlCondition) →
    b.conditionToString c = (c.textFrom b.nextNumber, b.register c.boundValues)
  | ⟨subConditions, column, comparedColumn, placeholder, comparedValue, compareOp, logicOp, _⟩ => by
      simp only [conditionToString, SqlCondition.textFrom, SqlCondition.boundValues,
        conditionsToStrings_eq b subConditions]
      split
      · -- a leaf: one case for each kind of right-hand side
        cases hcol : comparedColumn.isEmpty <;> cases hval : comparedValue.isValid <;>
          cases hph : placeholder.isEmpty <;> by_cases hnow : comparedValue.userType = .sqlNowType <;>
          simp_all [rightHandSide, takesNumber, registerBindValue_eq]
      · -- an inner node: both sides split on the number of sub-texts
        split <;> simp_all

theorem conditionsToStrings_eq (b : SqlConditionalQueryBuilderBase) :
    (cs : List SqlCondition) →
    b.conditionsToStrings cs = (textsFrom b.nextNumber cs, b.register (boundValuesOf cs))
  | [] => by simp [conditionsToStrings, textsFrom, boundValuesOf]
  | c :: cs => by
      simp only [conditionsToStrings, textsFrom, boundValuesOf, conditionToString_eq b c,
        conditionsToStrings_eq (b.register c.boundValues) cs, nextNumber_register,
        register_register]

end

/-! ### The WHERE clause -/

/-- Append the WHERE clause, if there is one. -/
def appendWhere (b : SqlConditionalQueryBuilderBase) (t : SqlText) :
    SqlText × SqlConditionalQueryBuilderBase :=
  if b.whereCondition.hasSubConditions then
    let w := b.conditionToString b.whereCondition
    (t ++ sql " WHERE " ++ w.1, w.2)
  else (t, b)

/-- The values of the numbered leaves of the WHERE condition. -/
def whereValues (b : SqlConditionalQueryBuilderBase) : List QVariant :=
  if b.whereCondition.hasSubConditions then b.whereCondition.boundValues else []

/-- The WHERE clause, when its first numbered leaf gets number `n`. -/
def whereTextFrom (b : SqlConditionalQueryBuilderBase) (n : Nat) : SqlText :=
  if b.whereCondition.hasSubConditions then
    sql " WHERE " ++ b.whereCondition.textFrom n
  else []

theorem appendWhere_eq (b : SqlConditionalQueryBuilderBase) (t : SqlText) :
    b.appendWhere t = (t ++ b.whereTextFrom b.nextNumber, b.register b.whereValues) := by
  rw [appendWhere, whereTextFrom, whereValues]
  split <;> simp [conditionToString_eq]

theorem marks_whereTextFrom (b : SqlConditionalQueryBuilderBase) (n : Nat) :
    SqlText.marks (b.whereTextFrom n) = b.whereValues.zipIdx n := by
  rw [whereTextFrom, whereValues]
  split <;> simp [marks_textFrom]

end SqlConditionalQueryBuilderBase

end Sqlate
