/-
Sqlate/ConditionExpr.lean

Conditions of the expression templates: comparisons of typed columns, and the
operators `&&` and `||` between them.

`ConditionExpr` has the logic operator both as a template parameter, which
decides what may follow, and in its run time condition.  A condition
expression is combined with further leaves only; an expression in an operand
on the right, or another operator than the first, does not compile.

`ConditionTerm` is a condition as it stands in the program, `l₁ && l₂ && …`,
and `assignCondition_eval` is what becomes of it.
-/
import Sqlate.Condition

namespace Sqlate

/-- A comparison of a column, as the operators `==`, `<` and so on make it. -/
inductive ConditionLeaf
  | column (lhs : ColumnName) (comp : CompareOperator) (rhs : ColumnName)
  | value (lhs : ColumnName) (comp : CompareOperator) (value : QVariant)
  | placeholder (lhs : ColumnName) (comp : CompareOperator) (placeholder : PlaceholderName)

/-- `logicOp` is the template parameter, `condition` the member. -/
structure ConditionExpr where
  logicOp : LogicOperator
  condition : SqlCondition

section
variable [CaseFolding]

/-- `append_condition`. -/
def appendCondition (cond : SqlCondition) : ConditionLeaf → SqlCondition
  | .column lhs comp rhs => cond.addColumnCondition lhs comp rhs
  | .value lhs comp value => cond.addValueCondition lhs comp value
  | .placeholder lhs comp placeholder => cond.addPlaceholderCondition lhs comp placeholder

namespace ConditionLeaf

/-- What `&&` and `||` of two leaves have in common. -/
def combine (op : LogicOperator) (l l2 : ConditionLeaf) : ConditionExpr where
  logicOp := op
  condition := appendCondition (appendCondition ((SqlCondition.new .and).setLogicOperator op) l) l2

/-- `operator&&`. -/
def and (l l2 : ConditionLeaf) : ConditionExpr := l.combine .and l2

/-- `operator||`. -/
def or (l l2 : ConditionLeaf) : ConditionExpr := l.combine .or l2

/-- The node of a leaf in a condition. -/
def condition : ConditionLeaf → SqlCondition
  | column lhs comp rhs =>
      { SqlCondition.new .and with
        column := lhs.name
        comparedColumn := rhs.name
        compareOp := comp }
  | value lhs comp v =>
      { SqlCondition.new .and with
        column := lhs.name
        comparedValue := v
        compareOp := comp }
  | placeholder lhs comp p =>
      { SqlCondition.new .and with
        column := lhs.name
        placeholder := p.name
        compareOp := comp }

end ConditionLeaf

namespace ConditionExpr

/-- What `&&` and `||` of an expression and a leaf have in common: they exist
for the expression's own operator only. -/
def extend (op : LogicOperator) (e : ConditionExpr) (l2 : ConditionLeaf) : Option ConditionExpr :=
  if e.logicOp = op then some { e with condition := appendCondition e.condition l2 } else none

/-- `operator&&`. -/
def and (e : ConditionExpr) (l2 : ConditionLeaf) : Option ConditionExpr := e.extend .and l2

/-- `operator||`. -/
def or (e : ConditionExpr) (l2 : ConditionLeaf) : Option ConditionExpr := e.extend .or l2

end ConditionExpr

/-- The argument of `where` and of the joins. -/
inductive ConditionArgument
  | leaf (l : ConditionLeaf)
  | expr (e : ConditionExpr)

/-- `assign_condition`: a leaf is appended, an expression replaces. -/
def assignCondition (cond : SqlCondition) : ConditionArgument → SqlCondition
  | .leaf l => appendCondition cond l
  | .expr e => e.condition

/-! ### Conditions as they are written -/

/-- `first op second op …`; without further leaves there is no operator. -/
structure ConditionTerm where
  first : ConditionLeaf
  op : LogicOperator
  rest : List ConditionLeaf

namespace ConditionTerm

/-- The value of the expression; `none` when it does not compile. -/
def eval (t : ConditionTerm) : Option ConditionArgument :=
  match t.rest with
  | [] => some (.leaf t.first)
  | second :: rest =>
      (match t.op with
        | .and => rest.foldlM ConditionExpr.and (t.first.and second)
        | .or => rest.foldlM ConditionExpr.or (t.first.or second)).map .expr

/-- The condition a term stands for: its leaves in order under its operator. -/
def condition (t : ConditionTerm) : SqlCondition :=
  { SqlCondition.new (if t.rest.isEmpty then .and else t.op) with
    subConditions := (t.first :: t.rest).map ConditionLeaf.condition }

end ConditionTerm

/-- Expression templates never ask for case folding. -/
theorem appendCondition_eq {cond : SqlCondition} (h : cond.isCaseSensitive = true)
    (l : ConditionLeaf) : appendCondition cond l = cond.push l.condition := by
  cases l with
  | column lhs comp rhs => rfl
  | value lhs comp value =>
      simp only [appendCondition, SqlCondition.addValueCondition, h]
      rfl
  | placeholder lhs comp placeholder =>
      simp only [appendCondition, SqlCondition.addPlaceholderCondition, h]
      rfl

/-- An expression of the given leaves. -/
def ConditionExpr.ofLeaves (op : LogicOperator) (ls : List ConditionLeaf) : ConditionExpr where
  logicOp := op
  condition := { SqlCondition.new op with subConditions := ls.map ConditionLeaf.condition }

theorem ConditionLeaf.combine_eq (op : LogicOperator) (l l2 : ConditionLeaf) :
    l.combine op l2 = .ofLeaves op [l, l2] := by
  have hfirst : appendCondition ((SqlCondition.new .and).setLogicOperator op) l
      = ((SqlCondition.new .and).setLogicOperator op).push l.condition :=
    appendCondition_eq rfl l
  rw [ConditionLeaf.combine, hfirst, appendCondition_eq rfl]
  rfl

theorem ConditionExpr.extend_ofLeaves (op : LogicOperator) (ls : List ConditionLeaf)
    (l : ConditionLeaf) : (ofLeaves op ls).extend op l = some (ofLeaves op (ls ++ [l])) := by
  simp [extend, ofLeaves, appendCondition_eq, SqlCondition.push, SqlCondition.new]

theorem ConditionExpr.foldlM_extend (op : LogicOperator) (ls ms : List ConditionLeaf) :
    ms.foldlM (ConditionExpr.extend op) (ofLeaves op ls) = some (ofLeaves op (ls ++ ms)) := by
  induction ms generalizing ls with
  | nil => simp
  | cons m ms ih =>
      rw [List.foldlM_cons, extend_ofLeaves]
      show ms.foldlM (ConditionExpr.extend op) (ofLeaves op (ls ++ [m])) = _
      rw [ih, List.append_assoc]
      rfl

/-- **A condition of any number of leaves compiles**, and it is assigned whole:
the leaves in order under the operator between them. -/
theorem ConditionTerm.assignCondition_eval (t : ConditionTerm) :
    ∃ a, t.eval = some a ∧ assignCondition (.new .and) a = t.condition := by
  obtain ⟨first, op, rest⟩ := t
  cases rest with
  | nil => exact ⟨.leaf first, rfl, appendCondition_eq rfl first⟩
  | cons second rest =>
      refine ⟨.expr (.ofLeaves op (first :: second :: rest)), ?_, rfl⟩
      have hfold := ConditionExpr.foldlM_extend op [first, second] rest
      rw [← ConditionLeaf.combine_eq] at hfold
      cases op with
      | and => exact congrArg (Option.map ConditionArgument.expr) hfold
      | or => exact congrArg (Option.map ConditionArgument.expr) hfold

end

end Sqlate
