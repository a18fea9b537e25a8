/-
Sqlate/NullTests.lean

IS and IS NOT in conditions.

In SQL these two operators take NULL, and neither a placeholder nor a column; the reader of
conditions takes any operand behind any operator.  A server that goes by the grammar refuses
what is not `ReadComparison.isSql`.  If the calls on a condition give NULL only to the two
operators (`TestsNullOf`), in its sub-conditions too, then all its comparisons are.
-/
import Sqlate.ConditionMeaning

namespace Sqlate

/-- Does the operator test for NULL? -/
def CompareOperator.isTest : CompareOperator → Bool
  | is | isNot => true
  | _ => false

/-- A comparison of the grammar: a test has NULL behind it. -/
def ReadComparison.isSql (a : ReadComparison) : Bool :=
  !a.compareOp.isTest || a.right.map lower = [latin1 "null"]

mutual

/-- A test is given NULL, which is the value that is not valid. -/
def ConditionCall.TestsNull : ConditionCall → Prop
  | .addValueCondition _ op value => op.isTest → value = .invalid
  | .addPlaceholderCondition _ op _ => op.isTest = false
  | .addColumnCondition _ op _ => op.isTest = false
  | .addCondition _ calls => TestsNullOf calls
  | .setLogicOperator _ => True
  | .setCaseSensitive _ => True

def TestsNullOf : List ConditionCall → Prop
  | [] => True
  | call :: calls => call.TestsNull ∧ TestsNullOf calls

end

/-- A leaf that writes NULL behind a test. -/
def Comparison.TestsNull (a : Comparison) : Prop :=
  a.compareOp.isTest → a.comparedColumn = [] ∧ a.placeholder = [] ∧ a.comparedValue = .invalid

theorem Comparison.TestsNull.isSql {a : Comparison} (h : a.TestsNull) : a.read.isSql := by
  obtain ⟨column, comparedColumn, placeholder, comparedValue, op, n⟩ := a
  cases htest : op.isTest with
  | false =>
      show (!op.isTest || _) = true
      rw [htest]
      rfl
  | true =>
      obtain ⟨hcolumn, hplaceholder, hvalue⟩ := h htest
      obtain rfl : comparedColumn = [] := hcolumn
      obtain rfl : placeholder = [] := hplaceholder
      obtain rfl : comparedValue = .invalid := hvalue
      have hnull : (words (latin1 "NULL")).map lower = [latin1 "null"] := by decide
      show (!op.isTest || decide ((words (latin1 "NULL")).map lower = [latin1 "null"])) = true
      rw [decide_eq_true hnull, Bool.or_true]

/-- All leaves of the sub-conditions write NULL behind a test. -/
def SqlCondition.SubsTestNull (c : SqlCondition) : Prop :=
  ∀ n, ∀ a ∈ ConnTree.leavesOf (toTrees n c.subConditions), a.TestsNull

/-- A condition that has no sub-conditions is a leaf itself. -/
theorem SqlCondition.SubsTestNull.leaves {c : SqlCondition} (h : c.SubsTestNull)
    (hown : c.compareOp.isTest = false) (n : Nat) : ∀ a ∈ (c.toTree n).leaves, a.TestsNull := by
  obtain ⟨subConditions, column, comparedColumn, placeholder, comparedValue, op, logicOp, flag⟩ := c
  intro a ha
  rw [toTree] at ha
  split at ha
  · obtain rfl := List.mem_singleton.1 ha
    exact fun htest => absurd (hown.symm.trans htest) Bool.false_ne_true
  · exact h n a ha

/-- One leaf more. -/
theorem SqlCondition.SubsTestNull.push {c d : SqlCondition} (h : c.SubsTestNull)
    (hd : d.subConditions = [])
    (hnull : d.compareOp.isTest → d.comparedColumn = [] ∧ d.placeholder = [] ∧ d.comparedValue = .invalid) :
    (c.push d).SubsTestNull := by
  refine forall_leavesOf_push h fun n a ha => ?_
  obtain ⟨subConditions, column, comparedColumn, placeholder, comparedValue, op, logicOp, flag⟩ := d
  obtain rfl : subConditions = [] := hd
  rw [toTree] at ha
  obtain rfl := List.mem_singleton.1 ha
  exact hnull

theorem SqlCondition.subsTestNull_new (op : LogicOperator) : (new op).SubsTestNull :=
  fun _ _ ha => (by cases ha)

section
variable [CaseFolding]

theorem compareOp_applyCalls (cond : SqlCondition) (calls : List ConditionCall) :
    (applyCalls cond calls).compareOp = cond.compareOp := by
  induction calls generalizing cond with
  | nil => rfl
  | cons call calls ih =>
      have hcall : (call.apply cond).compareOp = cond.compareOp := by
        cases call <;> rfl
      rw [applyCalls, ih, hcall]

mutual

theorem SqlCondition.SubsTestNull.call : (call : ConditionCall) → {cond : SqlCondition} →
    call.TestsNull → cond.SubsTestNull → (call.apply cond).SubsTestNull
  | .addValueCondition column op value, cond, htests, h => by
      obtain ⟨subConditions, _, _, _, _, _, _, flag⟩ := cond
      cases flag with
      | true => exact h.push rfl fun htest => ⟨rfl, rfl, htests htest⟩
      | false =>
          cases value with
          | string s => exact h.push rfl fun htest => absurd (htests htest) nofun
          | _ => exact h.push rfl fun htest => ⟨rfl, rfl, htests htest⟩
  | .addPlaceholderCondition column op p, cond, htests, h => by
      obtain ⟨subConditions, _, _, _, _, _, _, flag⟩ := cond
      have hnone {P : Prop} (htest : op.isTest) : P := absurd (htests.symm.trans htest) Bool.false_ne_true
      cases flag with
      | true => exact h.push rfl hnone
      | false => exact h.push rfl hnone
  | .addColumnCondition column op column2, cond, htests, h =>
      h.push rfl fun htest => absurd (htests.symm.trans htest) Bool.false_ne_true
  | .addCondition op calls, cond, htests, h => by
      have hcalls := SubsTestNull.calls calls htests (subsTestNull_new op)
      refine forall_leavesOf_push h fun n => hcalls.leaves ?_ n
      rw [compareOp_applyCalls]
      rfl
  | .setLogicOperator _, _, _, h => h
  | .setCaseSensitive _, _, _, h => h

theorem SqlCondition.SubsTestNull.calls : (calls : List ConditionCall) → {cond : SqlCondition} →
    TestsNullOf calls → cond.SubsTestNull → (applyCalls cond calls).SubsTestNull
  | [], _, _, h => h
  | call :: calls, _, ⟨hcall, hcalls⟩, h => SubsTestNull.calls calls hcalls (SubsTestNull.call call hcall h)

end

/-- **The leaves of a condition are comparisons of the grammar** if its calls test for NULL. -/
theorem isSql_of_testsNull {op : LogicOperator} {calls : List ConditionCall} (h : TestsNullOf calls)
    (n : Nat) : ∀ a ∈ ((applyCalls (.new op) calls).toTree n).leaves, a.read.isSql := by
  have hcalls := SqlCondition.SubsTestNull.calls calls h (SqlCondition.subsTestNull_new op)
  have hown : (applyCalls (.new op) calls).compareOp.isTest = false := by
    rw [compareOp_applyCalls]
    rfl
  exact fun a ha => Comparison.TestsNull.isSql (hcalls.leaves hown n a ha)

end

example : ReadComparison.isSql ⟨[latin1 "x"], .is, [latin1 ":0"]⟩ = false := by decide

end Sqlate
