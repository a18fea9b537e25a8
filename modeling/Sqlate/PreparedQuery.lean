/-
Sqlate/PreparedQuery.lean

Prepared query objects and the loops that bind values to them.

A `QSqlResult` is what copies of a `QSqlQuery` share: the prepared text and
the values bound to its named placeholders.  `bindLoop` is the loop the
builders run after preparing (through `SqlQueryBuilderBase::bindValue`).
`boundValue_bindLoop` says what is bound after it: the value at position `i`,
in its bind form, to `:i`; nothing for a `SqlNow` value; and names that are
not generated keep what they had.
-/
import Mathlib.Logic.Function.Basic
import Sqlate.SqlText

namespace Sqlate

/-- A prepared statement with the values bound to its placeholders. -/
structure QSqlResult where
  lastQuery : QString
  boundValue : QString → Option QVariant

namespace QSqlResult

/-- The state after a successful `prepare`. -/
def prepared (text : QString) : QSqlResult where
  lastQuery := text
  boundValue := fun _ => none

/-- `QSqlQuery::bindValue`. -/
def bindValue (r : QSqlResult) (placeholder : QString) (value : QVariant) : QSqlResult :=
  { r with boundValue := Function.update r.boundValue placeholder (some value) }

/-- `SqlQueryBuilderBase::bindValue`: nothing is bound for `SqlNow`, which has
been handled in the text. -/
def bindIndex (r : QSqlResult) (placeholderIndex : Nat) (value : QVariant) : QSqlResult :=
  match value with
  | .sqlNow => r
  | value => r.bindValue (placeholderName placeholderIndex) value.bindForm

/-- The loop over the values to bind. -/
def bindLoop (r : QSqlResult) (values : List QVariant) : QSqlResult :=
  values.zipIdx.foldl (fun r v => r.bindIndex v.2 v.1) r

/-- The calls of `QSqlQuery::bindValue` in that loop. -/
def bindCalls (values : List QVariant) : List (QString × QVariant) :=
  values.zipIdx.filterMap fun v =>
    match v.1 with
    | .sqlNow => none
    | value => some (placeholderName v.2, value.bindForm)

theorem bindLoop_eq_foldl_bindCalls (r : QSqlResult) (values : List QVariant) :
    r.bindLoop values = (bindCalls values).foldl (fun r call => r.bindValue call.1 call.2) r := by
  rw [bindLoop, bindCalls]
  induction values.zipIdx generalizing r with
  | nil => rfl
  | cons v vs ih =>
      obtain ⟨value, i⟩ := v
      rw [List.foldl_cons, ih]
      cases value <;> rfl

end QSqlResult

theorem placeholderName_injective : Function.Injective placeholderName := fun _ _ h =>
  QString.number_injective (List.append_cancel_left h)

/-- What a single value leaves bound to its placeholder. -/
def boundForm : QVariant → Option QVariant
  | .sqlNow => none
  | value => some value.bindForm

theorem boundForm_of_ne {v : QVariant} (h : v ≠ .sqlNow) : boundForm v = some v.bindForm := by
  cases v <;> simp_all [boundForm]

namespace QSqlResult

theorem boundValue_bindIndex (r : QSqlResult) (n : Nat) (v : QVariant) (name : QString) :
    (r.bindIndex n v).boundValue name
      = if name = placeholderName n then (boundForm v).or (r.boundValue name)
        else r.boundValue name := by
  cases v <;> by_cases h : name = placeholderName n <;>
    simp [bindIndex, bindValue, boundForm, h]

@[simp] theorem lastQuery_bindIndex (r : QSqlResult) (n : Nat) (v : QVariant) :
    (r.bindIndex n v).lastQuery = r.lastQuery := by
  cases v <;> rfl

theorem lastQuery_foldl_bindIndex (vs : List (QVariant × Nat)) (r : QSqlResult) :
    (vs.foldl (fun r v => r.bindIndex v.2 v.1) r).lastQuery = r.lastQuery := by
  induction vs generalizing r with
  | nil => rfl
  | cons v vs ih => rw [List.foldl_cons, ih, lastQuery_bindIndex]

@[simp] theorem lastQuery_bindLoop (r : QSqlResult) (values : List QVariant) :
    (r.bindLoop values).lastQuery = r.lastQuery :=
  lastQuery_foldl_bindIndex _ r

/-- The loop over values numbered from `k`. -/
theorem boundValue_foldl_bindIndex (values : List QVariant) (k : Nat) (r : QSqlResult)
    (i : Nat) :
    ((values.zipIdx k).foldl (fun r v => r.bindIndex v.2 v.1) r).boundValue (placeholderName i)
      = if k ≤ i then
          (values[i - k]?.bind boundForm).or (r.boundValue (placeholderName i))
        else r.boundValue (placeholderName i) := by
  induction values generalizing k r with
  | nil => simp
  | cons v vs ih =>
      rw [List.zipIdx_cons, List.foldl_cons, ih, boundValue_bindIndex]
      rcases Nat.lt_trichotomy i k with hlt | rfl | hgt
      · -- before the first number of the list
        have hne : placeholderName i ≠ placeholderName k := fun h => by
          have := placeholderName_injective h
          omega
        simp [hne, show ¬ k ≤ i by omega, show ¬ k + 1 ≤ i by omega]
      · simp
      · -- at a number of the tail
        have hne : placeholderName i ≠ placeholderName k := fun h => by
          have := placeholderName_injective h
          omega
        obtain ⟨j, rfl⟩ : ∃ j, i = k + 1 + j := ⟨i - (k + 1), by omega⟩
        simp [hne, show k + 1 + j - (k + 1) = j by omega, show k + 1 + j - k = j + 1 by omega,
          show k ≤ k + 1 + j by omega]

/-- **What the loop binds** to the generated placeholder `:i`. -/
theorem boundValue_bindLoop (r : QSqlResult) (values : List QVariant) (i : Nat) :
    (r.bindLoop values).boundValue (placeholderName i)
      = (values[i]?.bind boundForm).or (r.boundValue (placeholderName i)) := by
  simpa [bindLoop] using boundValue_foldl_bindIndex values 0 r i

end QSqlResult

end Sqlate
