/-
Sqlate/RepeatedEnding.lean

`commit()` or `rollback()` once more, on an object that is disarmed.

The destructor looks at `m_disarmed` and leaves, the two functions do not.  What a
finishing call does is decided by the count of the connection, to which a disarmed
object does not belong any more, so the call counts another object out or ends the
transaction of all of them.  It only does nothing when the check at its start ends the
program (`repeatUntouched_run_iff`).
-/
import Sqlate.TransactionCounts

namespace Sqlate

theorem Session.checkDbIsAlive_eq_none_iff (onMainThread : Bool) (opens : List Bool) (s : Session) :
    s.checkDbIsAlive onMainThread opens = none ↔ s.isOpen = false ∧ onMainThread = true := by
  rw [checkDbIsAlive]
  cases s.isOpen with
  | true => simp
  | false => cases onMainThread <;> simp

/-- A call that is needed is made. -/
theorem Session.calls_attempt_ne_nil (d : DriverCall) (env : CallEnv) (s : Session) :
    (s.attempt d true env).2.2 ≠ [] := by
  cases hfirst : (s.call d env.call1).1 with
  | true =>
      rw [attempt_of_accepted hfirst]
      exact List.cons_ne_nil d []
  | false =>
      rw [attempt_of_not_accepted hfirst]
      split
      · exact List.cons_ne_nil d []
      · exact List.cons_ne_nil d [d]

namespace Connection

/-- The count is as before, and the driver is not asked for anything, so that its transaction is as
before too.  (This asks for more: a call that the driver makes without a transaction would not
change one either.) -/
structure Untouched (c : Connection) (e : TransactionEvent) : Prop where
  value : (c.happen e).connection.value = c.value
  calls : (c.happen e).calls = []

/-- The driver knows that the connection is closed, and the check at the start of a
finishing call is made on the main thread. -/
def StopsAtCheck (c : Connection) : TransactionEvent → Prop
  | .commit _ env | .rollback _ env => c.session.isOpen = false ∧ env.onMainThread = true
  | _ => False

/-- A finishing call of a disarmed object touches neither count nor driver. -/
def RepeatUntouched (c : Connection) (e : TransactionEvent) : Prop :=
  ¬ c.EndsOnce e → c.Untouched e

variable {c : Connection} {e : TransactionEvent}

theorem untouched_of_exited (h : c.happen e = ⟨.exited, c, []⟩) : c.Untouched e := by
  constructor
  · rw [h]
  · rw [h]

/-- The count has gone down. -/
theorem not_untouched_of_value (h : (c.happen e).connection.value = c.value + -1) :
    ¬ c.Untouched e := by
  intro huntouched
  have hsame := huntouched.value
  rw [h] at hsame
  omega

variable (c)

theorem commit_untouched_iff {id : Nat} (hid : id ∈ c.disarmed) (env : CallEnv) :
    c.Untouched (.commit id env) ↔ c.session.isOpen = false ∧ env.onMainThread = true := by
  have hpossible : c.possible (.commit id env) = true := by simp [possible, hid]
  have hhappen : c.happen (.commit id env) = c.commit id env := happen_of_possible hpossible
  rw [← Session.checkDbIsAlive_eq_none_iff env.onMainThread env.opens1]
  cases hcheck : c.session.checkDbIsAlive env.onMainThread env.opens1 with
  | none =>
      refine iff_of_true (untouched_of_exited ?_) rfl
      rw [hhappen, commit, hcheck]
  | some s =>
      refine iff_of_false ?_ (Option.some_ne_none s)
      -- the last count sends COMMIT, any other one goes down
      by_cases hlast : c.value = 1
      · intro h
        have hcalls : (c.commit id env).calls = (s.attempt .commit true env).2.2 := by
          simp only [commit, hcheck, hlast, decide_true]
          split
          · next heq => rw [heq]
          · next heq => rw [heq]
        have hnone := h.calls
        rw [hhappen, hcalls] at hnone
        exact Session.calls_attempt_ne_nil .commit env s hnone
      · apply not_untouched_of_value
        rw [hhappen]
        simp only [commit, hcheck, hlast, decide_false, Session.attempt]
        rfl

theorem rollback_untouched_iff {id : Nat} (hid : id ∈ c.disarmed) (env : CallEnv) :
    c.Untouched (.rollback id env) ↔ c.session.isOpen = false ∧ env.onMainThread = true := by
  have hpossible : c.possible (.rollback id env) = true := by simp [possible, hid]
  have hhappen : c.happen (.rollback id env) = c.rollback id env := happen_of_possible hpossible
  rw [← Session.checkDbIsAlive_eq_none_iff env.onMainThread env.opens1]
  cases hcheck : c.session.checkDbIsAlive env.onMainThread env.opens1 with
  | none =>
      refine iff_of_true (untouched_of_exited ?_) rfl
      rw [hhappen, rollback, hcheck]
  | some s =>
      refine iff_of_false ?_ (Option.some_ne_none s)
      -- the count goes down before the driver is called
      apply not_untouched_of_value
      rw [hhappen, rollback, hcheck]
      rfl

/-- **In any state**, with any number of objects. -/
theorem repeatUntouched_iff (e : TransactionEvent) :
    c.RepeatUntouched e ↔ c.EndsOnce e ∨ c.StopsAtCheck e := by
  cases e with
  | commit id env =>
      by_cases hid : id ∈ c.disarmed
      · have hagain : ¬ c.EndsOnce (.commit id env) := fun h => h hid
        rw [RepeatUntouched, or_iff_right hagain, forall_prop_of_true hagain]
        exact c.commit_untouched_iff hid env
      · exact iff_of_true (fun h => absurd hid h) (.inl hid)
  | rollback id env =>
      by_cases hid : id ∈ c.disarmed
      · have hagain : ¬ c.EndsOnce (.rollback id env) := fun h => h hid
        rw [RepeatUntouched, or_iff_right hagain, forall_prop_of_true hagain]
        exact c.rollback_untouched_iff hid env
      · exact iff_of_true (fun h => absurd hid h) (.inl hid)
  | construct id env => exact iff_of_true (fun h => absurd trivial h) (.inl trivial)
  | destroy id env => exact iff_of_true (fun h => absurd trivial h) (.inl trivial)
  | exec env => exact iff_of_true (fun h => absurd trivial h) (.inl trivial)
  | lose => exact iff_of_true (fun h => absurd trivial h) (.inl trivial)

end Connection

/-! ### Runs -/

namespace Connections

/-- **No call for a disarmed object touches the counts or the driver, in a run from any
state, if and only if no such call gets past the check at its start.** -/
theorem repeatUntouched_run_iff (w : Connections) (es : List (QString × TransactionEvent)) :
    Runs.Along step (fun w e => (w e.1).RepeatUntouched e.2) w es ↔
      Runs.Along step (fun w e => (w e.1).EndsOnce e.2 ∨ (w e.1).StopsAtCheck e.2) w es :=
  Runs.along_congr (I := fun _ => True) (fun _ _ _ => trivial)
    (fun w e _ => (w e.1).repeatUntouched_iff e.2) trivial es

/-- An inner object is committed, and rolled back all the same. -/
def rolledBackAfterCommit : List (QString × TransactionEvent) :=
  [(latin1 "db", .construct 0 .success), (latin1 "db", .exec .success),
   (latin1 "db", .construct 1 .success), (latin1 "db", .commit 1 .success),
   (latin1 "db", .rollback 1 .success)]

/-- **The work of the outer object is thrown away**, while the object is still open. -/
theorem not_repeatUntouched_rolledBackAfterCommit :
    ((Runs.run step new rolledBackAfterCommit) (latin1 "db")).armed = {0} ∧
    ((Runs.run step new rolledBackAfterCommit) (latin1 "db")).value = 0 ∧
    ((Runs.run step new rolledBackAfterCommit) (latin1 "db")).session.discarded = [0] ∧
    ¬ Runs.Along step (fun w e => (w e.1).RepeatUntouched e.2) new rolledBackAfterCommit := by
  refine ⟨by decide, by decide, by decide, fun h => ?_⟩
  have hlast := h.2.2.2.2.1 fun hends => absurd hends (by decide)
  exact absurd hlast.value (by decide)

end Connections

end Sqlate
