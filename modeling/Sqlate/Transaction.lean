/-
Sqlate/Transaction.lean

`SqlTransaction`: nested transaction objects over one flat transaction.

`m_refCounts` has one entry for each connection name that was ever used; a
member function only touches the entry of its own connection, so the model
keeps the entry with the connection.  A *live* object is one that has been
constructed and not destroyed; it is *armed* until `commit()` or `rollback()`
has disarmed it.

What a member function does to the reference count and to the sets of objects,
it does completely or not at all: one specification lemma for each function
says so, together with the driver calls it makes.
-/
import Mathlib.Data.Finset.Card
import Sqlate.Base.Runs
import Sqlate.Session

namespace Sqlate

/-- A connection name with its entry in `m_refCounts`, the live transaction
objects on it, its session and the number of statements executed so far. -/
structure Connection where
  refCount : Option Int
  armed : Finset Nat
  disarmed : Finset Nat
  session : Session
  executed : Nat

/-- The end of a call, the state after it and the driver calls it made. -/
structure Done where
  ending : Ending
  connection : Connection
  calls : List DriverCall

namespace Connection

def new : Connection := ⟨none, ∅, ∅, .new, 0⟩

/-- `m_refCounts.value( name )`. -/
def value (c : Connection) : Int := c.refCount.getD 0

/-- `m_refCounts[ name ] += d`. -/
def addToCount (c : Connection) (d : Int) : Connection := { c with refCount := some (c.value + d) }

/-- `m_disarmed = true`. -/
def disarm (c : Connection) (id : Nat) : Connection :=
  { c with armed := c.armed.erase id, disarmed := insert id c.disarmed }

/-- `SqlTransaction::SqlTransaction`; an object whose constructor throws does
not come to life. -/
def construct (c : Connection) (id : Nat) (env : CallEnv) : Done :=
  match c.session.checkDbIsAlive env.onMainThread env.opens1 with
  | none => ⟨.exited, c, []⟩
  | some s =>
      match s.attempt .transaction (c.value = 0) env with
      | (.returned, s, calls) =>
          ⟨.returned, { c.addToCount 1 with armed := insert id c.armed, session := s }, calls⟩
      | (ending, s, calls) => ⟨ending, { c with session := s }, calls⟩

/-- `SqlTransaction::~SqlTransaction`. -/
def destroy (c : Connection) (id : Nat) (env : CallEnv) : Done :=
  if id ∈ c.disarmed then ⟨.returned, { c with disarmed := c.disarmed.erase id }, []⟩
  else
    match c.session.checkDbIsAlive env.onMainThread env.opens1 with
    | none => ⟨.exited, c, []⟩
    | some s =>
        -- unlike the other functions, the destructor ignores the result of the call
        let r := if c.value = 1 then ((s.call .rollback env.call1).2, [DriverCall.rollback])
          else (s, [])
        ⟨.returned, { c.addToCount (-1) with armed := c.armed.erase id, session := r.1 }, r.2⟩

/-- `SqlTransaction::commit`. -/
def commit (c : Connection) (id : Nat) (env : CallEnv) : Done :=
  match c.session.checkDbIsAlive env.onMainThread env.opens1 with
  | none => ⟨.exited, c, []⟩
  | some s =>
      match s.attempt .commit (c.value = 1) env with
      | (.returned, s, calls) =>
          ⟨.returned, { (c.addToCount (-1)).disarm id with session := s }, calls⟩
      | (ending, s, calls) => ⟨ending, { c with session := s }, calls⟩

/-- `SqlTransaction::rollback`: the count goes down before the driver is
called. -/
def rollback (c : Connection) (id : Nat) (env : CallEnv) : Done :=
  match c.session.checkDbIsAlive env.onMainThread env.opens1 with
  | none => ⟨.exited, c, []⟩
  | some s =>
      -- also an object whose rollback throws below is disarmed and not counted
      let c := (c.addToCount (-1)).disarm id
      match s.attempt .rollback (c.value = 0) env with
      | (ending, s, calls) => ⟨ending, { c with session := s }, calls⟩

/-- `SqlQuery::exec` on this connection. -/
def exec (c : Connection) (env : CallEnv) : Done :=
  match c.session.exec c.executed env with
  | (.returned, s) => ⟨.returned, { c with session := s, executed := c.executed + 1 }, []⟩
  | (ending, s) => ⟨ending, { c with session := s }, []⟩

end Connection

/-- What happens on a connection.  Objects are named by numbers. -/
inductive TransactionEvent
  | construct (id : Nat) (env : CallEnv)
  | destroy (id : Nat) (env : CallEnv)
  | commit (id : Nat) (env : CallEnv)
  | rollback (id : Nat) (env : CallEnv)
  | exec (env : CallEnv)
  /-- The session is lost while no call is running. -/
  | lose
  deriving DecidableEq

namespace Connection

/-- Is there an object to call?  A constructor needs a name that is not in
use. -/
def possible (c : Connection) : TransactionEvent → Bool
  | .construct id _ => decide (id ∉ c.armed) && decide (id ∉ c.disarmed)
  | .destroy id _ | .commit id _ | .rollback id _ =>
      decide (id ∈ c.armed) || decide (id ∈ c.disarmed)
  | .exec _ | .lose => true

def perform (c : Connection) : TransactionEvent → Done
  | .construct id env => c.construct id env
  | .destroy id env => c.destroy id env
  | .commit id env => c.commit id env
  | .rollback id env => c.rollback id env
  | .exec env => c.exec env
  | .lose => ⟨.returned, { c with session := c.session.lose }, []⟩

/-- One event; impossible ones are skipped.  After `exit(1)` there are no
further events in a run of the program. -/
def happen (c : Connection) (e : TransactionEvent) : Done :=
  if c.possible e then c.perform e else ⟨.returned, c, []⟩

def step (c : Connection) (e : TransactionEvent) : Connection := (c.happen e).connection

theorem happen_of_possible {c : Connection} {e : TransactionEvent} (h : c.possible e = true) :
    c.happen e = c.perform e :=
  if_pos h

theorem happen_of_not_possible {c : Connection} {e : TransactionEvent}
    (h : c.possible e = false) : c.happen e = ⟨.returned, c, []⟩ :=
  if_neg (by simp [h])

/-- What holds before an event and after a possible one holds after its step. -/
theorem step_of_perform {P : Connection → Prop} {c : Connection} {e : TransactionEvent} (hc : P c)
    (h : c.possible e = true → P (c.perform e).connection) : P (c.step e) := by
  show P (c.happen e).connection
  cases hpossible : c.possible e with
  | false => rwa [happen_of_not_possible hpossible]
  | true =>
      rw [happen_of_possible hpossible]
      exact h hpossible

/-! ### Specifications of the member functions -/

/-- The session after the check at the start of a function and an attempt. -/
theorem later_attempt {s t : Session} {env : CallEnv}
    (hcheck : s.checkDbIsAlive env.onMainThread env.opens1 = some t) (d : DriverCall)
    (needed : Bool) : s.Later (t.attempt d needed env).2.1 :=
  (Session.stable_later s).attempt d needed env ((Session.stable_later s).checkDbIsAlive (.refl s) hcheck)

@[simp] theorem value_addToCount (c : Connection) (d : Int) :
    (c.addToCount d).value = c.value + d := rfl

@[simp] theorem value_disarm (c : Connection) (id : Nat) : (c.disarm id).value = c.value := rfl

theorem construct_spec (c : Connection) (id : Nat) (env : CallEnv) :
    ∃ s, c.session.Later s ∧
      ((c.construct id env).ending = .returned ∧ (c.construct id env).connection
          = { c.addToCount 1 with armed := insert id c.armed, session := s } ∨
        (c.construct id env).ending ≠ .returned ∧
          (c.construct id env).connection = { c with session := s }) := by
  rw [construct]
  split
  · exact ⟨c.session, .refl _, .inr ⟨by simp, rfl⟩⟩
  · next t hcheck =>
      have hlater := later_attempt hcheck .transaction (c.value = 0)
      split
      · next s calls hattempt =>
          rw [hattempt] at hlater
          exact ⟨s, hlater, .inl ⟨rfl, rfl⟩⟩
      · next ending s calls hended hattempt =>
          rw [hattempt] at hlater
          exact ⟨s, hlater, .inr ⟨hended, rfl⟩⟩

theorem commit_spec (c : Connection) (id : Nat) (env : CallEnv) :
    ∃ s, c.session.Later s ∧
      ((c.commit id env).ending = .returned ∧ (c.commit id env).connection
          = { (c.addToCount (-1)).disarm id with session := s } ∨
        (c.commit id env).ending ≠ .returned ∧
          (c.commit id env).connection = { c with session := s }) := by
  rw [commit]
  split
  · exact ⟨c.session, .refl _, .inr ⟨by simp, rfl⟩⟩
  · next t hcheck =>
      have hlater := later_attempt hcheck .commit (c.value = 1)
      split
      · next s calls hattempt =>
          rw [hattempt] at hlater
          exact ⟨s, hlater, .inl ⟨rfl, rfl⟩⟩
      · next ending s calls hended hattempt =>
          rw [hattempt] at hlater
          exact ⟨s, hlater, .inr ⟨hended, rfl⟩⟩

theorem rollback_spec (c : Connection) (id : Nat) (env : CallEnv) :
    ∃ s, c.session.Later s ∧
      ((c.rollback id env).connection = { (c.addToCount (-1)).disarm id with session := s } ∨
        (c.rollback id env).ending = .exited ∧ (c.rollback id env).connection = c) := by
  rw [rollback]
  split
  · exact ⟨c.session, .refl _, .inr ⟨rfl, rfl⟩⟩
  · next t hcheck => exact ⟨_, later_attempt hcheck .rollback _, .inl rfl⟩

theorem destroy_spec (c : Connection) {id : Nat} (hid : id ∉ c.disarmed) (env : CallEnv) :
    ∃ s, c.session.Later s ∧
      ((c.destroy id env).connection
          = { c.addToCount (-1) with armed := c.armed.erase id, session := s } ∨
        (c.destroy id env).ending = .exited ∧ (c.destroy id env).connection = c) := by
  rw [destroy, if_neg hid]
  split
  · exact ⟨c.session, .refl _, .inr ⟨rfl, rfl⟩⟩
  · next t hcheck =>
      have hlater := (Session.stable_later c.session).checkDbIsAlive (.refl _) hcheck
      by_cases hlast : c.value = 1
      · exact ⟨_, (Session.stable_later c.session).call .rollback env.call1 hlater,
          .inl (by simp only [hlast, if_true])⟩
      · exact ⟨t, hlater, .inl (by simp only [hlast, if_false])⟩

theorem exec_spec (c : Connection) (env : CallEnv) :
    (∃ s, c.session.Later s ∧ (c.exec env).ending ≠ .returned ∧
      (c.exec env).connection = { c with session := s }) ∨
    ∃ s, c.session.Later s ∧ s.Up ∧ (c.exec env).ending = .returned ∧ (c.exec env).connection
      = { c with session := s.store c.executed, executed := c.executed + 1 } := by
  rw [exec]
  rcases Session.exec_spec c.executed env c.session with
    ⟨s, hlater, ending, hended, hexec⟩ | ⟨s, hlater, hup, hexec⟩
  · refine .inl ⟨s, hlater, ?_⟩
    rw [hexec]
    cases ending with
    | returned => exact absurd rfl hended
    | threw => exact ⟨by simp, rfl⟩
    | exited => exact ⟨by simp, rfl⟩
  · refine .inr ⟨s, hlater, hup, ?_⟩
    rw [hexec]
    exact ⟨rfl, rfl⟩

theorem calls_construct {c : Connection} {id : Nat} {env : CallEnv} {d : DriverCall}
    (h : d ∈ (c.construct id env).calls) : d = .transaction ∧ c.value = 0 := by
  rw [construct] at h
  split at h
  · cases h
  · next t _ =>
      have hcalls : d ∈ (t.attempt .transaction (c.value = 0) env).2.2 := by
        split at h <;> simp_all
      simpa using Session.calls_attempt hcalls

theorem calls_commit {c : Connection} {id : Nat} {env : CallEnv} {d : DriverCall}
    (h : d ∈ (c.commit id env).calls) : d = .commit ∧ c.value = 1 := by
  rw [commit] at h
  split at h
  · cases h
  · next t _ =>
      have hcalls : d ∈ (t.attempt .commit (c.value = 1) env).2.2 := by
        split at h <;> simp_all
      simpa using Session.calls_attempt hcalls

theorem calls_rollback {c : Connection} {id : Nat} {env : CallEnv} {d : DriverCall}
    (h : d ∈ (c.rollback id env).calls) : d = .rollback ∧ c.value = 1 := by
  rw [rollback] at h
  split at h
  · cases h
  · next t _ =>
      -- the count that is compared with zero has gone down already
      obtain ⟨rfl, hzero⟩ := Session.calls_attempt h
      rw [value_disarm, value_addToCount, decide_eq_true_eq] at hzero
      exact ⟨rfl, by omega⟩

theorem calls_destroy {c : Connection} {id : Nat} {env : CallEnv} {d : DriverCall}
    (h : d ∈ (c.destroy id env).calls) : d = .rollback ∧ c.value = 1 ∧ id ∉ c.disarmed := by
  rw [destroy] at h
  by_cases hid : id ∈ c.disarmed
  · rw [if_pos hid] at h
    cases h
  · rw [if_neg hid] at h
    split at h
    · cases h
    · by_cases hlast : c.value = 1
      · simp only [hlast, if_true, List.mem_singleton] at h
        exact ⟨h, hlast, hid⟩
      · simp only [hlast, if_false, List.not_mem_nil] at h

theorem calls_exec (c : Connection) (env : CallEnv) : (c.exec env).calls = [] := by
  rw [exec]
  split <;> rfl

/-! ### Executions -/

/-- Each execution on the connection is in exactly one place. -/
def Accounted (c : Connection) : Prop := c.session.Accounted c.executed

theorem accounted_new : new.Accounted := ⟨rfl, ⟨nofun, nofun⟩⟩

theorem accounted_step {c : Connection} (e : TransactionEvent) (hc : c.Accounted) :
    (c.step e).Accounted := by
  refine step_of_perform (P := Accounted) hc fun _ => ?_
  cases e with
  | construct id env =>
      obtain ⟨s, hlater, ⟨-, h⟩ | ⟨-, h⟩⟩ := c.construct_spec id env <;>
        rw [perform, h] <;> exact Session.Accounted.later hc hlater
  | destroy id env =>
      by_cases hid : id ∈ c.disarmed
      · rw [perform, destroy, if_pos hid]
        exact hc
      · obtain ⟨s, hlater, h | ⟨-, h⟩⟩ := c.destroy_spec hid env
        · rw [perform, h]
          exact Session.Accounted.later hc hlater
        · rwa [perform, h]
  | commit id env =>
      obtain ⟨s, hlater, ⟨-, h⟩ | ⟨-, h⟩⟩ := c.commit_spec id env <;>
        rw [perform, h] <;> exact Session.Accounted.later hc hlater
  | rollback id env =>
      obtain ⟨s, hlater, h | ⟨-, h⟩⟩ := c.rollback_spec id env
      · rw [perform, h]
        exact Session.Accounted.later hc hlater
      · rwa [perform, h]
  | exec env =>
      obtain ⟨s, hlater, -, h⟩ | ⟨s, hlater, hup, -, h⟩ := c.exec_spec env
      · rw [perform, h]
        exact Session.Accounted.later hc hlater
      · rw [perform, h]
        exact (Session.Accounted.later hc hlater).store hup
  | lose => exact Session.Accounted.later hc ((Session.stable_later c.session).lose _ (.refl _))

/-! ### The member functions when the driver calls succeed -/

section
variable {c : Connection} (h : c.session.Up) (id : Nat) {env : CallEnv}
include h

theorem construct_of_up (henv : env.call1.succeeds = true) :
    (c.construct id env).connection
      = { c.addToCount 1 with
          armed := insert id c.armed
          session := if c.value = 0 then Session.serve .transaction c.session else c.session } := by
  simp only [construct, h.checkDbIsAlive, h.attempt .transaction _ henv, decide_eq_true_eq]

theorem commit_of_up (henv : env.call1.succeeds = true) :
    (c.commit id env).connection
      = { (c.addToCount (-1)).disarm id with
          session := if c.value = 1 then Session.serve .commit c.session else c.session } := by
  simp only [commit, h.checkDbIsAlive, h.attempt .commit _ henv, decide_eq_true_eq]

theorem rollback_of_up (henv : env.call1.succeeds = true) :
    (c.rollback id env).connection
      = { (c.addToCount (-1)).disarm id with
          session := if c.value = 1 then Session.serve .rollback c.session else c.session } := by
  have hvalue : c.value + -1 = 0 ↔ c.value = 1 := by omega
  simp only [rollback, h.checkDbIsAlive, h.attempt .rollback _ henv, decide_eq_true_eq,
    value_disarm, value_addToCount, hvalue]

theorem destroy_of_up (hid : id ∉ c.disarmed) (henv : env.call1.succeeds = true) :
    (c.destroy id env).connection
      = { c.addToCount (-1) with
          armed := c.armed.erase id
          session := if c.value = 1 then Session.serve .rollback c.session else c.session } := by
  simp only [destroy, if_neg hid, h.checkDbIsAlive, h.call .rollback henv]
  split_ifs <;> rfl

theorem exec_of_up (henv : env.call1.lost = false) :
    (c.exec env).connection
      = if env.call1.accepted then
          { c with session := c.session.store c.executed, executed := c.executed + 1 }
        else c := by
  cases hok : env.call1.accepted <;> simp [exec, h.exec c.executed henv, hok]

end

end Connection

end Sqlate
