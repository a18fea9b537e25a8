/-
Sqlate/NestedRollback.lean

What becomes of the statements of a transaction object that is rolled back.

The driver has one flat transaction, and an object that is not the last one
only moves the reference count when it is rolled back or destroyed.  Its
statements stay in the open transaction and share the fate of the objects
around it: they reach the database when the last object is committed.

The history of a connection remembers, for each object, how many statements
had been executed when it was constructed, and the *windows* of the objects
that ended without a commit.  When all driver calls succeed, no statement of
such a window ever becomes durable exactly in the runs in which the last
object is never committed while a statement of such a window is pending
(`rolledBack_iff`).
-/
import Sqlate.TransactionCounts

namespace Sqlate

/-- A connection with the history of its transaction objects. -/
structure TransactionHistory where
  connection : Connection
  /-- The number of statements executed before the construction. -/
  since : Nat → Nat
  /-- The windows of the objects that ended without a commit. -/
  cancelled : List (Nat × Nat)

namespace TransactionHistory

def new : TransactionHistory := ⟨.new, fun _ => 0, []⟩

def step (h : TransactionHistory) (e : TransactionEvent) : TransactionHistory where
  connection := h.connection.step e
  since := match e with
    | .construct id _ =>
        if h.connection.possible e then Function.update h.since id h.connection.executed
        else h.since
    | _ => h.since
  cancelled := match e with
    | .rollback id _ | .destroy id _ =>
        if id ∈ h.connection.armed then h.cancelled ++ [(h.since id, h.connection.executed)]
        else h.cancelled
    | _ => h.cancelled

/-- Execution `i` took place in the window of an object that ended without a
commit. -/
def Cancelled (h : TransactionHistory) (i : Nat) : Prop :=
  ∃ w ∈ h.cancelled, w.1 ≤ i ∧ i < w.2

/-- No such execution is in the committed database state. -/
def RolledBack (h : TransactionHistory) : Prop :=
  ∀ i, h.Cancelled i → i ∉ h.connection.session.durable

/-- All driver calls succeed, the connection is not lost, and no object is
committed or rolled back again. -/
def Orderly (h : TransactionHistory) (e : TransactionEvent) : Prop :=
  e.succeeds = true ∧ h.connection.EndsOnce e

instance (h : TransactionHistory) (e : TransactionEvent) : Decidable (h.Orderly e) :=
  inferInstanceAs (Decidable (_ ∧ _))

/-- When the last open object is committed, no statement of an object that
ended without a commit is pending. -/
def CommitsNothingCancelled (h : TransactionHistory) : TransactionEvent → Prop
  | .commit id _ =>
      h.connection.armed = {id} → ∀ i ∈ h.connection.session.pending, ¬ h.Cancelled i
  | _ => True

/-! ### The invariant -/

structure Inv (h : TransactionHistory) : Prop where
  balanced : h.connection.Balanced
  inStep : h.connection.InStep
  accounted : h.connection.Accounted
  /-- What was executed since an armed object was constructed is pending. -/
  pending : ∀ id ∈ h.connection.armed, ∀ i, h.since id ≤ i → i < h.connection.executed →
    i ∈ h.connection.session.pending
  cancelled : ∀ w ∈ h.cancelled, w.2 ≤ h.connection.executed

theorem inv_new : new.Inv where
  balanced := Connection.balanced_new
  inStep := Connection.inStep_new
  accounted := Connection.accounted_new
  pending := by simp [new, Connection.new]
  cancelled := by simp [new]

end TransactionHistory

/-! ### What an orderly step does -/

/-- The driver call with which the last object ends. -/
def TransactionEvent.finishingCall : TransactionEvent → DriverCall
  | commit _ _ => .commit
  | _ => .rollback

/-- The effect of an orderly step on the connection. -/
inductive OrderlyEffect (c : Connection) (e : TransactionEvent) (c' : Connection) : Prop
  | idle (ends : ∀ id, e.finishing? = some id → id ∉ c.armed) (armed : c'.armed = c.armed)
      (session : c'.session = c.session) (executed : c'.executed = c.executed)
  | constructed (id : Nat) (env : CallEnv) (event : e = .construct id env)
      (possible : c.possible e = true)
      (armed : c'.armed = insert id c.armed)
      (pending : c'.session.pending = c.session.pending)
      (durable : c'.session.durable = c.session.durable) (executed : c'.executed = c.executed)
  | executed (env : CallEnv) (event : e = .exec env) (armed : c'.armed = c.armed)
      (session : c'.session = c.session.store c.executed) (executed : c'.executed = c.executed + 1)
  | finished (id : Nat) (ends : e.finishing? = some id) (armed : id ∈ c.armed)
      (armed' : c'.armed = c.armed.erase id)
      (session : c'.session
        = if c.value = 1 then Session.serve e.finishingCall c.session else c.session)
      (executed : c'.executed = c.executed)

theorem Connection.orderlyEffect {c : Connection} {e : TransactionEvent} (hc : c.Balanced)
    (hin : c.InStep) (hsucceeds : e.succeeds = true) (he : c.EndsOnce e) :
    OrderlyEffect c e (c.step e) := by
  show OrderlyEffect c e (c.happen e).connection
  cases hpossible : c.possible e with
  | false =>
      rw [happen_of_not_possible hpossible]
      refine .idle ?_ rfl rfl rfl
      intro id hid harmed
      cases e <;> simp_all [possible, TransactionEvent.finishing?]
  | true =>
      rw [happen_of_possible hpossible]
      cases e with
      | construct id env =>
          rw [perform, construct_of_up hin.up id hsucceeds]
          refine .constructed id env rfl hpossible rfl ?_ ?_ rfl <;>
            by_cases hfirst : c.value = 0 <;> simp [hfirst, Session.serve]
      | destroy id env =>
          by_cases hid : id ∈ c.disarmed
          · rw [perform, destroy, if_pos hid]
            refine .idle ?_ rfl rfl rfl
            rintro _ ⟨⟩ harmed
            exact Finset.disjoint_left.mp hc.disjoint harmed hid
          · have harmed := mem_armed_of_possible hpossible rfl hid
            rw [perform, destroy_of_up hin.up id hid hsucceeds]
            exact .finished id rfl harmed rfl rfl rfl
      | commit id env =>
          have harmed := mem_armed_of_possible hpossible rfl he
          rw [perform, commit_of_up hin.up id hsucceeds]
          exact .finished id rfl harmed rfl rfl rfl
      | rollback id env =>
          have harmed := mem_armed_of_possible hpossible rfl he
          rw [perform, rollback_of_up hin.up id hsucceeds]
          exact .finished id rfl harmed rfl rfl rfl
      | exec env =>
          have hlost : env.call1.lost = false := by simpa [TransactionEvent.succeeds] using hsucceeds
          rw [perform, exec_of_up hin.up hlost]
          split_ifs
          · exact .executed env rfl rfl rfl rfl
          · exact .idle (by rintro _ ⟨⟩) rfl rfl rfl
      | lose => cases hsucceeds

namespace TransactionHistory

variable {h : TransactionHistory} {e : TransactionEvent}

theorem Inv.effect (hi : h.Inv) (he : h.Orderly e) :
    OrderlyEffect h.connection e (h.connection.step e) :=
  Connection.orderlyEffect hi.balanced hi.inStep he.1 he.2

/-- The count is one exactly for the last armed object. -/
theorem Inv.value_eq_one_iff (hi : h.Inv) {id : Nat} (hid : id ∈ h.connection.armed) :
    h.connection.value = 1 ↔ h.connection.armed = {id} := by
  constructor
  · exact hi.balanced.armed_eq_singleton hid
  · intro harmed
    have hvalue := hi.balanced.value
    rw [harmed, Finset.card_singleton] at hvalue
    exact hvalue

theorem connection_step : (h.step e).connection = h.connection.step e := rfl

/-- The start of an armed object's window does not change. -/
theorem since_step {id : Nat} (hid : id ∈ h.connection.armed) :
    (h.step e).since id = h.since id := by
  cases e with
  | construct id' env =>
      by_cases hid' : id = id'
      · subst hid'
        have himpossible : h.connection.possible (.construct id env) = false := by
          simp [Connection.possible, hid]
        simp [step, himpossible]
      · simp only [step]
        split_ifs
        · exact Function.update_of_ne hid' _ _
        · rfl
  | _ => rfl

theorem pending_step (hi : h.Inv) (he : h.Orderly e) :
    ∀ id ∈ (h.step e).connection.armed, ∀ i, (h.step e).since id ≤ i →
      i < (h.step e).connection.executed → i ∈ (h.step e).connection.session.pending := by
  intro id hid i hsince hlt
  rw [connection_step] at hid hlt ⊢
  cases hi.effect he with
  | idle ends armed session executed =>
      rw [armed] at hid
      rw [since_step hid] at hsince
      rw [session]
      exact hi.pending id hid i hsince (executed ▸ hlt)
  | constructed id' env event possible armed pending durable executed =>
      rw [armed, Finset.mem_insert] at hid
      rw [executed] at hlt
      rw [pending]
      rcases hid with rfl | hid
      · -- nothing has been executed in the new window
        subst event
        simp only [step, possible, if_true, Function.update_self] at hsince
        omega
      · rw [since_step hid] at hsince
        exact hi.pending id hid i hsince hlt
  | executed env event armed session executed =>
      -- an armed object means an open transaction, so the new execution is pending
      rw [armed] at hid
      rw [since_step hid] at hsince
      rw [executed] at hlt
      have hopen := hi.inStep.inTransaction.mpr (hi.balanced.value_pos hid)
      rw [session, Session.store, if_pos hopen]
      rcases Nat.lt_succ_iff_lt_or_eq.mp hlt with hlt | rfl
      · exact List.mem_append_left _ (hi.pending id hid i hsince hlt)
      · exact List.mem_append_right _ (List.mem_singleton.mpr rfl)
  | finished id' ends armed armed' session executed =>
      -- another object is still armed, so the driver has not been called
      rw [armed', Finset.mem_erase] at hid
      obtain ⟨hne, hid⟩ := hid
      rw [since_step hid] at hsince
      have hnotLast : h.connection.value ≠ 1 := by
        intro hlast
        rw [(hi.value_eq_one_iff armed).mp hlast, Finset.mem_singleton] at hid
        exact hne hid
      rw [session, if_neg hnotLast]
      exact hi.pending id hid i hsince (executed ▸ hlt)

theorem executed_step_le (hi : h.Inv) (he : h.Orderly e) :
    h.connection.executed ≤ (h.step e).connection.executed := by
  rw [connection_step]
  cases hi.effect he with
  | idle _ _ _ executed => omega
  | constructed _ _ _ _ _ _ _ executed => omega
  | executed _ _ _ _ executed => omega
  | finished _ _ _ _ _ executed => omega

/-- A window ends with the last execution so far. -/
theorem mem_cancelled_step {w : Nat × Nat} (hw : w ∈ (h.step e).cancelled) :
    w ∈ h.cancelled ∨ ∃ id ∈ h.connection.armed, e.finishing? = some id ∧
      e.finishingCall = .rollback ∧ w = (h.since id, h.connection.executed) := by
  cases e with
  | rollback id env =>
      by_cases hid : id ∈ h.connection.armed
      · simp only [step, hid, if_true, List.mem_append, List.mem_singleton] at hw
        exact hw.imp_right fun hw => ⟨id, hid, rfl, rfl, hw⟩
      · simp only [step, hid, if_false] at hw
        exact .inl hw
  | destroy id env =>
      by_cases hid : id ∈ h.connection.armed
      · simp only [step, hid, if_true, List.mem_append, List.mem_singleton] at hw
        exact hw.imp_right fun hw => ⟨id, hid, rfl, rfl, hw⟩
      · simp only [step, hid, if_false] at hw
        exact .inl hw
  | _ => exact .inl hw

theorem inv_step (e : TransactionEvent) (hi : h.Inv) (he : h.Orderly e) : (h.step e).Inv where
  balanced := Connection.balanced_step hi.balanced he.2
  inStep := Connection.inStep_step hi.balanced hi.inStep he.2 he.1
  accounted := Connection.accounted_step e hi.accounted
  pending := pending_step hi he
  cancelled := by
    intro w hw
    refine le_trans ?_ (executed_step_le hi he)
    rcases mem_cancelled_step hw with hw | ⟨id, -, -, -, rfl⟩
    · exact hi.cancelled w hw
    · exact le_rfl

theorem Cancelled.lt (hi : h.Inv) {i : Nat} (hc : h.Cancelled i) : i < h.connection.executed := by
  obtain ⟨w, hw, -, hlt⟩ := hc
  exact lt_of_lt_of_le hlt (hi.cancelled w hw)

theorem Cancelled.step {i : Nat} (hc : h.Cancelled i) : (h.step e).Cancelled i := by
  obtain ⟨w, hw, hle⟩ := hc
  refine ⟨w, ?_, hle⟩
  cases e with
  | rollback id env =>
      simp only [TransactionHistory.step]
      split_ifs
      · exact List.mem_append_left _ hw
      · exact hw
  | destroy id env =>
      simp only [TransactionHistory.step]
      split_ifs
      · exact List.mem_append_left _ hw
      · exact hw
  | _ => exact hw

/-- What is committed in an orderly step: a new execution outside of a
transaction, or the pending ones at the end of the last object. -/
theorem durable_step (hi : h.Inv) (he : h.Orderly e) {i : Nat}
    (hdurable : i ∈ (h.step e).connection.session.durable) :
    i ∈ h.connection.session.durable ∨ i = h.connection.executed ∨
      i ∈ h.connection.session.pending ∧ ∃ id env, e = .commit id env ∧
        h.connection.armed = {id} := by
  rw [connection_step] at hdurable
  cases hi.effect he with
  | idle ends armed session executed => exact .inl (session ▸ hdurable)
  | constructed id env event possible armed pending durable executed =>
      exact .inl (durable ▸ hdurable)
  | executed env event armed session executed =>
      rw [session, Session.store] at hdurable
      split_ifs at hdurable
      · exact .inl hdurable
      · exact (List.mem_append.mp hdurable).imp_right fun h => .inl (List.mem_singleton.mp h)
  | finished id ends armed armed' session executed =>
      rw [session] at hdurable
      split_ifs at hdurable with hlast
      · cases e with
        | commit id' env =>
            obtain rfl := Option.some.inj ends
            exact (List.mem_append.mp hdurable).imp_right fun hpending =>
              .inr ⟨hpending, id', env, rfl, (hi.value_eq_one_iff armed).mp hlast⟩
        | _ => exact .inl hdurable
      · exact .inl hdurable

/-- **One step**: rolled back statements stay out of the database exactly when
the step does not commit any of them. -/
theorem rolledBack_step_iff (hi : h.Inv) (he : h.Orderly e) (hr : h.RolledBack) :
    (h.step e).RolledBack ↔ h.CommitsNothingCancelled e := by
  constructor
  · intro hkept
    cases e with
    | commit id env =>
        intro harmed i hpending hcancelled
        have hid : id ∈ h.connection.armed := harmed ▸ Finset.mem_singleton_self id
        have hlast := (hi.value_eq_one_iff hid).mpr harmed
        refine hkept i hcancelled.step ?_
        rw [connection_step]
        cases hi.effect he with
        | idle ends armed session executed => exact absurd hid (ends id rfl)
        | constructed id' env' event => cases event
        | executed env' event => cases event
        | finished id' ends armed armed' session executed =>
            rw [session, if_pos hlast]
            exact List.mem_append_right _ hpending
    | _ => trivial
  · intro hcommits i hcancelled hdurable
    obtain ⟨w, hw, hle, hlt⟩ := hcancelled
    rcases mem_cancelled_step hw with hw | ⟨id, hid, hfinishing, hcall, rfl⟩
    · -- a window from before the step
      have hold : h.Cancelled i := ⟨w, hw, hle, hlt⟩
      rcases durable_step hi he hdurable with hd | rfl | ⟨hpending, id, env, rfl, harmed⟩
      · exact hr i hold hd
      · exact absurd (hold.lt hi) (lt_irrefl _)
      · exact hcommits harmed i hpending hold
    · -- the window that the step has closed
      have hpending := hi.pending id hid i hle hlt
      rcases durable_step hi he hdurable with hd | rfl | ⟨-, id', env, rfl, -⟩
      · exact hi.accounted.not_mem_pending hd hpending
      · exact absurd hlt (lt_irrefl _)
      · cases hcall

/-- **Rolled back statements**: in runs without failures, no statement of an
object that was rolled back or destroyed without a commit is ever part of the
committed database state, exactly when the last open object is never committed
while such a statement is pending. -/
theorem rolledBack_iff (es : List TransactionEvent) (hes : Runs.Along step Orderly new es) :
    Runs.Along step (fun h e => (h.step e).RolledBack) new es
      ↔ Runs.Along step CommitsNothingCancelled new es :=
  Runs.along_iff_of_kept (I := Inv) (fun _ e hi he => inv_step e hi he)
    (fun _ _ hi he hr => rolledBack_step_iff hi he hr) inv_new
    (by simp [RolledBack, Cancelled, new]) hes

/-- The outer object is rolled back as well; a later one is committed. -/
def rolledBackEvents : List TransactionEvent :=
  [.construct 0 .success, .exec .success, .construct 1 .success, .exec .success,
   .rollback 1 .success, .rollback 0 .success, .construct 2 .success, .exec .success,
   .commit 2 .success, .destroy 0 .success]

theorem rolledBack_iff_rolledBackEvents :
    Runs.Along step (fun h e => (h.step e).RolledBack) new rolledBackEvents
      ↔ Runs.Along step CommitsNothingCancelled new rolledBackEvents :=
  rolledBack_iff rolledBackEvents (by decide)

/-- The inner object is rolled back, the outer one committed. -/
def innerRollbackEvents : List TransactionEvent :=
  [.construct 0 .success, .construct 1 .success, .exec .success, .rollback 1 .success,
   .commit 0 .success]

/-- **An inner rollback does not undo anything**: its statement is committed
with the outer object. -/
theorem not_rolledBack_innerRollbackEvents :
    Runs.Along step Orderly new innerRollbackEvents ∧
      ¬ Runs.Along step (fun h e => (h.step e).RolledBack) new innerRollbackEvents := by
  refine ⟨by decide, fun halong => ?_⟩
  have hkept := halong.2.2.2.2.1
  exact absurd (hkept 0 ⟨(0, 1), by decide, by decide, by decide⟩) (by decide)

end TransactionHistory

end Sqlate
