/-
Sqlate/TransactionCounts.lean

The reference counts of `SqlTransaction` over whole runs.

Any number of connections and objects, any order of the calls, any outcomes of
the driver calls.  The only thing asked of the program is that it does not
commit or roll back an object once more after it has been disarmed; then the
count of a connection is the number of its armed objects, and everything else
follows (`refCounts_run`).
-/
import Sqlate.Qt.QString
import Sqlate.Transaction

namespace Sqlate

/-- The object whose life a call ends. -/
def TransactionEvent.finishing? : TransactionEvent → Option Nat
  | destroy id _ | commit id _ | rollback id _ => some id
  | _ => none

/-- All driver calls of the event succeed, and the connection is not lost. -/
def TransactionEvent.succeeds : TransactionEvent → Bool
  | construct _ env | destroy _ env | commit _ env | rollback _ env => env.call1.succeeds
  | exec env => !env.call1.lost
  | lose => false

namespace Connection

/-- An object is not committed or rolled back again. -/
def EndsOnce (c : Connection) : TransactionEvent → Prop
  | .commit id _ | .rollback id _ => id ∉ c.disarmed
  | _ => True

instance (c : Connection) : (e : TransactionEvent) → Decidable (c.EndsOnce e)
  | .commit id _ | .rollback id _ => inferInstanceAs (Decidable (id ∉ c.disarmed))
  | .construct _ _ | .destroy _ _ | .exec _ | .lose => isTrue trivial

/-- **The invariant**: the count is the number of live, not disarmed
objects. -/
structure Balanced (c : Connection) : Prop where
  value : c.value = c.armed.card
  disjoint : Disjoint c.armed c.disarmed

/-- What the library does with the driver in a step. -/
structure Disciplined (c : Connection) (e : TransactionEvent) : Prop where
  /-- `Q_ASSERT( m_refCounts.value( name ) > 0 )` -/
  assertion : ∀ id env, e = .commit id env ∨ e = .rollback id env →
    c.possible e = true → 0 < c.value
  transaction : .transaction ∈ (c.happen e).calls → c.value = 0
  finishing : .commit ∈ (c.happen e).calls ∨ .rollback ∈ (c.happen e).calls →
    ∃ id, e.finishing? = some id ∧ c.armed = {id}

/-- The session is up, and has an open transaction when the count is
positive. -/
structure InStep (c : Connection) : Prop where
  up : c.session.Up
  inTransaction : c.session.inTransaction = true ↔ 0 < c.value

theorem balanced_new : new.Balanced := ⟨rfl, Finset.disjoint_empty_left _⟩

theorem inStep_new : new.InStep := ⟨⟨rfl, rfl⟩, by decide⟩

variable {c : Connection}

/-! ### Steps keep the balance -/

namespace Balanced

theorem of_session (hc : c.Balanced) (s : Session) (n : Nat) :
    Balanced { c with session := s, executed := n } :=
  ⟨hc.value, hc.disjoint⟩

theorem opened (hc : c.Balanced) {id : Nat} (harmed : id ∉ c.armed) (hdisarmed : id ∉ c.disarmed)
    (s : Session) :
    Balanced { c.addToCount 1 with armed := insert id c.armed, session := s } where
  value := by
    rw [Finset.card_insert_of_notMem harmed, Nat.cast_succ, ← hc.value]
    rfl
  disjoint := Finset.disjoint_insert_left.mpr ⟨hdisarmed, hc.disjoint⟩

theorem value_erase (hc : c.Balanced) {id : Nat} (hid : id ∈ c.armed) :
    c.value + -1 = (c.armed.erase id).card := by
  have hcard := Finset.card_erase_add_one hid
  have hvalue := hc.value
  omega

theorem disarmed (hc : c.Balanced) {id : Nat} (hid : id ∈ c.armed) (s : Session) :
    Balanced { (c.addToCount (-1)).disarm id with session := s } where
  value := hc.value_erase hid
  disjoint := by
    rw [disarm, Finset.disjoint_insert_right]
    exact ⟨Finset.notMem_erase id c.armed, hc.disjoint.mono_left (Finset.erase_subset id _)⟩

theorem destroyed (hc : c.Balanced) {id : Nat} (hid : id ∈ c.armed) (s : Session) :
    Balanced { c.addToCount (-1) with armed := c.armed.erase id, session := s } where
  value := hc.value_erase hid
  disjoint := hc.disjoint.mono_left (Finset.erase_subset id _)

theorem forgotten (hc : c.Balanced) (id : Nat) :
    Balanced { c with disarmed := c.disarmed.erase id } :=
  ⟨hc.value, hc.disjoint.mono_right (Finset.erase_subset id _)⟩

end Balanced

/-- An object that may be committed, rolled back or destroyed and is not
disarmed is armed. -/
theorem mem_armed_of_possible {e : TransactionEvent} {id : Nat} (hpossible : c.possible e = true)
    (hfinishing : e.finishing? = some id) (hid : id ∉ c.disarmed) : id ∈ c.armed := by
  have hlive : id ∈ c.armed ∨ id ∈ c.disarmed := by
    cases e <;> simp_all [possible, TransactionEvent.finishing?]
  exact hlive.resolve_right hid

theorem balanced_step {e : TransactionEvent} (hc : c.Balanced) (he : c.EndsOnce e) :
    (c.step e).Balanced := by
  refine step_of_perform (P := Balanced) hc fun hpossible => ?_
  cases e with
  | construct id env =>
      obtain ⟨harmed, hdisarmed⟩ : id ∉ c.armed ∧ id ∉ c.disarmed := by
        simpa [possible] using hpossible
      -- a constructor that throws counts nothing
      obtain ⟨s, -, ⟨-, h⟩ | ⟨-, h⟩⟩ := c.construct_spec id env
      · rw [perform, h]
        exact hc.opened harmed hdisarmed s
      · rw [perform, h]
        exact hc.of_session s _
  | destroy id env =>
      by_cases hid : id ∈ c.disarmed
      · rw [perform, destroy, if_pos hid]
        exact hc.forgotten id
      · have harmed := mem_armed_of_possible hpossible rfl hid
        obtain ⟨s, -, h | ⟨-, h⟩⟩ := c.destroy_spec hid env
        · rw [perform, h]
          exact hc.destroyed harmed s
        · rwa [perform, h]
  | commit id env =>
      have harmed := mem_armed_of_possible hpossible rfl he
      -- after a commit that throws, the object is armed and counted as before
      obtain ⟨s, -, ⟨-, h⟩ | ⟨-, h⟩⟩ := c.commit_spec id env
      · rw [perform, h]
        exact hc.disarmed harmed s
      · rw [perform, h]
        exact hc.of_session s _
  | rollback id env =>
      have harmed := mem_armed_of_possible hpossible rfl he
      -- a rollback that throws has counted the object out all the same
      obtain ⟨s, -, h | ⟨-, h⟩⟩ := c.rollback_spec id env
      · rw [perform, h]
        exact hc.disarmed harmed s
      · rwa [perform, h]
  | exec env =>
      obtain ⟨s, -, -, h⟩ | ⟨s, -, -, -, h⟩ := c.exec_spec env
      · rw [perform, h]
        exact hc.of_session s _
      · rw [perform, h]
        exact hc.of_session _ _
  | lose => exact hc.of_session _ _

/-- The count is positive as long as an object is armed. -/
theorem Balanced.value_pos (hc : c.Balanced) {id : Nat} (hid : id ∈ c.armed) : 0 < c.value := by
  have hcard := Finset.card_pos.mpr ⟨id, hid⟩
  have hvalue := hc.value
  omega

/-- An armed object on a connection with count one is the only one. -/
theorem Balanced.armed_eq_singleton (hc : c.Balanced) {id : Nat} (hid : id ∈ c.armed)
    (hvalue : c.value = 1) : c.armed = {id} := by
  have hcard : c.armed.card = 1 := by
    have := hc.value
    omega
  obtain ⟨a, ha⟩ := Finset.card_eq_one.mp hcard
  rw [ha, Finset.mem_singleton] at hid
  rw [ha, hid]

/-- The driver calls of an event. -/
theorem calls_happen {e : TransactionEvent} {d : DriverCall} (h : d ∈ (c.happen e).calls) :
    d = .transaction ∧ c.value = 0 ∨
    d ≠ .transaction ∧ c.value = 1 ∧
      ∃ id, e.finishing? = some id ∧ (c.EndsOnce e → id ∈ c.armed) := by
  cases hpossible : c.possible e with
  | false =>
      rw [happen_of_not_possible hpossible] at h
      cases h
  | true =>
      rw [happen_of_possible hpossible] at h
      cases e with
      | construct id env => exact .inl (calls_construct h)
      | destroy id env =>
          obtain ⟨rfl, hvalue, hid⟩ := calls_destroy h
          have harmed := mem_armed_of_possible hpossible rfl hid
          exact .inr ⟨by simp, hvalue, id, rfl, fun _ => harmed⟩
      | commit id env =>
          obtain ⟨rfl, hvalue⟩ := calls_commit h
          exact .inr ⟨by simp, hvalue, id, rfl,
            mem_armed_of_possible hpossible rfl⟩
      | rollback id env =>
          obtain ⟨rfl, hvalue⟩ := calls_rollback h
          exact .inr ⟨by simp, hvalue, id, rfl,
            mem_armed_of_possible hpossible rfl⟩
      | exec env =>
          rw [perform, calls_exec] at h
          cases h
      | lose => cases h

theorem disciplined_step (e : TransactionEvent) (hc : c.Balanced) (he : c.EndsOnce e) :
    c.Disciplined e := by
  -- COMMIT and ROLLBACK are sent with count one, for an armed object
  have hlast : ∀ d, d ∈ (c.happen e).calls → d ≠ .transaction →
      ∃ id, e.finishing? = some id ∧ c.armed = {id} := by
    intro d hcall hd
    obtain ⟨rfl, -⟩ | ⟨-, hvalue, id, hfinishing, harmed⟩ := calls_happen hcall
    · exact absurd rfl hd
    · exact ⟨id, hfinishing, hc.armed_eq_singleton (harmed he) hvalue⟩
  refine ⟨?_, ?_, ?_⟩
  · rintro id env (rfl | rfl) hpossible
    · exact hc.value_pos (mem_armed_of_possible hpossible rfl he)
    · exact hc.value_pos (mem_armed_of_possible hpossible rfl he)
  · intro hcall
    obtain ⟨-, hvalue⟩ | ⟨hd, -⟩ := calls_happen hcall
    · exact hvalue
    · exact absurd rfl hd
  · rintro (hcall | hcall)
    · exact hlast .commit hcall (by simp)
    · exact hlast .rollback hcall (by simp)

/-! ### Steps without failures -/

/-- The session after the last object is gone, or after any other. -/
theorem inStep_finish (hin : c.InStep) (hc : 0 < c.value) {d : DriverCall} (hd : d ≠ .transaction)
    {c' : Connection} (hvalue : c'.value = c.value + -1)
    (hsession : c'.session = if c.value = 1 then Session.serve d c.session else c.session) :
    c'.InStep := by
  have hclosed : (Session.serve d c.session).inTransaction = false := by
    cases d with
    | transaction => exact absurd rfl hd
    | commit => rfl
    | rollback => rfl
  by_cases hlast : c.value = 1
  · rw [if_pos hlast] at hsession
    refine ⟨by rw [hsession]; exact hin.up.serve d, ?_⟩
    rw [hsession, hclosed, hvalue, hlast]
    decide
  · rw [if_neg hlast] at hsession
    refine ⟨by rw [hsession]; exact hin.up, ?_⟩
    rw [hsession, hin.inTransaction, hvalue]
    omega

theorem inStep_step {e : TransactionEvent} (hc : c.Balanced) (hin : c.InStep)
    (he : c.EndsOnce e) (hsucceeds : e.succeeds = true) : (c.step e).InStep := by
  refine step_of_perform (P := InStep) hin fun hpossible => ?_
  cases e with
  | construct id env =>
      rw [perform, construct_of_up hin.up id hsucceeds]
      have hnonneg : 0 ≤ c.value := by
        rw [hc.value]
        exact Int.natCast_nonneg _
      have hopen : 0 < (c.addToCount 1).value := by
        rw [value_addToCount]
        omega
      -- BEGIN is sent for the first object; later ones find a transaction
      by_cases hfirst : c.value = 0
      · simp only [hfirst, if_true]
        exact ⟨hin.up.serve .transaction, iff_of_true rfl hopen⟩
      · simp only [hfirst, if_false]
        exact ⟨hin.up, iff_of_true (hin.inTransaction.mpr (by omega)) hopen⟩
  | destroy id env =>
      by_cases hid : id ∈ c.disarmed
      · -- a disarmed object leaves count and session alone
        rw [perform, destroy, if_pos hid]
        exact ⟨hin.up, hin.inTransaction⟩
      · rw [perform, destroy_of_up hin.up id hid hsucceeds]
        exact inStep_finish hin (hc.value_pos (mem_armed_of_possible hpossible rfl hid)) (by simp) rfl rfl
  | commit id env =>
      rw [perform, commit_of_up hin.up id hsucceeds]
      exact inStep_finish hin (hc.value_pos (mem_armed_of_possible hpossible rfl he)) (by simp) rfl rfl
  | rollback id env =>
      rw [perform, rollback_of_up hin.up id hsucceeds]
      exact inStep_finish hin (hc.value_pos (mem_armed_of_possible hpossible rfl he)) (by simp) rfl rfl
  | exec env =>
      have hlost : env.call1.lost = false := by simpa [TransactionEvent.succeeds] using hsucceeds
      rw [perform, exec_of_up hin.up hlost]
      split_ifs
      · refine ⟨hin.up.store c.executed, ?_⟩
        rw [Session.inTransaction_store]
        exact hin.inTransaction
      · exact hin
  | lose => cases hsucceeds

end Connection

/-! ### Runs -/

/-- The connections of a program, by name. -/
abbrev Connections := QString → Connection

namespace Connections

def new : Connections := fun _ => .new

def step : Connections → QString × TransactionEvent → Connections := Runs.each Connection.step

/-- The call does not commit or roll back an object again. -/
def EndsOnce (w : Connections) (e : QString × TransactionEvent) : Prop := (w e.1).EndsOnce e.2

instance (w : Connections) (e : QString × TransactionEvent) : Decidable (EndsOnce w e) :=
  inferInstanceAs (Decidable ((w e.1).EndsOnce e.2))

/-- **The reference counts**: as long as no object is committed or rolled back
again after it has been disarmed, every step keeps the discipline of the
driver calls, and after it the count of each connection is the number of its
armed objects; and a connection whose driver calls have all succeeded has an
open transaction exactly when its count is positive. -/
theorem refCounts_run (es : List (QString × TransactionEvent))
    (hes : Runs.Along step EndsOnce new es) :
    Runs.Along step (fun w e => (w e.1).Disciplined e.2) new es ∧
      ∀ name, (Runs.run step new es name).value = (Runs.run step new es name).armed.card ∧
        0 ≤ (Runs.run step new es name).value ∧
        ((∀ e ∈ es, e.1 = name → e.2.succeeds = true) →
          ((Runs.run step new es name).session.inTransaction = true
            ↔ 0 < (Runs.run step new es name).value)) := by
  have hstep : ∀ (w : Connections) (e : QString × TransactionEvent),
      (∀ name, (w name).Balanced) → EndsOnce w e → ∀ name, (step w e name).Balanced := by
    intro w e hw he name
    exact Runs.each_invariant (hw name) fun hname => by
      subst hname
      exact Connection.balanced_step (hw _) he
  have hbalanced : ∀ name, (Runs.run step new es name).Balanced :=
    Runs.run_invariant (I := fun w : Connections => ∀ name, (w name).Balanced) hstep
      (fun _ => Connection.balanced_new) hes
  refine ⟨Runs.along_of_invariant (I := fun w : Connections => ∀ name, (w name).Balanced) hstep
    (fun w e hw he => Connection.disciplined_step e.2 (hw e.1) he)
    (fun _ => Connection.balanced_new) hes, ?_⟩
  intro name
  have hvalue := (hbalanced name).value
  refine ⟨hvalue, by omega, ?_⟩
  intro hsucceeds
  -- the invariant of this connection, along the steps it takes
  have hboth : Runs.Along step
      (fun w e => EndsOnce w e ∧ (e.1 = name → e.2.succeeds = true)) new es :=
    hes.and (Runs.along_iff.mpr fun pre e post heq => hsucceeds e (by simp [heq]))
  have hkeep : ∀ (w : Connections) (e : QString × TransactionEvent),
      (w name).Balanced ∧ (w name).InStep →
      EndsOnce w e ∧ (e.1 = name → e.2.succeeds = true) →
      (step w e name).Balanced ∧ (step w e name).InStep := by
    intro w e hw he
    refine Runs.each_invariant (I := fun c : Connection => c.Balanced ∧ c.InStep) hw fun hname => ?_
    subst hname
    exact ⟨Connection.balanced_step hw.1 he.1, Connection.inStep_step hw.1 hw.2 he.1 (he.2 rfl)⟩
  have hinStep := Runs.run_invariant
    (I := fun w : Connections => (w name).Balanced ∧ (w name).InStep) hkeep
    ⟨Connection.balanced_new, Connection.inStep_new⟩ hboth
  exact hinStep.2.inTransaction

/-- Two connections; on the first one an inner object outlives the outer one,
a commit fails for good and is tried again. -/
def interleavedEvents : List (QString × TransactionEvent) :=
  let refused : CallEnv := ⟨true, [], .refusal, [], .refusal⟩
  [(latin1 "a", .construct 0 .success), (latin1 "b", .construct 0 .success),
   (latin1 "a", .construct 1 .success), (latin1 "a", .commit 0 .success),
   (latin1 "b", .rollback 0 .success), (latin1 "a", .exec .success),
   (latin1 "a", .commit 1 refused), (latin1 "a", .commit 1 .success),
   (latin1 "a", .destroy 0 .success)]

theorem refCounts_run_interleavedEvents :
    Runs.Along step (fun w e => (w e.1).Disciplined e.2) new interleavedEvents ∧
      (Runs.run step new interleavedEvents (latin1 "a")).value = 0 ∧
      ((Runs.run step new interleavedEvents (latin1 "b")).session.inTransaction = true
        ↔ 0 < (Runs.run step new interleavedEvents (latin1 "b")).value) := by
  obtain ⟨hdisciplined, hcounts⟩ := refCounts_run interleavedEvents (by decide)
  exact ⟨hdisciplined, (hcounts _).1.trans (by decide), (hcounts _).2.2 (by decide)⟩

end Connections

end Sqlate
