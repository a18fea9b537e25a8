/-
Sqlate/BatchAtomicity.lean

`SqlUtils::batchExec` is all or nothing.

When no transaction is counted for the connection, the object of the call has
begun one (`ongoing_begun`); its statements are pending in it until COMMIT
(`Ongoing`), and on every exit with an error (`Exits`) the destructor reads
the count one and rolls back (`destroy_undoes`).

What is taken for granted is that the ROLLBACK of the destructor is accepted
and that a COMMIT that has failed fails again; the server ends a transaction
whose COMMIT it refuses.
-/
import Sqlate.BatchExec

namespace Sqlate

/-! ### Sessions on the way -/

namespace Session

variable {s : Session}

/-- Only a COMMIT makes anything durable. -/
theorem durable_call {d : DriverCall} (hd : d ≠ .commit) (o : DriverOutcome) (s : Session) :
    (s.call d o).2.durable = s.durable := by
  have hserve : ∀ s, (serve d s).durable = s.durable := by
    cases d with
    | transaction => exact fun _ => rfl
    | commit => exact absurd rfl hd
    | rollback => exact fun _ => rfl
  have hrefuse : ∀ s, (refuse d s).durable = s.durable := by
    cases d with
    | transaction => exact fun _ => rfl
    | commit => exact absurd rfl hd
    | rollback => exact fun _ => rfl
  have hlose : (if o.lost then s.lose else s).durable = s.durable := by
    split <;> rfl
  rw [call, request]
  dsimp only
  generalize (if o.lost then s.lose else s) = t at hlose ⊢
  split
  · split
    · split
      · exact (hserve t).trans hlose
      · exact (hrefuse t).trans hlose
    · show (notice o.noticed t).durable = _
      rw [notice]
      split
      · exact hlose
      · exact hlose
  · rfl

theorem durable_reopenLoop (retries : Nat) (opens : List Bool) (s : Session) :
    (reopenLoop retries opens s).durable = s.durable := by
  induction retries generalizing opens s with
  | zero => rfl
  | succ retries ih =>
      rw [reopenLoop]
      split_ifs
      · rfl
      · exact ih _ _
      · exact ih _ _

theorem durable_checkDbIsAlive {onMainThread : Bool} {opens : List Bool} {t : Session}
    (h : s.checkDbIsAlive onMainThread opens = some t) : t.durable = s.durable := by
  rw [checkDbIsAlive] at h
  split_ifs at h
  · obtain rfl := Option.some.inj h
    rfl
  · obtain rfl := Option.some.inj h
    exact durable_reopenLoop 10 opens s

theorem durable_attempt {d : DriverCall} (hd : d ≠ .commit) (needed : Bool) (env : CallEnv)
    (s : Session) : (s.attempt d needed env).2.1.durable = s.durable := by
  have hfirst := durable_call hd env.call1 s
  cases needed with
  | false => rfl
  | true =>
      cases hcall : (s.call d env.call1).1 with
      | true =>
          rw [attempt_of_accepted hcall]
          exact hfirst
      | false =>
          rw [attempt_of_not_accepted hcall]
          split
          · exact hfirst
          · next t hcheck => exact (durable_call hd _ t).trans ((durable_checkDbIsAlive hcheck).trans hfirst)

/-- Nothing more is durable, and the transaction can be rolled back or has nothing pending. -/
structure Undoable (durable : List Nat) (s : Session) : Prop where
  durable_eq : s.durable = durable
  up_or : s.Up ∨ s.pending = []

theorem Drained.undoable {durable : List Nat} (h : s.Drained durable) : s.Undoable durable :=
  ⟨h.durable, .inr h.pending⟩

/-- A statement that fails can be rolled back with those before it. -/
theorem Undoable.execStatement {durable : List Nat} (hs : s.Undoable durable) {id : Nat}
    {o : DriverOutcome} (h : (s.execStatement id o).1 = false) :
    (s.execStatement id o).2.Undoable durable := by
  rcases request_cases (store id) (fun s => s) o s with
    ⟨hreq, -⟩ | ⟨hreq, hup, -⟩ | ⟨-, hdown, hstable⟩ | ⟨-, -, hstable⟩
  · rw [Session.execStatement, hreq] at h
    cases h
  · rw [Session.execStatement, hreq]
    exact ⟨hs.durable_eq, .inl hup⟩
  · have hdrained : s.Drained durable := ⟨hs.durable_eq, hs.up_or.resolve_left hdown⟩
    exact (hstable _ (stable_drained durable) hdrained).undoable
  · exact (hstable _ (stable_drained durable) ⟨hs.durable_eq, rfl⟩).undoable

/-- A call that is not to succeed is not accepted. -/
theorem call_of_not_succeeds {d : DriverCall} {o : DriverOutcome} (ho : o.succeeds = false)
    (s : Session) : (s.call d o).1 = false := by
  rcases request_cases (serve d) (refuse d) o s with
    ⟨-, -, hok⟩ | ⟨h, -⟩ | ⟨h, -⟩ | ⟨h, -⟩
  · rw [ho] at hok
    cases hok
  · rw [call, h]
  · exact h
  · exact h

end Session

namespace Connection

variable {c : Connection} {id : Nat} {env : CallEnv}

theorem durable_construct (c : Connection) (id : Nat) (env : CallEnv) :
    (c.construct id env).connection.session.durable = c.session.durable := by
  rw [construct]
  split
  · rfl
  · next t hcheck =>
      have hattempt := Session.durable_attempt (d := .transaction) (by decide) (c.value = 0) env t
      rw [Session.durable_checkDbIsAlive hcheck] at hattempt
      split
      · next s calls heq =>
          rw [heq] at hattempt
          exact hattempt
      · next ending s calls _ heq =>
          rw [heq] at hattempt
          exact hattempt

/-- A COMMIT that returns was the first one, as a second one would fail too. -/
theorem succeeds_of_commit_returned (hvalue : c.value = 1) (hup : c.session.Up)
    (hagain : env.call1.succeeds = false → env.call2.succeeds = false)
    (h : (c.commit id env).ending = .returned) : env.call1.succeeds = true := by
  by_contra hfails
  have hfails := Bool.eq_false_of_not_eq_true hfails
  have hfirst := Session.call_of_not_succeeds (d := .commit) hfails c.session
  rw [commit, hup.checkDbIsAlive, decide_eq_true hvalue] at h
  dsimp only at h
  rw [Session.attempt_of_not_accepted hfirst] at h
  cases hcheck : (c.session.call .commit env.call1).2.checkDbIsAlive env.onMainThread env.opens2 with
  | none =>
      rw [hcheck] at h
      cases h
  | some t =>
      rw [hcheck] at h
      dsimp only at h
      rw [Session.call_of_not_succeeds (hagain hfails) t] at h
      cases h

/-- What the destructor of the only object leaves behind. -/
theorem destroy_undoes {durable : List Nat} (hvalue : c.value = 1) (hid : id ∉ c.disarmed)
    (henv : env.call1.succeeds = true) (hsession : c.session.Undoable durable) :
    ((c.destroy id env).ending = .exited ∧ (c.destroy id env).connection = c) ∨
      ((c.destroy id env).ending = .returned ∧ (c.destroy id env).connection.value = 0 ∧
        (c.destroy id env).connection.session.Drained durable) := by
  rw [destroy, if_neg hid]
  cases hcheck : c.session.checkDbIsAlive env.onMainThread env.opens1 with
  | none => exact .inl ⟨rfl, rfl⟩
  | some t =>
      dsimp only
      rw [if_pos hvalue]
      refine .inr ⟨rfl, ?_, ?_⟩
      · show c.value + -1 = 0
        omega
      · show (t.call .rollback env.call1).2.Drained durable
        rcases hsession.up_or with hup | hpending
        · obtain rfl := Option.some.inj ((hup.checkDbIsAlive _ _).symm.trans hcheck)
          rw [hup.call .rollback henv]
          exact ⟨hsession.durable_eq, rfl⟩
        · have hstable := Session.stable_drained durable
          exact hstable.call _ _ (hstable.checkDbIsAlive ⟨hsession.durable_eq, hpending⟩ hcheck)

end Connection

/-! ### The loop -/

/-- The connection of a call whose statements are not committed; `c` is that before the loop. -/
structure Batch.Uncommitted (c : Connection) (b : Batch) : Prop where
  value : b.connection.value = c.value
  disarmed : b.connection.disarmed = c.disarmed
  session : b.connection.session.Undoable c.session.durable
  sessions : ∀ s ∈ b.sessions, s.durable = c.session.durable

/-- The statements so far are pending in the transaction. -/
structure Batch.Ongoing (c : Connection) (b : Batch) : Prop where
  value : b.connection.value = c.value
  disarmed : b.connection.disarmed = c.disarmed
  up : b.connection.session.Up
  collecting : b.Collecting c.executed c.session.durable

namespace Batch

variable {c : Connection} {b : Batch}

theorem Ongoing.uncommitted (hb : b.Ongoing c) : b.Uncommitted c where
  value := hb.value
  disarmed := hb.disarmed
  session := ⟨hb.collecting.durable_eq, .inl hb.up⟩
  sessions := hb.collecting.sessions

theorem Ongoing.store (hb : b.Ongoing c) (sqlstmt : QString) : (b.store sqlstmt).Ongoing c where
  value := hb.value
  disarmed := hb.disarmed
  up := hb.up.store _
  collecting := hb.collecting.store sqlstmt

/-- The session moves on, with nothing more durable. -/
theorem Uncommitted.moveTo (hb : b.Uncommitted c) {s : Session} (hs : s.Undoable c.session.durable) :
    (b.moveTo { b.connection with session := s }).Uncommitted c where
  value := hb.value
  disarmed := hb.disarmed
  session := hs
  sessions := by
    intro t ht
    rcases List.mem_append.1 ht with hbefore | hlast
    · exact hb.sessions t hbefore
    · obtain rfl := List.mem_singleton.1 hlast
      exact hs.durable_eq

/-- One statement: it joins those before it, or fails. -/
theorem Ongoing.exec (hb : b.Ongoing c) (env : StatementEnv) (sqlstmt : QString) :
    (b.exec env sqlstmt).2.Uncommitted c ∧
      ((b.exec env sqlstmt).1 = none → (b.exec env sqlstmt).2.Ongoing c) := by
  cases hexec : b.exec env sqlstmt with
  | mk error b' =>
      cases error with
      | none =>
          obtain ⟨rfl, -⟩ := exec_of_open hb.up.isOpen hexec
          exact ⟨(hb.store sqlstmt).uncommitted, fun _ => hb.store sqlstmt⟩
      | some text =>
          refine ⟨?_, fun hnone => by cases hnone⟩
          rw [Batch.exec, if_pos hb.up.isOpen] at hexec
          have hfailed : (b.connection.session.execStatement b.connection.executed env.outcome).1 = false →
              (b.connection.session.execStatement b.connection.executed env.outcome).2.Undoable
                c.session.durable :=
            hb.uncommitted.session.execStatement
          cases hreq : b.connection.session.execStatement b.connection.executed env.outcome with
          | mk accepted s =>
              rw [hreq] at hexec hfailed
              cases accepted with
              | true => cases hexec
              | false =>
                  obtain rfl := (Prod.mk.inj hexec).2
                  exact hb.uncommitted.moveTo (hfailed rfl)

theorem Ongoing.run (hb : b.Ongoing c) (env : Nat → StatementEnv) (i : Nat) (pieces : List QString) :
    (b.run env i pieces).2.Uncommitted c ∧
      ((b.run env i pieces).1 = none → (b.run env i pieces).2.Ongoing c) := by
  induction pieces generalizing i b with
  | nil => exact ⟨hb.uncommitted, fun _ => hb⟩
  | cons piece pieces ih =>
      rw [Batch.run]
      split
      · exact ⟨hb.uncommitted, fun _ => hb⟩
      · have hstep := hb.exec (env i) (SqlUtils.stripComments piece)
        cases hexec : b.exec (env i) (SqlUtils.stripComments piece) with
        | mk error b' =>
            rw [hexec] at hstep
            cases error with
            | none => exact ih (hstep.2 rfl) (i + 1)
            | some text => exact ⟨hstep.1, fun hnone => by cases hnone⟩

end Batch

/-! ### All or nothing -/

/-- A call that does not return without an error leaves the committed state as it was all
the time, and nothing of it can still be committed; one that does has committed all that it
executed. -/
structure BatchDone.AllOrNothing (c : Connection) (d : BatchDone) : Prop where
  unchanged : d.ending ≠ .returned [] →
    ∀ s ∈ d.connection.session :: d.sessions, s.durable = c.session.durable
  undone : d.ending ≠ .returned [] → d.ending ≠ .exited →
    d.connection.value = c.value ∧ ∀ e ∈ d.executions, e.1 ∉ d.connection.session.pending
  committed : d.ending = .returned [] →
    d.connection.value = c.value ∧ ∀ e ∈ d.executions, e.1 ∈ d.connection.session.durable

section
variable {c : Connection} {env : BatchEnv}

theorem Connection.unusedId_not_mem (c : Connection) : c.unusedId ∉ c.disarmed := by
  intro h
  have hle := Finset.le_sup (f := (· + 1)) (Finset.mem_union_right c.armed h)
  exact absurd hle (Nat.not_le.2 (Nat.lt_succ_self _))

theorem Connection.opened_spec (h : (c.opened env).ending = .returned) :
    (c.opened env).connection.value = c.value + 1 ∧
      (c.opened env).connection.disarmed = c.disarmed := by
  obtain ⟨s, -, ⟨-, hconnection⟩ | ⟨hended, -⟩⟩ := c.construct_spec c.unusedId env.constructor
  · rw [opened, hconnection]
    exact ⟨rfl, rfl⟩
  · exact absurd h hended

/-- A transaction has begun, with nothing in it. -/
theorem Batch.ongoing_begun (hnone : c.value = 0) (h : (c.opened env).ending = .returned) :
    (Batch.begun c env).Ongoing (c.opened env).connection where
  value := rfl
  disarmed := rfl
  up := (Connection.construct_outermost hnone h).1
  collecting := by
    refine ⟨(Connection.construct_outermost hnone h).2, rfl, fun s hs => ?_, le_rfl, nofun⟩
    obtain rfl := List.mem_singleton.1 hs
    rfl

/-- The destructor rolls back what is not committed. -/
theorem Batch.Uncommitted.leave {b : Batch} (hb : b.Uncommitted (c.opened env).connection)
    (hnone : c.value = 0) (hopened : (c.opened env).ending = .returned)
    (hrollback : env.destructor.call1.succeeds = true) {ending : BatchEnding}
    (hending : ending ≠ .returned []) :
    (b.leave c.unusedId env.destructor ending).AllOrNothing c := by
  obtain ⟨hvalue, hdisarmed⟩ := Connection.opened_spec hopened
  have hdurable : (c.opened env).connection.session.durable = c.session.durable :=
    c.durable_construct _ _
  have hone : b.connection.value = 1 := by
    rw [hb.value, hvalue, hnone]
    rfl
  have hid : c.unusedId ∉ b.connection.disarmed := by
    rw [hb.disarmed, hdisarmed]
    exact c.unusedId_not_mem
  have hsessions : ∀ t, t.durable = c.session.durable →
      ∀ s ∈ t :: (b.sessions ++ [t]), s.durable = c.session.durable := by
    intro t ht s hs
    rcases List.mem_cons.1 hs with rfl | hs
    · exact ht
    · rcases List.mem_append.1 hs with hs | hs
      · exact (hb.sessions s hs).trans hdurable
      · obtain rfl := List.mem_singleton.1 hs
        exact ht
  rcases Connection.destroy_undoes hone hid hrollback hb.session with
    ⟨hexited, hsame⟩ | ⟨hreturned, hzero, hdrained⟩
  · have hleft : (b.leave c.unusedId env.destructor ending).ending = .exited := by
      rw [Batch.leave]
      exact if_pos hexited
    refine ⟨fun _ => hsessions _ ?_, fun _ hnot => absurd hleft hnot, fun hreturned => ?_⟩
    · show (b.connection.destroy c.unusedId env.destructor).connection.session.durable = _
      rw [hsame]
      exact hb.session.durable_eq.trans hdurable
    · rw [hleft] at hreturned
      cases hreturned
  · have hleft : (b.leave c.unusedId env.destructor ending).ending = ending := by
      show (if (b.connection.destroy c.unusedId env.destructor).ending = .exited then BatchEnding.exited
        else ending) = ending
      rw [hreturned, if_neg (by decide)]
    refine ⟨fun _ => hsessions _ (hdrained.durable.trans hdurable), fun _ _ => ⟨?_, ?_⟩, fun hreturned => ?_⟩
    · exact hzero.trans hnone.symm
    · intro e _ hpending
      have hpending : e.1 ∈ (b.connection.destroy c.unusedId env.destructor).connection.session.pending :=
        hpending
      rw [hdrained.pending] at hpending
      cases hpending
    · exact absurd (hleft.symm.trans hreturned) hending

/-- A call that ends before or behind the scope of the transaction object. -/
theorem Batch.Uncommitted.stay {b : Batch} (hb : b.Uncommitted (c.opened env).connection)
    {ending : BatchEnding} (hending : ending = .exited) :
    BatchDone.AllOrNothing c ⟨b, ending⟩ := by
  have hdurable : (c.opened env).connection.session.durable = c.session.durable :=
    c.durable_construct _ _
  subst hending
  refine ⟨fun _ s hs => ?_, fun _ hnot => absurd rfl hnot, nofun⟩
  rcases List.mem_cons.1 hs with rfl | hs
  · exact hb.session.durable_eq.trans hdurable
  · exact (hb.sessions s hs).trans hdurable

/-- No transaction object comes to life. -/
theorem Batch.allOrNothing_begun (h : (c.opened env).ending ≠ .returned) {ending : BatchEnding}
    (hending : ending ≠ .returned []) : BatchDone.AllOrNothing c ⟨.begun c env, ending⟩ := by
  have hdurable : (c.opened env).connection.session.durable = c.session.durable :=
    c.durable_construct _ _
  obtain ⟨s, -, ⟨hreturned, -⟩ | ⟨-, hconnection⟩⟩ := c.construct_spec c.unusedId env.constructor
  · exact absurd hreturned h
  · refine ⟨fun _ t ht => ?_, fun _ _ => ⟨?_, nofun⟩, fun hreturned => absurd hreturned hending⟩
    · obtain rfl : t = (c.opened env).connection.session := by simpa [Batch.begun, Batch.moveTo, Batch.new] using ht
      exact hdurable
    · show (c.construct c.unusedId env.constructor).connection.value = c.value
      rw [hconnection]
      rfl

/-- A COMMIT that is refused, or does not reach the server. -/
theorem Batch.Ongoing.uncommitted_commit {b : Batch} (hb : b.Ongoing (c.opened env).connection)
    (hnone : c.value = 0) (hopened : (c.opened env).ending = .returned)
    (hended : (b.connection.commit c.unusedId env.commit).ending ≠ .returned) :
    (b.moveTo (b.connection.commit c.unusedId env.commit).connection).Uncommitted
      (c.opened env).connection := by
  have hone : b.connection.value = 1 := by
    rw [hb.value, (Connection.opened_spec hopened).1, hnone]
    rfl
  have hfails : env.commit.call1.succeeds = false := by
    by_contra hsucceeds
    have hsucceeds := Bool.eq_true_of_not_eq_false hsucceeds
    refine hended ?_
    rw [Connection.commit, hb.up.checkDbIsAlive]
    dsimp only
    rw [hb.up.attempt .commit _ hsucceeds]
  have hdrained : (b.connection.commit c.unusedId env.commit).connection.session.Drained
      b.connection.session.durable :=
    Connection.commit_drained hone hb.up hfails
  obtain ⟨s, -, ⟨hreturned, -⟩ | ⟨-, hconnection⟩⟩ := b.connection.commit_spec c.unusedId env.commit
  · exact absurd hreturned hended
  · rw [hconnection] at hdrained ⊢
    rw [hb.collecting.durable_eq] at hdrained
    exact hb.uncommitted.moveTo hdrained.undoable

/-- A COMMIT that is accepted. -/
theorem Batch.Ongoing.committed {b : Batch} (hb : b.Ongoing (c.opened env).connection)
    (hnone : c.value = 0) (hopened : (c.opened env).ending = .returned)
    (hagain : env.commit.call1.succeeds = false → env.commit.call2.succeeds = false)
    (hreturned : (b.connection.commit c.unusedId env.commit).ending = .returned) :
    ((b.moveTo (b.connection.commit c.unusedId env.commit).connection).leave
      c.unusedId env.destructor (.returned [])).AllOrNothing c := by
  have hone : b.connection.value = 1 := by
    rw [hb.value, (Connection.opened_spec hopened).1, hnone]
    rfl
  have hsucceeds := Connection.succeeds_of_commit_returned hone hb.up hagain hreturned
  have hdurable : (b.connection.commit c.unusedId env.commit).connection.session.durable =
      b.connection.session.durable ++ b.connection.session.pending :=
    Connection.durable_commit_of_up hone hb.up hsucceeds
  have hconnection := Connection.commit_of_up hb.up c.unusedId hsucceeds
  -- the object is disarmed, and its destructor does nothing
  have hdisarmed : c.unusedId ∈ (b.connection.commit c.unusedId env.commit).connection.disarmed := by
    rw [hconnection]
    exact Finset.mem_insert_self _ _
  have hdestroy : (b.connection.commit c.unusedId env.commit).connection.destroy c.unusedId env.destructor =
      ⟨.returned, { (b.connection.commit c.unusedId env.commit).connection with
        disarmed := (b.connection.commit c.unusedId env.commit).connection.disarmed.erase c.unusedId }, []⟩ := by
    rw [Connection.destroy, if_pos hdisarmed]
  have hdone : (b.moveTo (b.connection.commit c.unusedId env.commit).connection).leave c.unusedId
      env.destructor (.returned []) =
      ⟨(b.moveTo (b.connection.commit c.unusedId env.commit).connection).moveTo
        { (b.connection.commit c.unusedId env.commit).connection with
          disarmed := (b.connection.commit c.unusedId env.commit).connection.disarmed.erase c.unusedId },
        .returned []⟩ := by
    rw [Batch.leave]
    show BatchDone.mk (Batch.moveTo _ (Connection.destroy (b.connection.commit _ _).connection _ _).connection)
      (if (Connection.destroy (b.connection.commit _ _).connection _ _).ending = .exited then _ else _) = _
    rw [hdestroy]
    rfl
  rw [hdone]
  refine ⟨fun hnot => absurd rfl hnot, fun hnot => absurd rfl hnot, fun _ => ⟨?_, fun e he => ?_⟩⟩
  · show (b.connection.commit c.unusedId env.commit).connection.value = c.value
    rw [hconnection]
    show b.connection.value + -1 = c.value
    omega
  · show e.1 ∈ (b.connection.commit c.unusedId env.commit).connection.session.durable
    rw [hdurable]
    exact List.mem_append_right _ (hb.collecting.executions e he).2

/-- No transaction is counted when there is no object that has not ended. -/
theorem Connection.Balanced.value_eq_zero_iff (hc : c.Balanced) : c.value = 0 ↔ c.armed = ∅ := by
  rw [hc.value, Nat.cast_eq_zero, Finset.card_eq_zero]

/-- **A call of `batchExec` outside of any transaction is all or nothing.** -/
theorem batchExec_allOrNothing (es : List TransactionEvent) (env : BatchEnv) (sql : QString)
    (hnone : (Runs.run Connection.step .new es).value = 0)
    (hagain : env.commit.call1.succeeds = false → env.commit.call2.succeeds = false)
    (hrollback : env.destructor.call1.succeeds = true) :
    ((Runs.run Connection.step .new es).batchExec env sql).AllOrNothing (Runs.run Connection.step .new es) := by
  generalize Runs.run Connection.step .new es = c at *
  have hexits := c.batchExec_exits env sql
  generalize c.batchExec env sql = d at hexits
  cases hexits with
  | empty _ =>
      refine ⟨fun _ s hs => ?_, fun _ _ => ⟨rfl, nofun⟩, fun h => absurd (BatchEnding.returned.inj h) (by decide)⟩
      obtain rfl := List.mem_singleton.1 hs
      rfl
  | nothing _ => exact ⟨fun h => absurd rfl h, fun h => absurd rfl h, fun _ => ⟨rfl, nofun⟩⟩
  | refused hended => exact Batch.allOrNothing_begun (by rw [hended]; decide) nofun
  | exited hended => exact Batch.allOrNothing_begun (by rw [hended]; decide) nofun
  | failed hopened hrun =>
      have hloop := (Batch.ongoing_begun hnone hopened).run env.statement 0 (SqlUtils.splitQueries sql)
      rw [hrun] at hloop
      refine hloop.1.leave hnone hopened hrollback fun h => ?_
      exact Batch.run_error hrun (BatchEnding.returned.inj h)
  | committed hopened hrun hreturned =>
      have hloop := (Batch.ongoing_begun hnone hopened).run env.statement 0 (SqlUtils.splitQueries sql)
      rw [hrun] at hloop
      exact (hloop.2 rfl).committed hnone hopened hagain hreturned
  | uncommitted hopened hrun hthrew =>
      have hloop := (Batch.ongoing_begun hnone hopened).run env.statement 0 (SqlUtils.splitQueries sql)
      rw [hrun] at hloop
      have hended := (hloop.2 rfl).uncommitted_commit hnone hopened (by rw [hthrew]; decide)
      exact hended.leave hnone hopened hrollback nofun
  | exitedCommit hopened hrun hexited =>
      have hloop := (Batch.ongoing_begun hnone hopened).run env.statement 0 (SqlUtils.splitQueries sql)
      rw [hrun] at hloop
      exact ((hloop.2 rfl).uncommitted_commit hnone hopened (by rw [hexited]; decide)).stay rfl

end

/-- The second statement fails, and so would a COMMIT. -/
theorem batchExec_allOrNothing_secondRefused :
    let env : BatchEnv :=
      ⟨.success, fun i => if i = 1 then ⟨.refusal, latin1 "error"⟩ else ⟨.success, []⟩,
        ⟨false, [], .refusal, [], .refusal⟩, .success⟩
    (Connection.new.batchExec env (latin1 "ONE;\nTWO;\nTHREE")).AllOrNothing .new := by
  intro env
  exact batchExec_allOrNothing [] env (latin1 "ONE;\nTWO;\nTHREE") rfl (fun _ => rfl) rfl

end Sqlate
