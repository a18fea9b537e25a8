/-
Sqlate/BatchExec.lean

`SqlUtils::batchExec`: the statements of a script in one transaction.

The statements are not executed by `SqlQuery`, but by `QSqlDatabase::exec`,
without a check of the connection.  On a connection that is not open Qt
returns from there before it has set an error, so that the loop takes such a
statement for a success.

`Exits` lists the ways in which a call ends.  The model keeps what was executed,
and the states of the session after each request: `Together` says that the executed statements enter the committed
state at one moment, if at all.  When nothing goes wrong with the connection,
what matters is the first piece of the script that is too small to be a
statement, for the loop ends there; `promise_iff` has the exact condition.
-/
import Mathlib.Data.Finset.Lattice.Fold
import Mathlib.Order.Lattice.Nat
import Sqlate.CommitDurability
import Sqlate.SqlUtils

namespace Sqlate

/-! ### Executing a script -/

/-- What happens to one statement; the text is that of the driver's error. -/
structure StatementEnv where
  outcome : DriverOutcome
  errorText : QString

/-- What happens during a call. -/
structure BatchEnv where
  constructor : CallEnv
  statement : Nat → StatementEnv
  commit : CallEnv
  destructor : CallEnv

/-- A call under way: the statements that were executed, under their numbers,
and the states of the session after each request. -/
structure Batch where
  connection : Connection
  executions : List (Nat × QString)
  sessions : List Session

/-- How a call ends. -/
inductive BatchEnding
  | returned (errorText : QString)
  | threw
  | exited
  deriving DecidableEq, Repr

structure BatchDone extends Batch where
  ending : BatchEnding

namespace Batch

def new (c : Connection) : Batch := ⟨c, [], []⟩

def moveTo (b : Batch) (c : Connection) : Batch :=
  { b with connection := c, sessions := b.sessions ++ [c.session] }

/-- `QSqlDatabase::exec`, with the text of `lastError()`, if it is set. -/
def exec (b : Batch) (env : StatementEnv) (sqlstmt : QString) : Option QString × Batch :=
  let c := b.connection
  if c.session.isOpen then
    match c.session.execStatement c.executed env.outcome with
    | (true, s) =>
        (none, { b.moveTo { c with session := s, executed := c.executed + 1 } with
          executions := b.executions ++ [(c.executed, sqlstmt)] })
    | (false, s) => (some env.errorText, b.moveTo { c with session := s })
  else (none, b)

def errorText (error : QString) : QString :=
  (latin1 "Error in one of the batch statements. %1").arg error

/-- The loop over the pieces; the text is set when it returns from inside. -/
def run (env : Nat → StatementEnv) : Nat → List QString → Batch → Option QString × Batch
  | _, [], b => (none, b)
  | i, piece :: pieces, b =>
      let sqlstmt := SqlUtils.stripComments piece
      -- a small statement ends the loop, instead of being skipped
      if sqlstmt.length < 3 then (none, b)
      else
        match b.exec (env i) sqlstmt with
        | (none, b) => run env (i + 1) pieces b
        | (some error, b) => (some (errorText error), b)

/-- The destructor of the transaction object, at the end of its scope. -/
def leave (b : Batch) (id : Nat) (env : CallEnv) (ending : BatchEnding) : BatchDone :=
  let d := b.connection.destroy id env
  { b.moveTo d.connection with
    ending := if d.ending = .exited then .exited else ending }

end Batch

namespace Connection

/-- A name for a new object. -/
def unusedId (c : Connection) : Nat := (c.armed ∪ c.disarmed).sup (· + 1)

/-- `SqlUtils::batchExec` on this connection. -/
def batchExec (c : Connection) (env : BatchEnv) (sql : QString) : BatchDone :=
  if 0 < sql.length then
    let stmts := SqlUtils.splitQueries sql
    if stmts.length = 0 then ⟨.new c, .returned []⟩
    else
      let id := c.unusedId
      let d := c.construct id env.constructor
      let b := (Batch.new c).moveTo d.connection
      match d.ending with
      | .threw => ⟨b, .threw⟩
      | .exited => ⟨b, .exited⟩
      | .returned =>
          match b.run env.statement 0 stmts with
          | (some errorText, b) => b.leave id env.destructor (.returned errorText)
          | (none, b) =>
              let d := b.connection.commit id env.commit
              let b := b.moveTo d.connection
              match d.ending with
              | .returned => b.leave id env.destructor (.returned [])
              | .threw => b.leave id env.destructor .threw
              | .exited => ⟨b, .exited⟩
  else ⟨.new c, .returned (latin1 "SQL statement passed was empty!!")⟩

end Connection

/-! ### The promise -/

/-- The statements of a script: the pieces without their comments. -/
def scriptPieces (sql : QString) : List QString :=
  (SqlUtils.splitQueries sql).map SqlUtils.stripComments

def isStatement (piece : QString) : Bool := 3 ≤ piece.length

namespace BatchDone

/-- The executed statements enter the committed state at one moment, if at all;
in the end they are there, or in a transaction that is still open. -/
structure Together (d : BatchDone) : Prop where
  atomic : ∀ s ∈ d.sessions, (∀ e ∈ d.executions, e.1 ∉ s.durable) ∨
    ∀ e ∈ d.executions, e.1 ∈ s.durable
  kept : (∀ e ∈ d.executions, e.1 ∈ d.connection.session.durable) ∨
    ∀ e ∈ d.executions, e.1 ∈ d.connection.session.pending

/-- All statements of the script were executed, in order and together. -/
structure Promise (d : BatchDone) (sql : QString) : Prop where
  executed : d.executions.map Prod.snd = (scriptPieces sql).filter isStatement
  together : d.Together

end BatchDone

/-- The pieces of the script that the loop comes to. -/
def reachedPieces (sql : QString) : List QString := (scriptPieces sql).takeWhile isStatement

/-- The connection is open, or is reopened by the check in the constructor. -/
def Connection.OpenFor (c : Connection) (env : BatchEnv) : Prop :=
  c.session.isOpen = true ∨ true ∈ env.constructor.opens1.take 10

/-- When the promise is kept: behind the first piece that is too small there is
no statement, and the connection takes the statements before it together. -/
structure Connection.Sound (c : Connection) (env : BatchEnv) (sql : QString) : Prop where
  small_last : ∀ piece ∈ (scriptPieces sql).dropWhile isStatement, isStatement piece = false
  outermost : reachedPieces sql ≠ [] → c.value = 0 → env.commit.call1.succeeds = true
  nested : reachedPieces sql ≠ [] → c.value ≠ 0 → c.OpenFor env ∧
    (c.session.isOpen = true ∧ c.session.inTransaction = true ∨ (reachedPieces sql).length = 1)

/-! ### The loop -/

namespace Batch

/-- A statement that is executed. -/
def store (b : Batch) (sqlstmt : QString) : Batch :=
  let c := b.connection
  { b.moveTo { c with session := c.session.store c.executed, executed := c.executed + 1 } with
    executions := b.executions ++ [(c.executed, sqlstmt)] }

theorem exec_of_open {b b' : Batch} {env : StatementEnv} {sqlstmt : QString}
    (hopen : b.connection.session.isOpen = true) (h : b.exec env sqlstmt = (none, b')) :
    b' = b.store sqlstmt ∧ b.connection.session.Up := by
  rw [exec, if_pos hopen] at h
  cases hreq : b.connection.session.execStatement b.connection.executed env.outcome with
  | mk accepted s =>
      cases accepted with
      | false =>
          rw [hreq] at h
          cases h
      | true =>
          have hstored := Session.execStatement_of_succeeded (by rw [hreq])
          rw [hreq] at h hstored
          obtain ⟨rfl, hup⟩ := hstored
          exact ⟨(Prod.mk.inj h).2.symm, hup⟩

theorem exec_of_closed {b : Batch} (hclosed : b.connection.session.isOpen = false)
    (env : StatementEnv) (sqlstmt : QString) : b.exec env sqlstmt = (none, b) := by
  rw [exec, if_neg (by rw [hclosed]; exact Bool.false_ne_true)]

/-- The statements that the loop executes, when it does not return from inside. -/
def storeAll (b : Batch) (stmts : List QString) : Batch := stmts.foldl store b

theorem run_of_open {env : Nat → StatementEnv} {pieces : List QString} {i : Nat} {b b' : Batch}
    (hopen : b.connection.session.isOpen = true) (h : b.run env i pieces = (none, b')) :
    b' = b.storeAll ((pieces.map SqlUtils.stripComments).takeWhile isStatement) ∧
      ((pieces.map SqlUtils.stripComments).takeWhile isStatement ≠ [] →
        b.connection.session.Up) := by
  induction pieces generalizing i b with
  | nil => exact ⟨(Prod.mk.inj h).2.symm, fun hne => absurd rfl hne⟩
  | cons piece pieces ih =>
      rw [run] at h
      by_cases hsmall : (SqlUtils.stripComments piece).length < 3
      · rw [if_pos hsmall] at h
        have hfalse : isStatement (SqlUtils.stripComments piece) = false :=
          decide_eq_false (by omega)
        rw [List.map_cons, List.takeWhile_cons, hfalse]
        exact ⟨(Prod.mk.inj h).2.symm, fun hne => absurd rfl hne⟩
      · rw [if_neg hsmall] at h
        have htrue : isStatement (SqlUtils.stripComments piece) = true := decide_eq_true (by omega)
        rw [List.map_cons, List.takeWhile_cons, htrue]
        cases hexec : b.exec (env i) (SqlUtils.stripComments piece) with
        | mk error c =>
            rw [hexec] at h
            cases error with
            | some error => cases h
            | none =>
                obtain ⟨rfl, hup⟩ := exec_of_open hopen hexec
                have hopen' : (b.store (SqlUtils.stripComments piece)).connection.session.isOpen =
                  true := (hup.store _).isOpen
                exact ⟨(ih hopen' h).1, fun _ => hup⟩

theorem run_of_closed {env : Nat → StatementEnv} {pieces : List QString} {i : Nat} {b : Batch}
    (hclosed : b.connection.session.isOpen = false) : b.run env i pieces = (none, b) := by
  induction pieces generalizing i with
  | nil => rfl
  | cons piece pieces ih =>
      rw [run, exec_of_closed hclosed]
      split
      · rfl
      · exact ih

end Batch

/-! ### The transaction around it -/

namespace Session

theorem reopenLoop_of_isOpen {s : Session} (h : s.isOpen = true) (retries : Nat)
    (opens : List Bool) : reopenLoop retries opens s = s := by
  cases retries with
  | zero => rfl
  | succ retries => rw [reopenLoop, if_pos h]

/-- One of the attempts to open succeeds, or none does. -/
theorem reopenLoop_of_closed {s : Session} (h : s.isOpen = false) (retries : Nat)
    (opens : List Bool) :
    reopenLoop retries opens s = if true ∈ opens.take retries then s.reopen else s := by
  induction retries generalizing opens with
  | zero => simp [reopenLoop]
  | succ retries ih =>
      rw [reopenLoop, if_neg (by rw [h]; exact Bool.false_ne_true)]
      cases opens with
      | nil =>
          rw [ih]
          simp
      | cons opened opens =>
          cases opened with
          | false =>
              show reopenLoop retries opens s = _
              rw [ih]
              simp
          | true =>
              show reopenLoop retries opens s.reopen = _
              rw [reopenLoop_of_isOpen rfl]
              simp

theorem call_of_accepted {d : DriverCall} {o : DriverOutcome} {s : Session}
    (h : (s.call d o).1 = true) : s.Up ∧ (s.call d o).2 = serve d s := by
  rcases request_cases (serve d) (refuse d) o s with
    ⟨hreq, hup, -⟩ | ⟨hreq, -⟩ | ⟨hreq, -⟩ | ⟨hreq, -⟩
  · rw [call, hreq]
    exact ⟨hup, rfl⟩
  · rw [call, hreq] at h
    cases h
  · exact absurd (h.symm.trans hreq) Bool.false_ne_true.symm
  · exact absurd (h.symm.trans hreq) Bool.false_ne_true.symm

/-- An attempt that returns has been served. -/
theorem attempt_returned {d : DriverCall} {env : CallEnv} {s : Session}
    (h : (s.attempt d true env).1 = .returned) :
    ∃ t : Session, t.Up ∧ (s.attempt d true env).2.1 = serve d t := by
  cases hfirst : (s.call d env.call1).1 with
  | true =>
      rw [attempt_of_accepted hfirst]
      exact ⟨s, call_of_accepted hfirst⟩
  | false =>
      rw [attempt_of_not_accepted hfirst] at h ⊢
      split at h
      · cases h
      · next t _ =>
          cases hsecond : (t.call d env.call2).1 with
          | true => exact ⟨t, call_of_accepted hsecond⟩
          | false =>
              rw [hsecond] at h
              cases h

end Session

namespace Connection

/-- The constructor of the outermost object has begun a transaction. -/
theorem construct_outermost {c : Connection} {id : Nat} {env : CallEnv} (hvalue : c.value = 0)
    (h : (c.construct id env).ending = .returned) :
    (c.construct id env).connection.session.Up ∧
      (c.construct id env).connection.session.inTransaction = true := by
  rw [construct] at h ⊢
  split at h
  · cases h
  · next t _ =>
      cases hattempt : t.attempt .transaction (decide (c.value = 0)) env with
      | mk ending rest =>
          rw [hattempt] at h
          have hreturned : (t.attempt .transaction true env).1 = .returned →
              ∃ u : Session, u.Up ∧ (t.attempt .transaction true env).2.1 = .serve .transaction u :=
            Session.attempt_returned
          rw [decide_eq_true hvalue] at hattempt
          rw [hattempt] at hreturned
          cases ending with
          | returned =>
              obtain ⟨u, hu, hrest⟩ := hreturned rfl
              obtain ⟨s, calls⟩ := rest
              obtain rfl : s = Session.serve .transaction u := hrest
              show (Session.serve .transaction u).Up ∧
                (Session.serve .transaction u).inTransaction = true
              exact ⟨hu.serve .transaction, rfl⟩
          | threw => cases h
          | exited => cases h

/-- That of an inner object has only checked the connection. -/
theorem construct_inner {c : Connection} {id : Nat} {env : CallEnv} (hvalue : c.value ≠ 0)
    (h : (c.construct id env).ending = .returned) :
    (c.construct id env).connection.session =
      if c.session.isOpen = true then c.session
      else if true ∈ env.opens1.take 10 then c.session.reopen else c.session := by
  rw [construct] at h ⊢
  split at h
  · cases h
  · next t hcheck =>
      rw [decide_eq_false hvalue]
      show t = _
      rw [Session.checkDbIsAlive] at hcheck
      split_ifs at hcheck with hopen
      · rw [if_pos hopen]
        exact (Option.some.inj hcheck).symm
      · rw [if_neg hopen, ← Session.reopenLoop_of_closed (Bool.eq_false_of_not_eq_true hopen)]
        exact (Option.some.inj hcheck).symm

theorem commit_inner {c : Connection} {id : Nat} {env : CallEnv} (hvalue : c.value ≠ 1)
    (hup : c.session.Up) : (c.commit id env).connection.session = c.session := by
  rw [commit, hup.checkDbIsAlive, decide_eq_false hvalue]
  rfl

/-- A commit whose first COMMIT fails leaves nothing that could be committed. -/
theorem commit_drained {c : Connection} {id : Nat} {env : CallEnv} (hvalue : c.value = 1)
    (hup : c.session.Up) (henv : env.call1.succeeds = false) :
    (c.commit id env).connection.session.Drained c.session.durable := by
  obtain ⟨hfails, hdrained⟩ := Session.drained_call_commit hup henv
  have hattempt : (c.session.attempt .commit true env).2.1.Drained c.session.durable :=
    (Session.stable_drained c.session.durable).attempt_of_not_accepted hfails hdrained
  rw [commit, hup.checkDbIsAlive, decide_eq_true hvalue]
  cases hr : c.session.attempt .commit true env with
  | mk ending rest =>
      rw [hr] at hattempt
      cases ending with
      | returned => simpa only [hr] using hattempt
      | threw => simpa only [hr] using hattempt
      | exited => simpa only [hr] using hattempt

/-- A disarmed object does nothing at the end of its scope. -/
theorem destroy_after_commit {c : Connection} {id : Nat} {env : CallEnv}
    (h : (c.commit id env).ending = .returned) (env' : CallEnv) :
    ((c.commit id env).connection.destroy id env').ending = .returned ∧
      ((c.commit id env).connection.destroy id env').connection.session =
        (c.commit id env).connection.session := by
  obtain ⟨s, -, ⟨-, hconnection⟩ | ⟨hended, -⟩⟩ := c.commit_spec id env
  · have hdisarmed : id ∈ (c.commit id env).connection.disarmed := by
      rw [hconnection]
      exact Finset.mem_insert_self _ _
    rw [destroy, if_pos hdisarmed]
    exact ⟨rfl, rfl⟩
  · exact absurd h hended

end Connection

/-! ### What the loop leaves behind -/

namespace Batch

section
variable (b : Batch)

theorem storeAll_cons (stmt : QString) (stmts : List QString) :
    b.storeAll (stmt :: stmts) = (b.store stmt).storeAll stmts := rfl

theorem map_snd_storeAll (stmts : List QString) :
    (b.storeAll stmts).executions.map Prod.snd = b.executions.map Prod.snd ++ stmts := by
  induction stmts generalizing b with
  | nil => exact (List.append_nil _).symm
  | cons stmt stmts ih =>
      rw [storeAll_cons, ih]
      show (b.executions ++ [(b.connection.executed, stmt)]).map Prod.snd ++ stmts = _
      rw [List.map_append, List.append_assoc]
      rfl

theorem value_storeAll (stmts : List QString) :
    (b.storeAll stmts).connection.value = b.connection.value := by
  induction stmts generalizing b with
  | nil => rfl
  | cons stmt stmts ih => exact ih (b.store stmt)

theorem up_storeAll {b : Batch} (hup : b.connection.session.Up) (stmts : List QString) :
    (b.storeAll stmts).connection.session.Up := by
  induction stmts generalizing b with
  | nil => exact hup
  | cons stmt stmts ih => exact ih (b := b.store stmt) (hup.store _)

theorem executions_subset_storeAll (stmts : List QString) :
    b.executions ⊆ (b.storeAll stmts).executions := by
  induction stmts generalizing b with
  | nil => exact fun _ h => h
  | cons stmt stmts ih => exact fun e he => ih (b.store stmt) (List.mem_append_left _ he)

theorem sessions_subset_storeAll (stmts : List QString) :
    b.sessions ⊆ (b.storeAll stmts).sessions := by
  induction stmts generalizing b with
  | nil => exact fun _ h => h
  | cons stmt stmts ih => exact fun e he => ih (b.store stmt) (List.mem_append_left _ he)

end

/-- In a transaction, what is executed from `n` on is pending. -/
structure Collecting (n : Nat) (durable : List Nat) (b : Batch) : Prop where
  inTransaction : b.connection.session.inTransaction = true
  durable_eq : b.connection.session.durable = durable
  sessions : ∀ s ∈ b.sessions, s.durable = durable
  executed : n ≤ b.connection.executed
  executions : ∀ e ∈ b.executions, n ≤ e.1 ∧ e.1 ∈ b.connection.session.pending

theorem Collecting.store {n : Nat} {durable : List Nat} {b : Batch} (hb : b.Collecting n durable)
    (sqlstmt : QString) : (b.store sqlstmt).Collecting n durable := by
  have hstore : b.connection.session.store b.connection.executed =
      { b.connection.session with
        pending := b.connection.session.pending ++ [b.connection.executed] } := by
    rw [Session.store, if_pos hb.inTransaction]
  have hsession : (b.store sqlstmt).connection.session =
      b.connection.session.store b.connection.executed := rfl
  refine ⟨?_, ?_, ?_, ?_, ?_⟩
  · rw [hsession, hstore]
    exact hb.inTransaction
  · rw [hsession, hstore]
    exact hb.durable_eq
  · intro s hs
    rcases List.mem_append.mp hs with hold | hnew
    · exact hb.sessions s hold
    · obtain rfl := List.mem_singleton.mp hnew
      show (b.connection.session.store b.connection.executed).durable = durable
      rw [hstore]
      exact hb.durable_eq
  · exact Nat.le_succ_of_le hb.executed
  · intro e he
    rw [hsession, hstore]
    rcases List.mem_append.mp he with hold | hnew
    · obtain ⟨hle, hpending⟩ := hb.executions e hold
      exact ⟨hle, List.mem_append_left _ hpending⟩
    · obtain rfl := List.mem_singleton.mp hnew
      exact ⟨hb.executed, List.mem_append_right _ List.mem_cons_self⟩

theorem Collecting.storeAll {n : Nat} {durable : List Nat} {b : Batch}
    (hb : b.Collecting n durable) (stmts : List QString) :
    (b.storeAll stmts).Collecting n durable := by
  induction stmts generalizing b with
  | nil => exact hb
  | cons stmt stmts ih => exact ih (hb.store stmt)

/-- Outside of a transaction every statement is committed on its own. -/
theorem storeAll_autocommit {b : Batch} (hb : b.connection.Accounted)
    (hup : b.connection.session.Up) (htx : b.connection.session.inTransaction = false)
    (stmt stmt' : QString) (stmts : List QString) :
    ∃ s ∈ (b.storeAll (stmt :: stmt' :: stmts)).sessions,
      ∃ e ∈ (b.storeAll (stmt :: stmt' :: stmts)).executions,
      ∃ e' ∈ (b.storeAll (stmt :: stmt' :: stmts)).executions,
        e.1 ∈ s.durable ∧ e'.1 ∉ s.durable := by
  have hstore : (b.connection.session.store b.connection.executed).durable =
      b.connection.session.durable ++ [b.connection.executed] := by
    rw [Session.store, htx]
    rfl
  have hfirst : (b.store stmt).connection.Accounted := hb.store hup
  refine ⟨b.connection.session.store b.connection.executed, ?_, (b.connection.executed, stmt), ?_,
    (b.connection.executed + 1, stmt'), ?_, ?_, ?_⟩
  · exact sessions_subset_storeAll (b.store stmt) _
      (List.mem_append_right _ List.mem_cons_self)
  · exact executions_subset_storeAll (b.store stmt) _
      (List.mem_append_right _ List.mem_cons_self)
  · exact executions_subset_storeAll ((b.store stmt).store stmt') _
      (List.mem_append_right _ List.mem_cons_self)
  · rw [hstore]
    exact List.mem_append_right _ List.mem_cons_self
  · intro hmem
    have hlt : b.connection.executed + 1 < b.connection.executed + 1 :=
      (Session.Accounted.mem_iff hfirst).mpr (.inl hmem)
    exact lt_irrefl _ hlt

end Batch

/-! ### The exits of a call -/

/-- The transaction object of the call. -/
def Connection.opened (c : Connection) (env : BatchEnv) : Done :=
  c.construct c.unusedId env.constructor

/-- When the transaction object is there. -/
def Batch.begun (c : Connection) (env : BatchEnv) : Batch :=
  (Batch.new c).moveTo (c.opened env).connection

/-- How `batchExec` ends. -/
inductive Exits (c : Connection) (env : BatchEnv) (sql : QString) : BatchDone → Prop
  | empty : ¬ 0 < sql.length →
      Exits c env sql ⟨.new c, .returned (latin1 "SQL statement passed was empty!!")⟩
  | nothing : (SqlUtils.splitQueries sql).length = 0 → Exits c env sql ⟨.new c, .returned []⟩
  | refused : (c.opened env).ending = .threw → Exits c env sql ⟨.begun c env, .threw⟩
  | exited : (c.opened env).ending = .exited → Exits c env sql ⟨.begun c env, .exited⟩
  | failed {errorText b} : (c.opened env).ending = .returned →
      (Batch.begun c env).run env.statement 0 (SqlUtils.splitQueries sql) = (some errorText, b) →
      Exits c env sql (b.leave c.unusedId env.destructor (.returned errorText))
  | committed {b} : (c.opened env).ending = .returned →
      (Batch.begun c env).run env.statement 0 (SqlUtils.splitQueries sql) = (none, b) →
      (b.connection.commit c.unusedId env.commit).ending = .returned →
      Exits c env sql ((b.moveTo (b.connection.commit c.unusedId env.commit).connection).leave
        c.unusedId env.destructor (.returned []))
  | uncommitted {b} : (c.opened env).ending = .returned →
      (Batch.begun c env).run env.statement 0 (SqlUtils.splitQueries sql) = (none, b) →
      (b.connection.commit c.unusedId env.commit).ending = .threw →
      Exits c env sql ((b.moveTo (b.connection.commit c.unusedId env.commit).connection).leave
        c.unusedId env.destructor .threw)
  | exitedCommit {b} : (c.opened env).ending = .returned →
      (Batch.begun c env).run env.statement 0 (SqlUtils.splitQueries sql) = (none, b) →
      (b.connection.commit c.unusedId env.commit).ending = .exited →
      Exits c env sql ⟨b.moveTo (b.connection.commit c.unusedId env.commit).connection, .exited⟩

theorem Connection.batchExec_exits (c : Connection) (env : BatchEnv) (sql : QString) :
    Exits c env sql (c.batchExec env sql) := by
  rw [batchExec]
  split
  · dsimp only
    split
    · next hnone => exact .nothing hnone
    · cases hopened : (c.construct c.unusedId env.constructor).ending with
      | threw => exact .refused hopened
      | exited => exact .exited hopened
      | returned =>
          dsimp only
          cases hrun : ((Batch.new c).moveTo (c.construct c.unusedId env.constructor).connection).run
              env.statement 0 (SqlUtils.splitQueries sql) with
          | mk error b =>
              cases error with
              | some errorText => exact .failed hopened hrun
              | none =>
                  dsimp only
                  cases hcommit : (b.connection.commit c.unusedId env.commit).ending with
                  | returned => exact .committed hopened hrun hcommit
                  | threw => exact .uncommitted hopened hrun hcommit
                  | exited => exact .exitedCommit hopened hrun hcommit
  · next hempty => exact .empty hempty

/-! ### A call that returns no error -/

theorem Batch.errorText_ne_nil (error : QString) : Batch.errorText error ≠ [] := by
  intro h
  have hhead : (Batch.errorText error).head? = some (QChar.ofChar 'E') := rfl
  rw [h] at hhead
  cases hhead

theorem Batch.run_error {env : Nat → StatementEnv} {pieces : List QString} {i : Nat}
    {b b' : Batch} {error : QString} (h : b.run env i pieces = (some error, b')) : error ≠ [] := by
  induction pieces generalizing i b with
  | nil => cases h
  | cons piece pieces ih =>
      rw [run] at h
      split at h
      · cases h
      · split at h
        · exact ih h
        · obtain ⟨herror, -⟩ := Prod.mk.inj h
          rw [← Option.some.inj herror]
          exact errorText_ne_nil _

theorem Batch.ending_leave {b : Batch} {id : Nat} {env : CallEnv} {ending : BatchEnding}
    {text : QString} (h : (b.leave id env ending).ending = .returned text) :
    ending = .returned text := by
  rw [leave] at h
  dsimp only at h
  split at h
  · cases h
  · exact h

/-- The call as a whole: the constructor returns, the loop comes to its end, and so
does the commit, after which the session stays as it is. -/
theorem Connection.batchExec_returned {c : Connection} {env : BatchEnv} {sql : QString}
    (h : (c.batchExec env sql).ending = .returned []) :
    (scriptPieces sql = [] ∧ (c.batchExec env sql).toBatch = .new c) ∨
    ∃ b, (c.construct c.unusedId env.constructor).ending = .returned ∧
      ((Batch.new c).moveTo (c.construct c.unusedId env.constructor).connection).run
        env.statement 0 (SqlUtils.splitQueries sql) = (none, b) ∧
      (c.batchExec env sql).executions = b.executions ∧
      (c.batchExec env sql).connection.session =
        (b.connection.commit c.unusedId env.commit).connection.session ∧
      ∀ s, s ∈ (c.batchExec env sql).sessions ↔ s ∈ b.sessions ∨
        s = (b.connection.commit c.unusedId env.commit).connection.session := by
  generalize hd : c.batchExec env sql = d at h ⊢
  have hexits : Exits c env sql d := hd ▸ c.batchExec_exits env sql
  cases hexits with
  | empty _ =>
      have hne : latin1 "SQL statement passed was empty!!" ≠ [] := by decide
      exact absurd (BatchEnding.returned.inj h) hne
  | nothing hnone =>
      exact .inl ⟨by rw [scriptPieces, List.length_eq_zero_iff.mp hnone]; rfl, rfl⟩
  | refused _ => cases h
  | exited _ => cases h
  | failed _ hrun =>
      have hreturned := BatchEnding.returned.inj (Batch.ending_leave h)
      exact absurd hreturned (Batch.run_error hrun)
  | @committed b hopened hrun hcommit =>
      obtain ⟨-, hsession⟩ := Connection.destroy_after_commit hcommit env.destructor
      refine .inr ⟨b, hopened, hrun, rfl, hsession, fun s => ?_⟩
      simp [Batch.leave, Batch.moveTo, hsession]
  | uncommitted _ _ _ => cases Batch.ending_leave h
  | exitedCommit _ _ _ => cases h

/-! ### When the promise is kept -/

theorem filter_eq_takeWhile_append {α : Type} (p : α → Bool) (as : List α) :
    as.filter p = as.takeWhile p ++ (as.dropWhile p).filter p := by
  conv_lhs => rw [← List.takeWhile_append_dropWhile (p := p) (l := as), List.filter_append]
  rw [List.filter_eq_self.mpr fun a ha => List.mem_takeWhile_imp ha]

theorem takeWhile_eq_filter_iff {α : Type} (p : α → Bool) (as : List α) :
    as.takeWhile p = as.filter p ↔ ∀ a ∈ as.dropWhile p, p a = false := by
  rw [filter_eq_takeWhile_append, List.self_eq_append_right, List.filter_eq_nil_iff]
  simp only [Bool.not_eq_true]

namespace BatchDone

variable {d : BatchDone} {b : Batch} {after : Session}

/-- Nothing was executed. -/
theorem together_of_none (hd : d.executions = []) : d.Together where
  atomic s _ := by
    rw [hd]
    exact .inl nofun
  kept := by
    rw [hd]
    exact .inl nofun

/-- What was collected in a transaction stays together: the session after the commit
has all of it, committed or still pending. -/
theorem together_of_collecting {n : Nat} {durable : List Nat} (hb : b.Collecting n durable)
    (hfresh : ∀ i ∈ durable, i < n) (hexecutions : d.executions = b.executions)
    (hsession : d.connection.session = after)
    (hsessions : ∀ s, s ∈ d.sessions ↔ s ∈ b.sessions ∨ s = after)
    (hafter : after.durable = durable ++ b.connection.session.pending ∨
      after = b.connection.session) : d.Together := by
  have hnew : ∀ e ∈ b.executions, e.1 ∉ durable := by
    intro e he hmem
    exact absurd (hfresh e.1 hmem) (not_lt.mpr (hb.executions e he).1)
  have hcommitted : after.durable = durable ++ b.connection.session.pending →
      ∀ e ∈ b.executions, e.1 ∈ after.durable := by
    intro h e he
    rw [h]
    exact List.mem_append_right _ (hb.executions e he).2
  refine ⟨fun s hs => ?_, ?_⟩
  · rw [hexecutions]
    rcases (hsessions s).mp hs with hbefore | rfl
    · exact .inl fun e he => by rw [hb.sessions s hbefore]; exact hnew e he
    · rcases hafter with hcommit | rfl
      · exact .inr (hcommitted hcommit)
      · exact .inl fun e he => by rw [hb.durable_eq]; exact hnew e he
  · rw [hexecutions, hsession]
    rcases hafter with hcommit | rfl
    · exact .inl (hcommitted hcommit)
    · exact .inr fun e he => (hb.executions e he).2

/-- When the COMMIT fails, nothing of it is left. -/
theorem not_together_of_drained {n : Nat} {durable : List Nat} (hb : b.Collecting n durable)
    (hfresh : ∀ i ∈ durable, i < n) (hexecutions : d.executions = b.executions)
    (hsession : d.connection.session = after) (hafter : after.Drained durable)
    (hne : b.executions ≠ []) : ¬ d.Together := by
  rintro ⟨-, hkept⟩
  rw [hexecutions, hsession, hafter.durable, hafter.pending] at hkept
  obtain ⟨e, es, he⟩ := List.exists_cons_of_ne_nil hne
  have hmem : e ∈ b.executions := by
    rw [he]
    exact List.mem_cons_self
  rcases hkept with hdurable | hpending
  · exact absurd (hfresh e.1 (hdurable e hmem)) (not_lt.mpr (hb.executions e hmem).1)
  · cases hpending e hmem

/-- One statement that is committed on its own. -/
theorem together_of_single {c : Connection} {stmt : QString} (hc : c.Accounted)
    (htx : c.session.inTransaction = false)
    (hexecutions : d.executions = (((Batch.new c).moveTo c).store stmt).executions)
    (hsession : d.connection.session = (((Batch.new c).moveTo c).store stmt).connection.session)
    (hsessions : ∀ s, s ∈ d.sessions ↔ s ∈ (((Batch.new c).moveTo c).store stmt).sessions ∨
      s = (((Batch.new c).moveTo c).store stmt).connection.session) : d.Together := by
  have hstored : c.executed ∈
      (((Batch.new c).moveTo c).store stmt).connection.session.durable := by
    show c.executed ∈ (c.session.store c.executed).durable
    rw [Session.store, htx]
    exact List.mem_append_right _ List.mem_cons_self
  have hnew : c.executed ∉ c.session.durable := fun hmem =>
    lt_irrefl _ ((Session.Accounted.mem_iff hc).mpr (.inl hmem))
  have hone : ∀ e ∈ d.executions, e.1 = c.executed := by
    intro e he
    rw [hexecutions] at he
    obtain rfl := List.mem_singleton.mp he
    rfl
  refine ⟨fun s hs => ?_, .inl fun e he => ?_⟩
  · rcases (hsessions s).mp hs with hloop | rfl
    · rcases List.mem_append.mp hloop with hbegun | hlast
      · obtain rfl := List.mem_singleton.mp hbegun
        exact .inl fun e he => by rw [hone e he]; exact hnew
      · obtain rfl := List.mem_singleton.mp hlast
        exact .inr fun e he => by rw [hone e he]; exact hstored
    · exact .inr fun e he => by rw [hone e he]; exact hstored
  · rw [hone e he, hsession]
    exact hstored

end BatchDone

/-- The constructor of an inner object opens the connection, or finds it open. -/
theorem Connection.isOpen_inner {c : Connection} {env : BatchEnv} {s : Session}
    (hs : s = if c.session.isOpen = true then c.session
      else if true ∈ env.constructor.opens1.take 10 then c.session.reopen else c.session) :
    s.isOpen = true ↔ c.OpenFor env := by
  rw [OpenFor, hs]
  by_cases hopen : c.session.isOpen = true
  · simp [hopen]
  · by_cases hattempt : true ∈ env.constructor.opens1.take 10
    · rw [if_neg hopen, if_pos hattempt]
      exact iff_of_true rfl (.inr hattempt)
    · rw [if_neg hopen, if_neg hattempt]
      exact iff_of_false hopen fun h => h.elim hopen hattempt

/-- The transaction around it is only there if the connection was not reopened. -/
theorem Connection.inTransaction_inner {c : Connection} {env : BatchEnv} {s : Session}
    (hs : s = if c.session.isOpen = true then c.session
      else if true ∈ env.constructor.opens1.take 10 then c.session.reopen else c.session)
    (hopen : s.isOpen = true) :
    s.inTransaction = true ↔ c.session.isOpen = true ∧ c.session.inTransaction = true := by
  by_cases h : c.session.isOpen = true
  · rw [if_pos h] at hs
    rw [hs]
    exact ⟨fun htx => ⟨h, htx⟩, fun htx => htx.2⟩
  · rw [if_neg h] at hs
    refine iff_of_false (fun htx => ?_) fun htx => h htx.1
    split_ifs at hs
    · rw [hs] at htx
      cases htx
    · rw [hs] at hopen
      exact h hopen

section
variable {c : Connection} {env : BatchEnv}

/-- The connection when the loop starts. -/
def Connection.begun (c : Connection) (env : BatchEnv) : Connection :=
  (c.construct c.unusedId env.constructor).connection

theorem Connection.begun_eq
    (hconstruct : (c.construct c.unusedId env.constructor).ending = .returned) :
    (c.begun env).value = c.value + 1 ∧ (c.Accounted → (c.begun env).Accounted) := by
  obtain ⟨s, hlater, ⟨-, h⟩ | ⟨hended, -⟩⟩ := c.construct_spec c.unusedId env.constructor
  · rw [begun, h]
    exact ⟨rfl, fun hc => Session.Accounted.later hc hlater⟩
  · exact absurd hconstruct hended

/-- The state behind the loop when these are the statements it has executed. -/
def Connection.looped (c : Connection) (env : BatchEnv) (stmts : List QString) : Batch :=
  ((Batch.new c).moveTo (c.begun env)).storeAll stmts

/-- In a transaction, all statements of the loop are pending. -/
theorem Connection.collecting_looped (htx : (c.begun env).session.inTransaction = true)
    (stmts : List QString) :
    (c.looped env stmts).Collecting (c.begun env).executed (c.begun env).session.durable := by
  have hbegun : ((Batch.new c).moveTo (c.begun env)).Collecting (c.begun env).executed
      (c.begun env).session.durable := by
    refine ⟨htx, rfl, fun s hs => ?_, le_rfl, nofun⟩
    obtain rfl := List.mem_singleton.mp hs
    rfl
  exact hbegun.storeAll stmts

theorem Connection.executions_looped_ne_nil {stmts : List QString} (hstmts : stmts ≠ []) :
    (c.looped env stmts).executions ≠ [] := by
  intro hempty
  have hmap := Batch.map_snd_storeAll ((Batch.new c).moveTo (c.begun env)) stmts
  rw [← Connection.looped, hempty] at hmap
  exact hstmts hmap.symm

/-- The loop has executed these statements, and the commit has followed. -/
structure BatchDone.Committed (c : Connection) (env : BatchEnv) (stmts : List QString)
    (d : BatchDone) : Prop where
  constructed : (c.construct c.unusedId env.constructor).ending = .returned
  isOpen : (c.begun env).session.isOpen = true
  up : stmts ≠ [] → (c.begun env).session.Up
  executions : d.executions = (c.looped env stmts).executions
  session : d.connection.session =
    ((c.looped env stmts).connection.commit c.unusedId env.commit).connection.session
  sessions : ∀ s, s ∈ d.sessions ↔ s ∈ (c.looped env stmts).sessions ∨
    s = ((c.looped env stmts).connection.commit c.unusedId env.commit).connection.session

namespace BatchDone.Committed

variable {d : BatchDone} {stmts : List QString} (h : d.Committed c env stmts)
include h

theorem up_looped (hstmts : stmts ≠ []) : (c.looped env stmts).connection.session.Up :=
  Batch.up_storeAll (b := (Batch.new c).moveTo (c.begun env)) (h.up hstmts) stmts

theorem value_looped : (c.looped env stmts).connection.value = c.value + 1 := by
  rw [Connection.looped, Batch.value_storeAll]
  exact (Connection.begun_eq h.constructed).1

theorem durable_lt (hc : c.Accounted) :
    ∀ i ∈ (c.begun env).session.durable, i < (c.begun env).executed := by
  intro i hi
  exact (Session.Accounted.mem_iff ((Connection.begun_eq h.constructed).2 hc)).mpr (.inl hi)

/-- The outermost object: BEGIN was accepted, and COMMIT decides. -/
theorem together_outermost_iff (hc : c.Accounted) (hstmts : stmts ≠ []) (houter : c.value = 0) :
    d.Together ↔ env.commit.call1.succeeds = true := by
  have hb := Connection.collecting_looped
    (Connection.construct_outermost houter h.constructed).2 stmts
  have hone : (c.looped env stmts).connection.value = 1 := by
    rw [h.value_looped, houter]
    rfl
  cases hcommit : env.commit.call1.succeeds with
  | true =>
      refine iff_of_true (together_of_collecting hb (h.durable_lt hc) h.executions h.session
        h.sessions (.inl ?_)) rfl
      rw [Connection.durable_commit_of_up hone (h.up_looped hstmts) hcommit, hb.durable_eq]
  | false =>
      refine iff_of_false (not_together_of_drained hb (h.durable_lt hc) h.executions h.session ?_
        (Connection.executions_looped_ne_nil hstmts)) Bool.false_ne_true
      rw [← hb.durable_eq]
      exact Connection.commit_drained hone (h.up_looped hstmts) hcommit

/-- An inner object: the transaction around it decides, if it is still there, or there is
one statement only. -/
theorem together_inner_iff (hc : c.Accounted) (hstmts : stmts ≠ []) (hinner : c.value ≠ 0) :
    d.Together ↔ c.session.isOpen = true ∧ c.session.inTransaction = true ∨ stmts.length = 1 := by
  have hsame : ((c.looped env stmts).connection.commit c.unusedId env.commit).connection.session =
      (c.looped env stmts).connection.session :=
    Connection.commit_inner (by rw [h.value_looped]; omega) (h.up_looped hstmts)
  have htx_iff := Connection.inTransaction_inner (Connection.construct_inner hinner h.constructed)
    h.isOpen
  have hc' := (Connection.begun_eq h.constructed).2 hc
  cases htx : (c.begun env).session.inTransaction with
  | true =>
      exact iff_of_true (together_of_collecting (Connection.collecting_looped htx stmts)
        (h.durable_lt hc) h.executions h.session h.sessions (.inr hsame)) (.inl (htx_iff.mp htx))
  | false =>
      have hno : ¬ (c.session.isOpen = true ∧ c.session.inTransaction = true) := by
        intro hyes
        have htrue : (c.begun env).session.inTransaction = true := htx_iff.mpr hyes
        rw [htx] at htrue
        cases htrue
      rw [or_iff_right hno]
      have hsession := h.session
      have hsessions := h.sessions
      rw [hsame] at hsession hsessions
      rcases stmts with - | ⟨stmt, - | ⟨stmt', stmts⟩⟩
      · exact absurd rfl hstmts
      · exact iff_of_true (together_of_single hc' htx h.executions hsession hsessions) rfl
      · -- each statement is committed on its own
        refine iff_of_false (fun htogether => ?_) (by simp)
        obtain ⟨s, hs, e, he, e', he', hdurable, hnot⟩ := Batch.storeAll_autocommit
          (b := (Batch.new c).moveTo (c.begun env)) hc' (h.up hstmts) htx stmt stmt' stmts
        rw [← Connection.looped, ← h.executions] at he he'
        rcases htogether.atomic s ((hsessions s).mpr (.inl hs)) with hnone | hall
        · exact hnone e he hdurable
        · exact hnot (hall e' he')

/-- The statements of the loop are kept together by the transaction that is there, or
because there is one only. -/
theorem together_iff (hc : c.Accounted) :
    d.Together ↔ (stmts ≠ [] → c.value = 0 → env.commit.call1.succeeds = true) ∧
      (stmts ≠ [] → c.value ≠ 0 → c.OpenFor env ∧
        (c.session.isOpen = true ∧ c.session.inTransaction = true ∨ stmts.length = 1)) := by
  by_cases hstmts : stmts = []
  · subst hstmts
    exact iff_of_true (together_of_none h.executions)
      ⟨fun hne => absurd rfl hne, fun hne => absurd rfl hne⟩
  · by_cases houter : c.value = 0
    · rw [h.together_outermost_iff hc hstmts houter]
      exact ⟨fun hcommit => ⟨fun _ _ => hcommit, fun _ hinner => absurd houter hinner⟩,
        fun hcommit => hcommit.1 hstmts houter⟩
    · have hopenFor :=
        (Connection.isOpen_inner (Connection.construct_inner houter h.constructed)).mp h.isOpen
      rw [h.together_inner_iff hc hstmts houter]
      exact ⟨fun hkept => ⟨fun _ hvalue => absurd hvalue houter, fun _ _ => ⟨hopenFor, hkept⟩⟩,
        fun hkept => (hkept.2 hstmts houter).2⟩

/-- Whether all statements of the script were executed is a matter of the small pieces. -/
theorem promise_iff_sound {sql : QString} (hc : c.Accounted) (hstmts : stmts = reachedPieces sql) :
    d.Promise sql ↔ c.Sound env sql := by
  have htogether := h.together_iff hc
  rw [hstmts] at htogether
  have hmap : d.executions.map Prod.snd = reachedPieces sql := by
    rw [h.executions, Connection.looped, Batch.map_snd_storeAll, hstmts]
    rfl
  constructor
  · rintro ⟨hexecuted, htog⟩
    obtain ⟨houtermost, hnested⟩ := htogether.mp htog
    refine ⟨(takeWhile_eq_filter_iff _ _).mp ?_, houtermost, hnested⟩
    rw [← hexecuted, hmap]
    rfl
  · rintro ⟨hsmall, houtermost, hnested⟩
    refine ⟨?_, htogether.mpr ⟨houtermost, hnested⟩⟩
    rw [hmap, ← (takeWhile_eq_filter_iff _ _).mpr hsmall]
    rfl

end BatchDone.Committed

/-- On a closed connection nothing is executed, and nobody notices. -/
theorem Connection.promise_of_closed {d : BatchDone} {sql : QString}
    (hconstruct : (c.construct c.unusedId env.constructor).ending = .returned)
    (hclosed : (c.begun env).session.isOpen = false) (hnone : d.executions = []) :
    d.Promise sql ↔ c.Sound env sql := by
  have hinner : c.value ≠ 0 := by
    intro hvalue
    have hup : (c.begun env).session.isOpen = true := (construct_outermost hvalue hconstruct).1.isOpen
    rw [hclosed] at hup
    cases hup
  have hnotFor : ¬ c.OpenFor env := fun hfor => by
    have hopen : (c.begun env).session.isOpen = true :=
      (isOpen_inner (construct_inner hinner hconstruct)).mpr hfor
    rw [hclosed] at hopen
    cases hopen
  constructor
  · rintro ⟨hexecuted, -⟩
    rw [hnone] at hexecuted
    have hfilter : (scriptPieces sql).filter isStatement = [] := hexecuted.symm
    rw [filter_eq_takeWhile_append, List.append_eq_nil_iff] at hfilter
    have hreached : reachedPieces sql = [] := hfilter.1
    refine ⟨?_, fun hne => absurd hreached hne, fun hne => absurd hreached hne⟩
    simpa only [List.filter_eq_nil_iff, Bool.not_eq_true] using hfilter.2
  · rintro ⟨hsmall, -, hnested⟩
    have hreached : reachedPieces sql = [] := by
      by_contra hne
      exact hnotFor (hnested hne hinner).1
    refine ⟨?_, BatchDone.together_of_none hnone⟩
    rw [hnone, ← (takeWhile_eq_filter_iff _ _).mpr hsmall]
    exact hreached.symm

/-- What a call that returns no error has done. -/
theorem Connection.promise_of_returned {sql : QString} (hc : c.Accounted)
    (h : (c.batchExec env sql).ending = .returned []) :
    (c.batchExec env sql).Promise sql ↔ c.Sound env sql := by
  rcases batchExec_returned h with ⟨hpieces, hnew⟩ |
    ⟨b, hconstruct, hrun, hexecutions, hsession, hsessions⟩
  · have hnone : (c.batchExec env sql).executions = [] := by rw [hnew]; rfl
    refine iff_of_true ⟨?_, BatchDone.together_of_none hnone⟩ ⟨?_, ?_, ?_⟩
    · rw [hnone, hpieces]
      rfl
    · rw [hpieces]
      exact nofun
    · intro hne
      rw [reachedPieces, hpieces] at hne
      exact absurd rfl hne
    · intro hne
      rw [reachedPieces, hpieces] at hne
      exact absurd rfl hne
  · cases hopen : (c.begun env).session.isOpen with
    | true =>
        obtain ⟨rfl, hup⟩ := Batch.run_of_open (b := (Batch.new c).moveTo (c.begun env)) hopen hrun
        have hcommitted : (c.batchExec env sql).Committed c env (reachedPieces sql) :=
          ⟨hconstruct, hopen, hup, hexecutions, hsession, hsessions⟩
        exact hcommitted.promise_iff_sound hc rfl
    | false =>
        have hloop := (Batch.run_of_closed (b := (Batch.new c).moveTo (c.begun env)) hopen).symm.trans
          hrun
        obtain rfl := (Prod.mk.inj hloop).2
        exact promise_of_closed hconstruct hopen hexecutions

/-- **When `batchExec` keeps its promise**: on a connection after any history, a
call that returns no error has executed all statements of the script, in order and
together, if and only if none of them stands behind a piece that is too small and the
connection takes them together. -/
theorem promise_iff (es : List TransactionEvent) (env : BatchEnv) (sql : QString)
    (h : ((Runs.run Connection.step .new es).batchExec env sql).ending = .returned []) :
    ((Runs.run Connection.step .new es).batchExec env sql).Promise sql ↔
      (Runs.run Connection.step .new es).Sound env sql :=
  Connection.promise_of_returned (Runs.run_invariant_of_forall
    (fun _ e hc => Connection.accounted_step e hc) Connection.accounted_new es) h

end

/-- Nothing goes wrong. -/
def BatchEnv.success : BatchEnv where
  constructor := .success
  statement _ := ⟨.success, []⟩
  commit := .success
  destructor := .success

/-- Two statements and a comment behind them. -/
theorem promise_iff_commentLast :
    ((Connection.new).batchExec .success (latin1 "ONE;\nTWO;\n-- done")).Promise
        (latin1 "ONE;\nTWO;\n-- done") ↔
      Connection.new.Sound .success (latin1 "ONE;\nTWO;\n-- done") :=
  promise_iff [] .success (latin1 "ONE;\nTWO;\n-- done") (by decide)

/-- A comment between two statements: the second one is not executed, and no error is
returned. -/
theorem not_promise_commentBetween :
    ¬ ∀ (es : List TransactionEvent) (env : BatchEnv) (sql : QString),
      ((Runs.run Connection.step .new es).batchExec env sql).ending = .returned [] →
        ((Runs.run Connection.step .new es).batchExec env sql).Promise sql := by
  intro h
  have hexecuted := (h [] .success (latin1 "ONE;\n-- next;\nTWO") (by decide)).executed
  revert hexecuted
  decide

end Sqlate
