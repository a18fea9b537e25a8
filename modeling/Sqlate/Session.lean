/-
Sqlate/Session.lean

One database session as the library sees it through Qt.

The server keeps one flat transaction per session; the driver keeps a flag
`isOpen` that may still be set when the session is gone.  Every request that
needs the server (`DriverCall`, the execution of a statement) comes with an
outcome chosen by the environment: the session may be lost on the way, the
server may refuse, and the driver may notice a loss or not.

`checkDbIsAlive` reopens a session that is known to be closed; on the main
thread it ends the program instead.

Whatever happens, every execution is in exactly one of three places: it is
durable, pending or discarded.  `Later` says that nothing leaves these places
and that neither what is durable nor what is discarded comes back; nothing but
an execution breaks this (`stable_later`), and an execution adds itself once
(`exec_spec`).
-/
import Mathlib.Algebra.Order.Group.Multiset
import Mathlib.Data.Multiset.Range
import Mathlib.Tactic.Abel

namespace Sqlate

/-- A session and what the server did with the executions of statements, which
are numbered. -/
structure Session where
  isOpen : Bool
  connected : Bool
  inTransaction : Bool
  /-- Executions in the open transaction. -/
  pending : List Nat
  /-- Executions in the committed database state. -/
  durable : List Nat
  /-- Executions the server has thrown away. -/
  discarded : List Nat
  deriving DecidableEq, Repr

/-- What the environment does to a request. -/
structure DriverOutcome where
  /-- The session is lost before the server has done anything. -/
  lost : Bool
  accepted : Bool
  /-- The driver notices that the session is gone. -/
  noticed : Bool
  deriving DecidableEq, Repr

/-- `QSqlDatabase::transaction`, `commit` and `rollback`. -/
inductive DriverCall
  | transaction | commit | rollback
  deriving DecidableEq, Repr

/-- How a call of the library ends. -/
inductive Ending
  | returned | threw | exited
  deriving DecidableEq, Repr

/-- The outcomes that one call of the library may meet: the attempts to reopen
in its two `checkDbIsAlive` calls, and its two requests. -/
structure CallEnv where
  onMainThread : Bool
  opens1 : List Bool
  call1 : DriverOutcome
  opens2 : List Bool
  call2 : DriverOutcome
  deriving DecidableEq, Repr

namespace DriverOutcome

def success : DriverOutcome := ⟨false, true, false⟩

def refusal : DriverOutcome := ⟨false, false, false⟩

/-- The server is reached and accepts. -/
def succeeds (o : DriverOutcome) : Bool := !o.lost && o.accepted

end DriverOutcome

namespace CallEnv

/-- All requests succeed. -/
def success : CallEnv := ⟨true, [], .success, [], .success⟩

end CallEnv

namespace Session

/-- A session that has just been opened. -/
def new : Session := ⟨true, true, false, [], [], []⟩

/-! ### The server -/

/-- The open transaction ends and its work is thrown away. -/
def discard (s : Session) : Session :=
  { s with inTransaction := false, pending := [], discarded := s.discarded ++ s.pending }

/-- The session is lost; the driver does not know yet. -/
def lose (s : Session) : Session := { s.discard with connected := false }

/-- A successful `QSqlDatabase::open`. -/
def reopen (s : Session) : Session := { s.discard with isOpen := true, connected := true }

/-- What the server does when it accepts a call.  BEGIN inside a transaction
and COMMIT or ROLLBACK outside of one are accepted and change nothing. -/
def serve : DriverCall → Session → Session
  | .transaction, s => { s with inTransaction := true }
  | .commit, s =>
      { s with inTransaction := false, pending := [], durable := s.durable ++ s.pending }
  | .rollback, s => s.discard

/-- What the server does when it refuses a call: a failed COMMIT ends the
transaction. -/
def refuse : DriverCall → Session → Session
  | .commit, s => s.discard
  | _, s => s

/-- The server executes a statement, in the open transaction or on its own. -/
def store (id : Nat) (s : Session) : Session :=
  if s.inTransaction then { s with pending := s.pending ++ [id] }
  else { s with durable := s.durable ++ [id] }

/-! ### The driver -/

/-- The driver notices, or does not, that the session is gone. -/
def notice (noticed : Bool) (s : Session) : Session :=
  if noticed then { s with isOpen := false } else s

/-- A request to the server; the result tells whether it was accepted. -/
def request (accept reject : Session → Session) (o : DriverOutcome) (s : Session) :
    Bool × Session :=
  if s.isOpen then
    let s := if o.lost then s.lose else s
    if s.connected then
      if o.accepted then (true, accept s) else (false, reject s)
    -- only a failed request makes the driver look for the session
    else (false, s.notice o.noticed)
  else (false, s)

def call (d : DriverCall) : DriverOutcome → Session → Bool × Session :=
  request (serve d) (refuse d)

/-- `QSqlQuery::exec`; a statement that fails leaves the transaction as it is. -/
def execStatement (id : Nat) : DriverOutcome → Session → Bool × Session :=
  request (store id) (fun s => s)

/-! ### The library -/

/-- The loop of `checkDbIsAlive` off the main thread; `retries` attempts to
open are left. -/
def reopenLoop : Nat → List Bool → Session → Session
  | 0, _, s => s
  | retries + 1, opens, s =>
      if s.isOpen then s
      else if opens.headD false then reopenLoop retries opens.tail s.reopen
      else reopenLoop retries opens.tail s

/-- `SqlQueryManager::checkDbIsAlive`; `none` is `exit(1)`. -/
def checkDbIsAlive (onMainThread : Bool) (opens : List Bool) (s : Session) : Option Session :=
  if s.isOpen then some s
  else if onMainThread then none
  else some (reopenLoop 10 opens s)

/-- A driver call that is repeated once after a check of the connection:
`if ( needed && !call() ) { checkDbIsAlive(); if ( needed && !call() ) throw; }`.
The list has the calls that were made. -/
def attempt (d : DriverCall) (needed : Bool) (env : CallEnv) (s : Session) :
    Ending × Session × List DriverCall :=
  if needed then
    let r := s.call d env.call1
    if r.1 then (.returned, r.2, [d])
    else
      match r.2.checkDbIsAlive env.onMainThread env.opens2 with
      | none => (.exited, r.2, [d])
      | some s =>
          let r := s.call d env.call2
          (if r.1 then .returned else .threw, r.2, [d, d])
  else (.returned, s, [])

/-- `SqlQuery::exec`: the statement is executed again after a reconnect. -/
def exec (id : Nat) (env : CallEnv) (s : Session) : Ending × Session :=
  match s.checkDbIsAlive env.onMainThread env.opens1 with
  | none => (.exited, s)
  | some s =>
      let r := s.execStatement id env.call1
      if r.1 then (.returned, r.2)
      -- no second attempt while the driver takes the session for open
      else if r.2.isOpen then (.threw, r.2)
      else
        match r.2.checkDbIsAlive env.onMainThread env.opens2 with
        | none => (.exited, r.2)
        | some s =>
            let r := s.execStatement id env.call2
            (if r.1 then .returned else .threw, r.2)

/-! ### What every request preserves -/

/-- The session is there, and the driver knows. -/
structure Up (s : Session) : Prop where
  isOpen : s.isOpen = true
  connected : s.connected = true

/-- A property of sessions that nothing but the execution of a statement can
break. -/
structure Stable (P : Session → Prop) : Prop where
  discard : ∀ s, P s → P s.discard
  lose : ∀ s, P s → P s.lose
  reopen : ∀ s, P s → P s.reopen
  serve : ∀ d s, P s → P (serve d s)
  notice : ∀ noticed s, s.connected = false → P s → P (s.notice noticed)

/-- A request reaches the server, which accepts or rejects it, or there is no
server to be reached, or the session is lost on the way. -/
theorem request_cases (accept reject : Session → Session) (o : DriverOutcome) (s : Session) :
    (request accept reject o s = (true, accept s) ∧ s.Up ∧ o.succeeds = true) ∨
    (request accept reject o s = (false, reject s) ∧ s.Up ∧ o.succeeds = false) ∨
    ((request accept reject o s).1 = false ∧ ¬ s.Up ∧
      ∀ P, Stable P → P s → P (request accept reject o s).2) ∨
    ((request accept reject o s).1 = false ∧ o.succeeds = false ∧
      ∀ P, Stable P → P s.lose → P (request accept reject o s).2) := by
  rw [request]
  cases hopen : s.isOpen with
  | false =>
      exact .inr (.inr (.inl ⟨rfl, fun h => by simp [h.isOpen] at hopen, fun _ _ hs => hs⟩))
  | true =>
      cases hlost : o.lost with
      | true =>
          -- the outcome decides: nothing was done before the loss
          exact .inr (.inr (.inr ⟨rfl, by simp [DriverOutcome.succeeds, hlost],
            fun _ hP hs => hP.notice _ _ rfl hs⟩))
      | false =>
          cases hconnected : s.connected with
          | false =>
              refine .inr (.inr (.inl ⟨by simp [hconnected], fun h => ?_, fun P hP hs => ?_⟩))
              · simp [h.connected] at hconnected
              · simpa [hconnected] using hP.notice o.noticed s hconnected hs
          | true =>
              have hup : s.Up := ⟨hopen, hconnected⟩
              cases hok : o.accepted <;> simp [hconnected, hup, DriverOutcome.succeeds, hlost, hok]

namespace Stable

variable {P : Session → Prop} (hP : Stable P) {s : Session}
include hP

theorem refuse (d : DriverCall) (hs : P s) : P (Session.refuse d s) := by
  cases d with
  | commit => exact hP.discard s hs
  | transaction => exact hs
  | rollback => exact hs

theorem call (d : DriverCall) (o : DriverOutcome) (hs : P s) : P (s.call d o).2 := by
  rcases request_cases (Session.serve d) (Session.refuse d) o s with
    ⟨h, -⟩ | ⟨h, -⟩ | ⟨-, -, h⟩ | ⟨-, -, h⟩
  · rw [Session.call, h]
    exact hP.serve d s hs
  · rw [Session.call, h]
    exact hP.refuse d hs
  · exact h P hP hs
  · exact h P hP (hP.lose s hs)

theorem reopenLoop (retries : Nat) (opens : List Bool) (hs : P s) :
    P (Session.reopenLoop retries opens s) := by
  induction retries generalizing opens s with
  | zero => exact hs
  | succ retries ih =>
      -- one round: nothing to do, a successful `open`, a failed one
      rw [Session.reopenLoop]
      split_ifs
      · exact hs
      · exact ih _ (hP.reopen s hs)
      · exact ih _ hs

theorem checkDbIsAlive {onMainThread : Bool} {opens : List Bool} {t : Session} (hs : P s)
    (h : s.checkDbIsAlive onMainThread opens = some t) : P t := by
  rw [Session.checkDbIsAlive] at h
  split_ifs at h
  · obtain rfl := Option.some.inj h
    exact hs
  · obtain rfl := Option.some.inj h
    exact hP.reopenLoop 10 opens hs

end Stable

/-! ### Attempts -/

theorem attempt_of_accepted {d : DriverCall} {env : CallEnv} {s : Session}
    (h : (s.call d env.call1).1 = true) :
    s.attempt d true env = (.returned, (s.call d env.call1).2, [d]) := by
  simp [attempt, h]

/-- The second call, after a check of the connection. -/
theorem attempt_of_not_accepted {d : DriverCall} {env : CallEnv} {s : Session}
    (h : (s.call d env.call1).1 = false) :
    s.attempt d true env =
      match (s.call d env.call1).2.checkDbIsAlive env.onMainThread env.opens2 with
      | none => (.exited, (s.call d env.call1).2, [d])
      | some t =>
          (if (t.call d env.call2).1 then .returned else .threw, (t.call d env.call2).2, [d, d]) := by
  simp [attempt, h]

/-- What holds after a first call that failed holds after the attempt. -/
theorem Stable.attempt_of_not_accepted {P : Session → Prop} (hP : Stable P) {d : DriverCall}
    {env : CallEnv} {s : Session} (h : (s.call d env.call1).1 = false)
    (hs : P (s.call d env.call1).2) : P (s.attempt d true env).2.1 := by
  rw [Session.attempt_of_not_accepted h]
  split
  · exact hs
  · next t hcheck => exact hP.call d env.call2 (hP.checkDbIsAlive hs hcheck)

theorem Stable.attempt {P : Session → Prop} (hP : Stable P) (d : DriverCall) (needed : Bool)
    (env : CallEnv) {s : Session} (hs : P s) : P (s.attempt d needed env).2.1 := by
  have hfirst := hP.call d env.call1 hs
  cases needed with
  | false => exact hs
  | true =>
      -- one call or two, depending on the first one
      cases h : (s.call d env.call1).1 with
      | true =>
          rw [attempt_of_accepted h]
          exact hfirst
      | false => exact hP.attempt_of_not_accepted h hfirst

theorem calls_attempt {d d' : DriverCall} {needed : Bool} {env : CallEnv} {s : Session}
    (h : d' ∈ (s.attempt d needed env).2.2) : d' = d ∧ needed = true := by
  cases needed with
  | false => cases h
  | true =>
      cases hfirst : (s.call d env.call1).1 with
      | true => simpa [attempt_of_accepted hfirst] using h
      | false =>
          rw [attempt_of_not_accepted hfirst] at h
          split at h <;> simp_all

/-! ### Bookkeeping of the executions -/

/-- All executions the server has seen. -/
def work (s : Session) : Multiset Nat := ↑s.durable + ↑s.pending + ↑s.discarded

/-- The driver's flag is only too good, and nothing is pending on a session
that is gone. -/
structure Coherent (s : Session) : Prop where
  closed : s.isOpen = false → s.connected = false
  gone : s.connected = false → s.pending = []

/-- The same executions; what is durable stays durable, what is discarded
stays discarded; and the session stays coherent. -/
structure Later (s s' : Session) : Prop where
  work : s'.work = s.work
  durable : s.durable ⊆ s'.durable
  discarded : s.discarded ⊆ s'.discarded
  coherent : s.Coherent → s'.Coherent

theorem Later.refl (s : Session) : s.Later s := ⟨rfl, fun _ h => h, fun _ h => h, id⟩

theorem Later.trans {s t u : Session} (hst : s.Later t) (htu : t.Later u) : s.Later u where
  work := htu.work.trans hst.work
  durable := fun _ h => htu.durable (hst.durable h)
  discarded := fun _ h => htu.discarded (hst.discarded h)
  coherent := fun h => htu.coherent (hst.coherent h)

theorem work_discard (s : Session) : s.discard.work = s.work := by
  simp only [work, discard, ← Multiset.coe_add, Multiset.coe_nil, add_zero]
  abel

theorem work_serve (d : DriverCall) (s : Session) : (serve d s).work = s.work := by
  cases d with
  | transaction => rfl
  | commit => simp only [work, serve, ← Multiset.coe_add, Multiset.coe_nil, add_zero]
  | rollback => exact work_discard s

theorem later_discard (s : Session) : s.Later s.discard where
  work := work_discard s
  durable := fun _ h => h
  discarded := fun _ h => List.mem_append_left _ h
  coherent := fun h => ⟨h.closed, fun _ => rfl⟩

theorem later_serve (d : DriverCall) (s : Session) : s.Later (serve d s) where
  work := work_serve d s
  durable := by
    cases d with
    | commit => exact fun _ h => List.mem_append_left _ h
    | _ => exact fun _ h => h
  discarded := by
    cases d with
    | rollback => exact fun _ h => List.mem_append_left _ h
    | _ => exact fun _ h => h
  coherent h := by
    cases d with
    | transaction => exact ⟨h.closed, h.gone⟩
    | commit => exact ⟨h.closed, fun _ => rfl⟩
    | rollback => exact ⟨h.closed, fun _ => rfl⟩

/-- **Nothing but an execution changes the books.** -/
theorem stable_later (s₀ : Session) : Stable s₀.Later where
  discard := fun s h => h.trans (later_discard s)
  lose := fun s h => h.trans ⟨work_discard s, fun _ h => h, fun _ h => List.mem_append_left _ h,
    fun _ => ⟨fun _ => rfl, fun _ => rfl⟩⟩
  reopen := fun s h => h.trans ⟨work_discard s, fun _ h => h, fun _ h => List.mem_append_left _ h,
    fun _ => ⟨nofun, nofun⟩⟩
  serve := fun d s h => h.trans (later_serve d s)
  notice := fun noticed s hs h => h.trans <| by
    cases noticed with
    | true => exact ⟨rfl, fun _ h => h, fun _ h => h, fun hc => ⟨fun _ => hs, hc.gone⟩⟩
    | false => exact .refl s

/-- Nothing is pending, and the executions `d` are durable. -/
structure Drained (d : List Nat) (s : Session) : Prop where
  durable : s.durable = d
  pending : s.pending = []

/-- Without a new execution, a drained session stays as it is. -/
theorem stable_drained (d : List Nat) : Stable (Drained d) where
  discard := fun _ h => ⟨h.durable, rfl⟩
  lose := fun _ h => ⟨h.durable, rfl⟩
  reopen := fun _ h => ⟨h.durable, rfl⟩
  serve := fun call s h => by
    cases call with
    | transaction => exact ⟨h.durable, h.pending⟩
    | commit => exact ⟨by rw [serve, h.pending, List.append_nil, h.durable], rfl⟩
    | rollback => exact ⟨h.durable, rfl⟩
  notice := fun noticed s _ h => by
    cases noticed <;> exact ⟨h.durable, h.pending⟩

/-- A session that is not up is drained, when it is coherent. -/
theorem Coherent.drained {s : Session} (hs : s.Coherent) (hup : ¬ s.Up) : s.Drained s.durable := by
  refine ⟨rfl, hs.gone ?_⟩
  by_contra hconnected
  refine hup ⟨?_, by simpa using hconnected⟩
  by_contra hopen
  exact hconnected (hs.closed (by simpa using hopen))

/-- **A COMMIT that fails leaves nothing to commit.** -/
theorem drained_call_commit {o : DriverOutcome} {s : Session} (hup : s.Up)
    (ho : o.succeeds = false) :
    (s.call .commit o).1 = false ∧ (s.call .commit o).2.Drained s.durable := by
  rcases request_cases (serve .commit) (refuse .commit) o s with
    ⟨-, -, hok⟩ | ⟨h, -⟩ | ⟨-, hdown, -⟩ | ⟨h, -, hlose⟩
  · simp [ho] at hok
  · -- the server refuses, and ends the transaction
    rw [call, h]
    exact ⟨rfl, ⟨rfl, rfl⟩⟩
  · exact absurd hup hdown
  · exact ⟨h, hlose _ (stable_drained s.durable) ⟨rfl, rfl⟩⟩

/-! ### Executions -/

theorem later_execStatement_of_failed {id : Nat} {o : DriverOutcome} {s : Session}
    (h : (s.execStatement id o).1 = false) : s.Later (s.execStatement id o).2 := by
  rcases request_cases (store id) (fun s => s) o s with
    ⟨hreq, -⟩ | ⟨hreq, -⟩ | ⟨-, -, hlater⟩ | ⟨-, -, hlater⟩
  · simp [execStatement, hreq] at h
  · rw [execStatement, hreq]
    exact .refl s
  · exact hlater _ (stable_later s) (.refl s)
  · exact hlater _ (stable_later s) ((stable_later s).lose s (.refl s))

theorem execStatement_of_succeeded {id : Nat} {o : DriverOutcome} {s : Session}
    (h : (s.execStatement id o).1 = true) : (s.execStatement id o).2 = s.store id ∧ s.Up := by
  rcases request_cases (store id) (fun s => s) o s with
    ⟨hreq, hup, -⟩ | ⟨hreq, -⟩ | ⟨hreq, -⟩ | ⟨hreq, -⟩
  · rw [execStatement, hreq]
    exact ⟨rfl, hup⟩
  · simp [execStatement, hreq] at h
  · exact absurd (h.symm.trans hreq) (by simp)
  · exact absurd (h.symm.trans hreq) (by simp)

/-- **Specification of `exec`**: a statement is stored once, in a session that
is later than the one before the call, or not at all. -/
theorem exec_spec (id : Nat) (env : CallEnv) (s : Session) :
    (∃ t, s.Later t ∧ ∃ ending, ending ≠ .returned ∧ s.exec id env = (ending, t)) ∨
    ∃ t, s.Later t ∧ t.Up ∧ s.exec id env = (.returned, t.store id) := by
  rw [exec]
  split
  · exact .inl ⟨s, .refl s, .exited, by simp, rfl⟩
  · next t hcheck =>
      have ht := (stable_later s).checkDbIsAlive (.refl s) hcheck
      cases h1 : (t.execStatement id env.call1).1 with
      | true =>
          obtain ⟨hstore, hup⟩ := execStatement_of_succeeded h1
          refine .inr ⟨t, ht, hup, ?_⟩
          simp only [h1, if_true, hstore]
      | false =>
          have hfirst := ht.trans (later_execStatement_of_failed h1)
          simp only [h1, Bool.false_eq_true, if_false]
          -- the second execution comes after a second check only
          split_ifs with hopen
          · exact .inl ⟨_, hfirst, .threw, by simp, rfl⟩
          · split
            · exact .inl ⟨_, hfirst, .exited, by simp, rfl⟩
            · next u hcheck2 =>
                have hu := (stable_later s).checkDbIsAlive hfirst hcheck2
                cases h2 : (u.execStatement id env.call2).1 with
                | true =>
                    obtain ⟨hstore, hup⟩ := execStatement_of_succeeded h2
                    refine .inr ⟨u, hu, hup, ?_⟩
                    simp only [if_true, hstore]
                | false =>
                    refine .inl ⟨_, hu.trans (later_execStatement_of_failed h2), .threw,
                      by simp, ?_⟩
                    simp only [Bool.false_eq_true, if_false]

theorem work_store (id : Nat) (s : Session) : (s.store id).work = id ::ₘ s.work := by
  rw [store]
  split_ifs
  · simp only [work, ← Multiset.coe_add, ← Multiset.singleton_add]
    rw [← Multiset.coe_singleton]
    abel
  · simp only [work, ← Multiset.coe_add, ← Multiset.singleton_add]
    rw [← Multiset.coe_singleton]
    abel

theorem mem_work {s : Session} {i : Nat} :
    i ∈ s.work ↔ i ∈ s.durable ∨ i ∈ s.pending ∨ i ∈ s.discarded := by
  simp [work]

/-- `n` executions have taken place, and each is in exactly one place. -/
structure Accounted (s : Session) (n : Nat) : Prop where
  work : s.work = Multiset.range n
  coherent : s.Coherent

theorem Accounted.later {s t : Session} {n : Nat} (h : s.Accounted n) (hlater : s.Later t) :
    t.Accounted n :=
  ⟨hlater.work.trans h.work, hlater.coherent h.coherent⟩

theorem Up.coherent {s : Session} (h : s.Up) : s.Coherent :=
  ⟨fun hopen => by simp [h.isOpen] at hopen, fun hgone => by simp [h.connected] at hgone⟩

theorem Up.store {s : Session} (h : s.Up) (id : Nat) : (s.store id).Up := by
  rw [Session.store]
  split_ifs <;> exact ⟨h.isOpen, h.connected⟩

theorem Accounted.store {s : Session} {n : Nat} (h : s.Accounted n) (hup : s.Up) :
    (s.store n).Accounted (n + 1) :=
  ⟨by rw [work_store, h.work, Multiset.range_succ], (hup.store n).coherent⟩

/-- An execution that took place is durable, pending or discarded. -/
theorem Accounted.mem_iff {s : Session} {n : Nat} (h : s.Accounted n) {i : Nat} :
    i < n ↔ i ∈ s.durable ∨ i ∈ s.pending ∨ i ∈ s.discarded := by
  rw [← mem_work, h.work, Multiset.mem_range]

theorem Accounted.nodup {s : Session} {n : Nat} (h : s.Accounted n) :
    (s.durable ++ s.pending ++ s.discarded).Nodup := by
  have hnodup : s.work.Nodup := h.work ▸ Multiset.nodup_range n
  simpa only [Session.work, Multiset.coe_add, Multiset.coe_nodup] using hnodup

/-- What is durable is not pending, and what is discarded is neither. -/
theorem Accounted.not_mem_pending {s : Session} {n i : Nat} (h : s.Accounted n)
    (hi : i ∈ s.durable) : i ∉ s.pending :=
  List.disjoint_left.mp (List.nodup_append'.mp (List.nodup_append'.mp h.nodup).1).2.2 hi

theorem Accounted.not_mem_discarded {s : Session} {n i : Nat} (h : s.Accounted n)
    (hi : i ∈ s.durable ++ s.pending) : i ∉ s.discarded :=
  List.disjoint_left.mp (List.nodup_append'.mp h.nodup).2.2 hi

/-! ### When all goes well -/

theorem Up.checkDbIsAlive {s : Session} (h : s.Up) (onMainThread : Bool) (opens : List Bool) :
    s.checkDbIsAlive onMainThread opens = some s :=
  if_pos h.isOpen

theorem Up.serve {s : Session} (h : s.Up) (d : DriverCall) : (serve d s).Up := by
  cases d <;> exact ⟨h.isOpen, h.connected⟩

theorem inTransaction_store (id : Nat) (s : Session) :
    (s.store id).inTransaction = s.inTransaction := by
  rw [store]
  split_ifs <;> rfl

theorem Up.call {s : Session} (h : s.Up) (d : DriverCall) {o : DriverOutcome}
    (ho : o.succeeds = true) : s.call d o = (true, Session.serve d s) := by
  obtain ⟨hlost, haccepted⟩ : o.lost = false ∧ o.accepted = true := by
    simpa [DriverOutcome.succeeds] using ho
  simp [Session.call, request, h.isOpen, h.connected, hlost, haccepted]

theorem Up.attempt {s : Session} (h : s.Up) (d : DriverCall) (needed : Bool) {env : CallEnv}
    (henv : env.call1.succeeds = true) :
    s.attempt d needed env
      = (.returned, if needed then Session.serve d s else s, if needed then [d] else []) := by
  cases needed with
  | false => rfl
  | true =>
      have hcall := h.call d henv
      rw [attempt_of_accepted (by rw [hcall]), hcall]
      rfl

theorem Up.exec {s : Session} (h : s.Up) (id : Nat) {env : CallEnv}
    (henv : env.call1.lost = false) :
    s.exec id env = if env.call1.accepted then (.returned, s.store id) else (.threw, s) := by
  have hreq : s.execStatement id env.call1
      = if env.call1.accepted then (true, s.store id) else (false, s) := by
    simp [execStatement, request, h.isOpen, h.connected, henv]
  cases hok : env.call1.accepted <;> simp [Session.exec, h.checkDbIsAlive, hreq, hok, h.isOpen]

end Session

end Sqlate
