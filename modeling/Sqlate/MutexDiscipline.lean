/-
Sqlate/MutexDiscipline.lean

When a program waits for a mutex that it holds itself.

Only `checkDbIsAlive` calls anything while it holds a mutex, and only the
destructors of the cached queries try to acquire one there.  So an operation
blocks exactly when one of the checks it makes (`Event.checks`) reconnects
while there is an entry in the query cache, of whatever connection
(`Check.Deadlocks`); `blocks_iff` says so of a step and `never_blocks_iff` of
a run.  A check that follows a pointer to no object comes to nothing before
that.
-/
import Sqlate.ProcessSteps

namespace Sqlate.Process

/-- A reconnection off the main thread, with an entry in the cache. -/
structure Check.Deadlocks (k : Check) : Prop where
  closed : (k.state.session k.connectionName).isOpen = false
  offMainThread : k.onMainThread = false
  opened : true ∈ k.opens.take 10
  cached : k.state.cached ≠ []
  alive : ∀ a ∈ k.state.queries, (k.state.query a).isSome = true

section
variable [SqlDriver]

theorem Check.blocks_iff {k : Check} (hk : k.state.Orderly) :
    (∃ m, k.run = .error (.blocked m)) ↔ k.Deadlocks := by
  rw [Check.run]
  constructor
  · rintro ⟨m, hm⟩
    rcases checkDbIsAlive_cases hk k.connectionName k.onMainThread k.opens with
      ⟨a, -, -, hr⟩ | ⟨hlive, ⟨-, hr⟩ | ⟨-, -, hr⟩ | ⟨-, -, -, hr⟩ |
        ⟨hclosed, hthread, hopens, hcached, -⟩ | ⟨-, -, -, -, v, hr, -⟩⟩
    · rw [hr] at hm
      cases hm
    · rw [hr] at hm
      cases hm
    · rw [hr] at hm
      cases hm
    · rw [hr] at hm
      cases hm
    · exact ⟨hclosed, hthread, hopens, hcached, hlive⟩
    · rw [hr] at hm
      cases hm
  · intro h
    refine ⟨.queryMutex, ?_⟩
    rcases checkDbIsAlive_cases hk k.connectionName k.onMainThread k.opens with
      ⟨a, ha, hdead, -⟩ | ⟨-, ⟨hopen, -⟩ | ⟨-, hthread, -⟩ | ⟨-, -, hopens, -⟩ |
        ⟨-, -, -, -, hr⟩ | ⟨-, -, -, hcached, -⟩⟩
    · have halive := h.alive a ha
      rw [hdead] at halive
      cases halive
    · rw [h.closed] at hopen
      cases hopen
    · rw [h.offMainThread] at hthread
      cases hthread
    · exact absurd h.opened hopens
    · exact hr
    · exact absurd hcached h.cached

end

section
variable [CaseFolding] [HashFunction] [SqlDriver]

/-- An operation blocks exactly when one of its checks does. -/
theorem blocks_iff {w : Process} (hw : w.Orderly) (e : Event) :
    (∃ m, w.step e = .error (.blocked m)) ↔ ∃ k ∈ e.checks w, k.Deadlocks := by
  constructor
  · rintro ⟨m, hm⟩
    obtain ⟨k, hk, hrun⟩ := (step_eq_error_iff hw e _).mp hm
    exact ⟨k, hk, (Check.blocks_iff (orderly_checks hw e k hk)).mp ⟨m, hrun⟩⟩
  · rintro ⟨k, hk, hdead⟩
    obtain ⟨m, hrun⟩ := (Check.blocks_iff (orderly_checks hw e k hk)).mpr hdead
    exact ⟨m, (step_eq_error_iff hw e _).mpr ⟨k, hk, hrun⟩⟩

/-- **No operation of a program waits for a mutex that the thread holds, if and
only if no check reconnects while there is a cached query.** -/
theorem never_blocks_iff (es : List Event) :
    Runs.Along next (fun s e => ∀ w, s = .ok w → ∀ m, w.step e ≠ .error (.blocked m))
        (.ok start) es ↔
      Runs.Along next (fun s e => ∀ w, s = .ok w → ∀ k ∈ e.checks w, ¬ k.Deadlocks)
        (.ok start) es := by
  refine Runs.along_congr (I := fun s => ∀ w, s = .ok w → w.Orderly) ?_ ?_ ?_ es
  · intro s e hs w' hw'
    cases s with
    | error x => cases hw'
    | ok w => exact orderly_step (hs w rfl) hw'
  · intro s e hs
    refine forall_congr' fun w => forall_congr' fun hw => ?_
    have hiff := not_congr (blocks_iff (hs w hw) e)
    simpa only [not_exists, not_and] using hiff
  · intro w hw
    obtain rfl := Except.ok.inj hw
    exact orderly_start

end

/-! ### A cached query and a lost connection -/

/-- A prepared query is cached, and the connection is lost. -/
def lostWithCachedQuery : List Event :=
  [.newQuery 0 (latin1 "db"), .insertCached 1 (latin1 "db") (latin1 "SELECT 1") 0,
   .loseConnection (latin1 "db"), .checkDbIsAlive (latin1 "db") false [true]]

theorem not_never_blocks_lostWithCachedQuery :
    let _ : CaseFolding := .ascii
    let _ : HashFunction := ⟨fun _ => 0⟩
    let _ : SqlDriver := ⟨fun _ => [], fun _ => true⟩
    ¬ Runs.Along next (fun s e => ∀ w, s = .ok w → ∀ m, w.step e ≠ .error (.blocked m))
        (.ok start) lostWithCachedQuery := by
  intro _ _ _ h
  exact h.2.2.2.1 _ rfl .queryMutex rfl

end Sqlate.Process
