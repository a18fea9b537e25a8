/-
Sqlate/CommitDurability.lean

What a successful `commit()` of the last transaction object promises.

The *nest* of a connection are the statements executed since the outermost
object was constructed.  A `commit()` that returns says nothing about
statements that the server has thrown away earlier, in a session that was lost
and reopened, or in a COMMIT that failed; and its own second attempt succeeds
on a session that has no transaction any more.  So the nest is durable exactly
when nothing of it was discarded before and, if any of it is still pending,
the first COMMIT reaches the session and is accepted (`nestDurable_iff`).
-/
import Sqlate.TransactionCounts

namespace Sqlate

/-- A connection with the number of statements executed before the outermost
object was constructed. -/
structure NestHistory where
  connection : Connection
  nestStart : Nat

namespace NestHistory

def new : NestHistory := ⟨.new, 0⟩

def step (h : NestHistory) (e : TransactionEvent) : NestHistory where
  connection := h.connection.step e
  nestStart := match e with
    | .construct _ _ =>
        if h.connection.armed = ∅ then h.connection.executed else h.nestStart
    | _ => h.nestStart

/-- The event is a `commit()` of the last open object, and it returns. -/
def LastCommitReturns (h : NestHistory) (e : TransactionEvent) : Prop :=
  ∃ id env, e = .commit id env ∧ h.connection.armed = {id} ∧
    (h.connection.happen e).ending = .returned

/-- If so, all statements of the nest are in the committed database state. -/
def NestDurable (h : NestHistory) (e : TransactionEvent) : Prop :=
  h.LastCommitReturns e → ∀ i, h.nestStart ≤ i → i < h.connection.executed →
    i ∈ (h.step e).connection.session.durable

/-- The first COMMIT of the call is sent, reaches the session and is
accepted. -/
def FirstCommitSucceeds (h : NestHistory) (e : TransactionEvent) : Prop :=
  h.connection.value = 1 ∧ h.connection.session.Up ∧
    ∀ id env, e = .commit id env → env.call1.succeeds = true

/-- Nothing of the nest has been discarded, and what is pending of it is
committed by the first COMMIT. -/
def NestIntact (h : NestHistory) (e : TransactionEvent) : Prop :=
  h.LastCommitReturns e →
    (∀ i, h.nestStart ≤ i → i ∉ h.connection.session.discarded) ∧
    ((∀ i, h.nestStart ≤ i → i ∉ h.connection.session.pending) ∨ h.FirstCommitSucceeds e)

end NestHistory

/-! ### One commit -/

namespace Connection

variable {c : Connection} {id : Nat} {env : CallEnv}

/-- A COMMIT that reaches the session at once commits what is pending. -/
theorem durable_commit_of_up (hvalue : c.value = 1) (hup : c.session.Up)
    (henv : env.call1.succeeds = true) :
    (c.commit id env).connection.session.durable = c.session.durable ++ c.session.pending := by
  simp [commit_of_up hup id henv, hvalue, Session.serve]

/-- **No other COMMIT makes anything durable**: when the session is gone, or
the first COMMIT fails, there is nothing left for the second one. -/
theorem durable_commit_of_not (hc : c.Accounted)
    (h : ¬ (c.value = 1 ∧ c.session.Up ∧ env.call1.succeeds = true)) :
    (c.commit id env).connection.session.durable = c.session.durable := by
  have hstable := Session.stable_drained c.session.durable
  rw [commit]
  split
  · rfl
  · next t hcheck =>
      have hattempt : (t.attempt .commit (c.value = 1) env).2.1.durable = c.session.durable := by
        by_cases hup : c.session.Up
        · -- the first COMMIT is refused, lost, or not needed at all
          obtain rfl := Option.some.inj ((hup.checkDbIsAlive _ _).symm.trans hcheck)
          by_cases hvalue : c.value = 1
          · obtain ⟨hfails, hdrained⟩ := Session.drained_call_commit hup
              (Bool.eq_false_iff.mpr fun henv => h ⟨hvalue, hup, henv⟩)
            rw [decide_eq_true hvalue]
            exact (hstable.attempt_of_not_accepted hfails hdrained).durable
          · rw [decide_eq_false hvalue]
            rfl
        · -- a session that is gone had nothing pending to begin with
          have hdrained := hstable.checkDbIsAlive (hc.coherent.drained hup) hcheck
          exact (hstable.attempt .commit _ env hdrained).durable
      split
      · next s calls heq =>
          rw [heq] at hattempt
          exact hattempt
      · next ending s calls hended heq =>
          rw [heq] at hattempt
          exact hattempt

end Connection

namespace NestHistory

variable {h : NestHistory} {e : TransactionEvent}

/-- **One commit**: the nest is durable after the last `commit()` exactly when
it is intact before. -/
theorem nestDurable_step_iff (hc : h.connection.Accounted) : h.NestDurable e ↔ h.NestIntact e := by
  refine imp_congr_right fun hlast => ?_
  obtain ⟨id, env, rfl, harmed, -⟩ := hlast
  have hpossible : h.connection.possible (.commit id env) = true := by
    simp [Connection.possible, harmed]
  have hstep : (h.step (.commit id env)).connection = (h.connection.commit id env).connection := by
    show (h.connection.happen (.commit id env)).connection = _
    rw [Connection.happen_of_possible hpossible]
    rfl
  rw [hstep]
  by_cases hfirst : h.connection.value = 1 ∧ h.connection.session.Up ∧ env.call1.succeeds = true
  · rw [Connection.durable_commit_of_up hfirst.1 hfirst.2.1 hfirst.2.2]
    constructor
    · intro hdurable
      refine ⟨fun i hi hdiscarded => ?_, .inr ⟨hfirst.1, hfirst.2.1, ?_⟩⟩
      · -- what is discarded is never durable again
        have hlt := hc.mem_iff.mpr (.inr (.inr hdiscarded))
        exact hc.not_mem_discarded (hdurable i hi hlt) hdiscarded
      · rintro id' env' ⟨⟩
        exact hfirst.2.2
    · rintro ⟨hdiscarded, -⟩ i hi hlt
      rcases hc.mem_iff.mp hlt with hd | hp | hx
      · exact List.mem_append_left _ hd
      · exact List.mem_append_right _ hp
      · exact absurd hx (hdiscarded i hi)
  · rw [Connection.durable_commit_of_not hc hfirst]
    constructor
    · intro hdurable
      refine ⟨fun i hi hdiscarded => ?_, .inl fun i hi hpending => ?_⟩
      · have hlt := hc.mem_iff.mpr (.inr (.inr hdiscarded))
        exact hc.not_mem_discarded (List.mem_append_left _ (hdurable i hi hlt)) hdiscarded
      · have hlt := hc.mem_iff.mpr (.inr (.inl hpending))
        exact hc.not_mem_pending (hdurable i hi hlt) hpending
    · rintro ⟨hdiscarded, hpending⟩ i hi hlt
      rcases hc.mem_iff.mp hlt with hd | hp | hx
      · exact hd
      · rcases hpending with hpending | ⟨hvalue, hup, henv⟩
        · exact absurd hp (hpending i hi)
        · exact absurd ⟨hvalue, hup, henv id env rfl⟩ hfirst
      · exact absurd hx (hdiscarded i hi)

/-- **The promise of a commit**: over every run with any losses of the session
and any failures, each `commit()` of the last object that returns makes the
whole nest durable exactly when, at each of these calls, the nest is intact. -/
theorem nestDurable_iff (es : List TransactionEvent) :
    Runs.Along step NestDurable new es ↔ Runs.Along step NestIntact new es :=
  Runs.along_congr (I := fun h : NestHistory => h.connection.Accounted)
    (fun _ e hc => Connection.accounted_step e hc) (fun _ _ hc => nestDurable_step_iff hc)
    Connection.accounted_new es

/-- The server refuses the first COMMIT, and accepts the second one, outside of
any transaction. -/
def refusedCommitEvents : List TransactionEvent :=
  [.construct 0 .success, .exec .success,
   .commit 0 ⟨false, [], .refusal, [], .success⟩]

/-- **A commit that returns and has committed nothing.** -/
theorem not_nestDurable_refusedCommitEvents :
    ¬ Runs.Along step NestDurable new refusedCommitEvents := by
  intro halong
  have hdurable := halong.2.2.1 ⟨0, _, rfl, by decide, by decide⟩ 0 (by decide) (by decide)
  exact absurd hdurable (by decide)

/-- So has a commit after the session was lost and reopened. -/
example : ¬ Runs.Along step NestDurable new
    [.construct 0 .success, .exec .success, .lose,
     .commit 0 ⟨false, [], ⟨false, false, true⟩, [true], .success⟩] := by
  intro halong
  have hdurable := halong.2.2.2.1 ⟨0, _, rfl, by decide, by decide⟩ 0 (by decide) (by decide)
  exact absurd hdurable (by decide)

end NestHistory

end Sqlate
