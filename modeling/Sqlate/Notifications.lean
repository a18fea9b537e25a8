/-
Sqlate/Notifications.lean

What the monitors of a program hear of.

The monitors on a connection share the subscriptions of its driver, which are
not counted.  `Notified` says that the driver is subscribed to everything that
a monitor lists.  Constructing and destroying monitors, adding to them and
reconnecting keep it; unsubscribing the values of one monitor keeps it exactly
when no other list mentions any of them (`notified_unsubscribe_iff`,
`notified_run_iff`).
-/
import Sqlate.ProcessSteps

namespace Sqlate.Process

/-- The drivers are subscribed to what the monitors list. -/
def Notified (w : Process) : Prop :=
  ∀ m mon, w.monitor m = some mon →
    mon.tables ++ mon.monitoredValues ⊆ w.subscribed mon.connectionName

/-- The same of a thread that may not be running any more. -/
def NotifiedState (s : Except Stop Process) : Prop := ∀ w, s = .ok w → w.Notified

theorem notified_start : start.Notified := fun m mon h => by cases h

theorem Notified.of_refreshed {w w' : Process} (hw : w.Orderly) (hnotified : w.Notified)
    (h : Refreshed w w') : w'.Notified := by
  intro m mon hmon
  rw [h.monitor] at hmon
  rcases h.subscribed mon.connectionName with hkept | hagain
  · exact fun n hn => hkept (hnotified m mon hmon hn)
  · exact hagain m ((hw.monitors m).mpr (by rw [hmon]; rfl)) mon hmon rfl

theorem Notified.of_listens {w w' : Process} (hnotified : w.Notified) {m : Nat}
    {mon mon' : SqlMonitor} (hm : w.monitor m = some mon) (h : Listens m mon mon' w w') :
    w'.Notified := by
  intro k mon'' hk n hn
  rw [h.monitor] at hk
  by_cases hkm : k = m
  · subst hkm
    rw [Function.update_self] at hk
    obtain rfl := Option.some.inj hk
    rw [h.connectionName]
    rcases h.added n hn with hold | hnew
    · exact h.subset _ (hnotified k mon hm hold)
    · exact hnew
  · rw [Function.update_of_ne hkm] at hk
    exact h.subset _ (hnotified k mon'' hk hn)

/-! ### Unsubscribing -/

/-- No other list, of this monitor or of another one on the connection,
mentions a value of monitor `m`. -/
def ValuesUnshared (w : Process) (m : Nat) : Prop :=
  ∀ mon, w.monitor m = some mon → ∀ n ∈ mon.monitoredValues,
    n ∉ mon.tables ∧ ∀ m' mon', m' ≠ m → w.monitor m' = some mon' →
      mon'.connectionName = mon.connectionName → n ∉ mon'.tables ++ mon'.monitoredValues

theorem notified_unsubscribe_iff {w : Process} (hnotified : w.Notified) {m : Nat}
    {mon : SqlMonitor} (hm : w.monitor m = some mon) :
    (w.unsubscribeValuesNotifications m mon).Notified ↔ w.ValuesUnshared m := by
  rw [unsubscribeValuesNotifications_eq]
  -- what is left of the subscriptions on the connection
  have hmem : ∀ c n, n ∈ Function.update w.subscribed mon.connectionName
        ((w.subscribed mon.connectionName).filter (· ∉ mon.monitoredValues)) c ↔
      n ∈ w.subscribed c ∧ (c = mon.connectionName → n ∉ mon.monitoredValues) := by
    intro c n
    by_cases hc : c = mon.connectionName
    · subst hc
      simp
    · simp [hc]
  constructor
  · intro h mon₀ hmon₀ n hn
    rw [hm] at hmon₀
    obtain rfl := Option.some.inj hmon₀
    refine ⟨fun htable => ?_, fun m' mon' hne hm' hc hlisted => ?_⟩
    · have hsub := h m _ (Function.update_self m _ w.monitor) (List.mem_append_left _ htable)
      exact ((hmem _ _).mp hsub).2 rfl hn
    · have hm'' : Function.update w.monitor m (some { mon with monitoredValues := [] }) m'
          = some mon' := by
        rw [Function.update_of_ne hne, hm']
      exact ((hmem _ _).mp (h m' mon' hm'' hlisted)).2 hc hn
  · intro h k mon' hk n hn
    refine (hmem _ _).mpr ?_
    change Function.update w.monitor m _ k = some mon' at hk
    by_cases hkm : k = m
    · subst hkm
      rw [Function.update_self] at hk
      obtain rfl := Option.some.inj hk
      have htable : n ∈ mon.tables := by simpa using hn
      exact ⟨hnotified k mon hm (List.mem_append_left _ htable),
        fun _ hvalue => (h mon hm n hvalue).1 htable⟩
    · rw [Function.update_of_ne hkm] at hk
      exact ⟨hnotified k mon' hk hn,
        fun hc hvalue => (h mon hm n hvalue).2 k mon' hkm hk hc hn⟩

/-! ### Runs -/

section
variable [CaseFolding] [HashFunction] [SqlDriver]

/-- An operation that unsubscribes takes nothing away from another list. -/
def UnsubscribesOwn (w : Process) : Event → Prop
  | .unsubscribeValuesNotifications m => w.ValuesUnshared m
  | _ => True

theorem notified_step_iff {w w' : Process} (hw : w.Orderly) (hnotified : w.Notified) {e : Event}
    (h : w.step e = .ok w') : w'.Notified ↔ w.UnsubscribesOwn e := by
  cases he : e.onMonitor with
  | false =>
      refine iff_of_true (hnotified.of_refreshed hw (refreshed_step hw he h)) ?_
      cases e <;> trivial
  | true =>
      cases monitorEffect_step hw he h with
      | nothing hnone =>
          refine iff_of_true hnotified ?_
          cases e with
          | unsubscribeValuesNotifications m =>
              intro mon hmon
              rw [hnone m rfl] at hmon
              cases hmon
          | _ => trivial
      | @newMonitor m c hm =>
          refine iff_of_true (fun k mon hk => ?_) trivial
          change Function.update w.monitor m _ k = some mon at hk
          by_cases hkm : k = m
          · subst hkm
            rw [Function.update_self] at hk
            obtain rfl := Option.some.inj hk
            exact List.nil_subset _
          · rw [Function.update_of_ne hkm] at hk
            exact hnotified k mon hk
      | setMonitorTables hm hlistens =>
          exact iff_of_true (hnotified.of_listens hm hlistens) trivial
      | addValueMonitor hm hlistens =>
          exact iff_of_true (hnotified.of_listens hm hlistens) trivial
      | unsubscribeValuesNotifications hm => exact notified_unsubscribe_iff hnotified hm
      | @destroyMonitor m =>
          refine iff_of_true (fun k mon hk => ?_) trivial
          change Function.update w.monitor m none k = some mon at hk
          by_cases hkm : k = m
          · subst hkm
            rw [Function.update_self] at hk
            cases hk
          · rw [Function.update_of_ne hkm] at hk
            exact hnotified k mon hk

/-- Unsubscribing always comes back. -/
theorem unsubscribesOwn_of_error {w : Process} {e : Event} {x : Stop} (h : w.step e = .error x) :
    w.UnsubscribesOwn e := by
  cases e with
  | unsubscribeValuesNotifications m =>
      simp only [step] at h
      split at h <;> cases h
  | _ => trivial

/-- **The drivers are subscribed to everything that the monitors list, in every
state of a run, if and only if no monitor unsubscribes from a value that
another list mentions.** -/
theorem notified_run_iff (es : List Event) :
    Runs.Along next (fun s e => NotifiedState (next s e)) (.ok start) es ↔
      Runs.Along next (fun s e => ∀ w, s = .ok w → w.UnsubscribesOwn e) (.ok start) es := by
  refine Runs.along_iff_of_kept (A := fun _ _ => True)
    (I := fun s => ∀ w, s = .ok w → w.Orderly) (J := NotifiedState) ?_ ?_ ?_ ?_
    (Runs.along_true _ es)
  · intro s e hs _ w' hw'
    cases s with
    | error x => cases hw'
    | ok w => exact orderly_step (hs w rfl) hw'
  · intro s e hs _ hnotified
    cases s with
    | error x =>
        constructor
        · intro _ w hw
          cases hw
        · intro _ w hw
          cases hw
    | ok w =>
        show (∀ w', w.step e = .ok w' → w'.Notified) ↔ _
        cases hstep : w.step e with
        | error x =>
            refine iff_of_true (fun w' hw' => by cases hw') ?_
            rintro _ ⟨⟩
            exact unsubscribesOwn_of_error hstep
        | ok w' =>
            have hiff := notified_step_iff (hs w rfl) (hnotified w rfl) hstep
            constructor
            · rintro h _ ⟨⟩
              exact hiff.mp (h w' rfl)
            · rintro h _ ⟨⟩
              exact hiff.mpr (h w rfl)
  · rintro _ ⟨⟩
    exact orderly_start
  · rintro _ ⟨⟩
    exact notified_start

end

/-! ### Two monitors of one row -/

/-- Two monitors watch the same value of a column, and one of them stops. -/
def stoppedWatching : List Event :=
  [.newMonitor 0 (latin1 "db"), .newMonitor 1 (latin1 "db"),
   .addValueMonitor 0 (latin1 "person") (latin1 "id") (latin1 "7"),
   .addValueMonitor 1 (latin1 "person") (latin1 "id") (latin1 "7"),
   .unsubscribeValuesNotifications 0]

theorem not_notified_stoppedWatching :
    let _ : CaseFolding := .ascii
    let _ : HashFunction := ⟨fun _ => 0x6f3a1⟩
    let _ : SqlDriver := ⟨fun _ => [], fun _ => true⟩
    ¬ Runs.Along next (fun s e => NotifiedState (next s e)) (.ok start) stoppedWatching := by
  intro _ _ _ h
  have hlast : ((Runs.run next (.ok start) stoppedWatching).toOption.map fun w =>
      (w.monitor 1, w.subscribed (latin1 "db")))
        = some (some ⟨latin1 "db", [], [latin1 "7_6f3a1"]⟩, []) := by
    decide +kernel
  obtain ⟨w, hw, hmembers⟩ := Option.map_eq_some_iff.mp hlast
  obtain ⟨hmonitor, hsubscribed⟩ := Prod.mk.inj hmembers
  cases hrun : Runs.run next (.ok start) stoppedWatching with
  | error x =>
      rw [hrun] at hw
      cases hw
  | ok v =>
      rw [hrun] at hw
      obtain rfl := Option.some.inj hw
      have hsub := h.2.2.2.2.1 v hrun 1 _ hmonitor (List.mem_singleton_self _)
      rw [hsubscribed] at hsub
      cases hsub

end Sqlate.Process
