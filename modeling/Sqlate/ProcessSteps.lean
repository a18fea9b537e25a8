/-
Sqlate/ProcessSteps.lean

What the steps of a program keep.

The operations on query objects leave the monitors alone, up to the
reconnections inside of them (`Refreshed`, `refreshed_step`), and those on
monitors leave the query objects alone.  In particular no mutex is held and
the list of monitors is right between any two operations
(`orderly_step`, `orderly_of_run`).
-/
import Sqlate.Reconnect

namespace Sqlate.Process

/-- The operations on monitors. -/
def Event.onMonitor : Event → Bool
  | .newMonitor .. | .setMonitorTables .. | .addValueMonitor ..
  | .unsubscribeValuesNotifications .. | .destroyMonitor .. => true
  | _ => false

/-- The monitors are as before, and their drivers too, unless they have been
subscribed again. -/
structure Refreshed (w w' : Process) : Prop where
  held : w'.held = w.held
  monitor : w'.monitor = w.monitor
  monitors : w'.monitors = w.monitors
  subscribed : ∀ c, w.subscribed c ⊆ w'.subscribed c ∨
    ∀ m ∈ w.monitors, ∀ mon, w.monitor m = some mon → mon.connectionName = c →
      mon.tables ++ mon.monitoredValues ⊆ w'.subscribed c

theorem Refreshed.refl (w : Process) : Refreshed w w :=
  ⟨rfl, rfl, rfl, fun _ => .inl fun _ h => h⟩

theorem Refreshed.trans {u v w : Process} (h : Refreshed u v) (h' : Refreshed v w) :
    Refreshed u w where
  held := h'.held.trans h.held
  monitor := h'.monitor.trans h.monitor
  monitors := h'.monitors.trans h.monitors
  subscribed := by
    intro c
    rcases h'.subscribed c with hlast | hlast
    · rcases h.subscribed c with hfirst | hfirst
      · exact .inl fun _ hn => hlast (hfirst hn)
      · exact .inr fun m hm mon hmon hc _ hn => hlast (hfirst m hm mon hmon hc hn)
    · refine .inr fun m hm mon hmon hc => hlast m ?_ mon ?_ hc
      · rw [h.monitors]
        exact hm
      · rw [h.monitor]
        exact hmon

/-- A change that has nothing to do with monitors. -/
theorem Refreshed.of_eq {w w' : Process} (held : w'.held = w.held)
    (monitor : w'.monitor = w.monitor) (monitors : w'.monitors = w.monitors)
    (subscribed : w'.subscribed = w.subscribed) : Refreshed w w' :=
  ⟨held, monitor, monitors, fun c => .inl (by rw [subscribed]; exact fun _ h => h)⟩

theorem Reconnected.refreshed {c : QString} {w w' : Process} (h : Reconnected c w w') :
    Refreshed w w' where
  held := h.held
  monitor := h.monitor
  monitors := h.monitors
  subscribed := by
    intro c'
    by_cases hc : c' = c
    · subst hc
      exact .inr h.resubscribed
    · exact .inl (h.subscribed c' hc)

theorem Orderly.of_refreshed {w w' : Process} (hw : w.Orderly) (h : Refreshed w w') :
    w'.Orderly where
  free := h.held.trans hw.free
  monitors := by
    rw [h.monitor, h.monitors]
    exact hw.monitors

/-! ### Checks and requests -/

section
variable [SqlDriver]

/-- A check that comes back has done nothing or reconnected. -/
theorem checkDbIsAlive_eq_ok {w w' : Process} (hw : w.Orderly) {c : QString}
    {onMainThread : Bool} {opens : List Bool}
    (h : w.checkDbIsAlive c onMainThread opens = .ok w') : w' = w ∨ Reconnected c w w' := by
  rcases checkDbIsAlive_cases hw c onMainThread opens with
    ⟨a, -, -, hr⟩ | ⟨-, ⟨-, hr⟩ | ⟨-, -, hr⟩ | ⟨-, -, -, hr⟩ | ⟨-, -, -, -, hr⟩ |
      ⟨-, -, -, -, v, hr, hv⟩⟩
  · rw [hr] at h
    cases h
  · rw [hr] at h
    exact .inl (Except.ok.inj h).symm
  · rw [hr] at h
    cases h
  · rw [hr] at h
    exact .inl (Except.ok.inj h).symm
  · rw [hr] at h
    cases h
  · rw [hr] at h
    obtain rfl := Except.ok.inj h
    exact .inr hv

/-- What the checks and the requests of a call keep, the call keeps. -/
theorem checked_invariant {P : Process → Prop} {c : QString} {env : CallEnv}
    {first again : DriverOutcome → Process → Bool × Process}
    (hcheck : ∀ w w' onMainThread opens, P w →
      w.checkDbIsAlive c onMainThread opens = .ok w' → P w')
    (hfirst : ∀ o w, P w → P (first o w).2) (hagain : ∀ o w, P w → P (again o w).2)
    {w w' : Process} {returned : Bool} (hw : P w)
    (h : w.checked c env first again = .ok (returned, w')) : P w' := by
  rw [checked] at h
  cases hv : w.checkDbIsAlive c env.onMainThread env.opens1 with
  | error x =>
      rw [hv] at h
      cases h
  | ok v =>
      rw [hv] at h
      have hPv := hfirst env.call1 v (hcheck w v _ _ hw hv)
      change (if (first env.call1 v).1 = true then Except.ok (true, (first env.call1 v).2)
        else if ((first env.call1 v).2.session c).isOpen = true then
          Except.ok (false, (first env.call1 v).2)
        else (first env.call1 v).2.checkDbIsAlive c env.onMainThread env.opens2 >>= fun w =>
          Except.ok (again env.call2 w)) = _ at h
      split_ifs at h
      · obtain ⟨-, rfl⟩ := Prod.mk.inj (Except.ok.inj h)
        exact hPv
      · obtain ⟨-, rfl⟩ := Prod.mk.inj (Except.ok.inj h)
        exact hPv
      · cases hu : (first env.call1 v).2.checkDbIsAlive c env.onMainThread env.opens2 with
        | error x =>
            rw [hu] at h
            cases h
        | ok u =>
            rw [hu] at h
            have hPu := hagain env.call2 u (hcheck _ u _ _ hPv hu)
            rw [Except.ok.inj (show Except.ok (again env.call2 u) = .ok (returned, w') from h)] at hPu
            exact hPu

theorem refreshed_checked {c : QString} {env : CallEnv}
    {first again : DriverOutcome → Process → Bool × Process}
    (hfirst : ∀ o w, Refreshed w (first o w).2) (hagain : ∀ o w, Refreshed w (again o w).2)
    {w w' : Process} {returned : Bool} (hw : w.Orderly)
    (h : w.checked c env first again = .ok (returned, w')) : Refreshed w w' := by
  have hstart : w.Orderly ∧ Refreshed w w := ⟨hw, .refl w⟩
  refine (checked_invariant (P := fun v => v.Orderly ∧ Refreshed w v) ?_ ?_ ?_ hstart h).2
  · rintro v v' _ _ ⟨hv, hwv⟩ hcheck
    rcases checkDbIsAlive_eq_ok hv hcheck with rfl | hrec
    · exact ⟨hv, hwv⟩
    · exact ⟨hv.of_refreshed hrec.refreshed, hwv.trans hrec.refreshed⟩
  · rintro o v ⟨hv, hwv⟩
    exact ⟨hv.of_refreshed (hfirst o v), hwv.trans (hfirst o v)⟩
  · rintro o v ⟨hv, hwv⟩
    exact ⟨hv.of_refreshed (hagain o v), hwv.trans (hagain o v)⟩

omit [SqlDriver] in
theorem refreshed_request (c : QString) (id : Nat) (o : DriverOutcome) (w : Process) :
    Refreshed w (w.request c id o).2 :=
  .of_eq rfl rfl rfl rfl

omit [SqlDriver] in
theorem refreshed_requestPrepare (a : Nat) (q : SqlQuery) (text : QString) (o : DriverOutcome)
    (w : Process) : Refreshed w (w.requestPrepare a q text o).2 := by
  rw [requestPrepare]
  split_ifs
  · exact .of_eq rfl rfl rfl rfl
  · exact .refl w

theorem refreshed_exec {w w' : Process} (hw : w.Orderly) {q : SqlQuery} {id : Nat}
    {env : CallEnv} {returned : Bool} (h : w.exec q id env = .ok (returned, w')) :
    Refreshed w w' :=
  refreshed_checked (refreshed_request _ id) (refreshed_request _ id) hw h

theorem refreshed_execText {w w' : Process} (hw : w.Orderly) {a : Nat} {q : SqlQuery}
    {text : QString} {id : Nat} {env : CallEnv} {returned : Bool}
    (h : w.execText a q text id env = .ok (returned, w')) : Refreshed w w' :=
  refreshed_checked (fun _ _ => .of_eq rfl rfl rfl rfl) (refreshed_request _ id) hw h

theorem refreshed_prepare {w w' : Process} (hw : w.Orderly) {a : Nat} {q : SqlQuery}
    {text : QString} {env : CallEnv} {returned : Bool}
    (h : w.prepare a q text env = .ok (returned, w')) : Refreshed w w' :=
  refreshed_checked (refreshed_requestPrepare a q text) (refreshed_requestPrepare a q text) hw h

/-- The construction from a text is the construction, the execution, and the
end of the object when the execution throws. -/
theorem newQueryFromText_eq_ok {w w' : Process} (hw : w.Free) {a : Nat} {c text : QString}
    {id : Nat} {env : CallEnv} (h : w.newQueryFromText a c text id env = .ok w') :
    ∃ v, w.newQuery a c = .ok v ∧
      ((text = [] ∧ w' = v) ∨
        (text ≠ [] ∧ v.execText a ⟨c, w.resultCount⟩ text id env = .ok (true, w')) ∨
        (text ≠ [] ∧ ∃ u, v.execText a ⟨c, w.resultCount⟩ text id env = .ok (false, u) ∧
          w' = { u with query := Function.update u.query a none })) := by
  obtain ⟨v, hv⟩ : ∃ v, w.newQuery a c = .ok v := ⟨_, newQuery_eq hw a c⟩
  refine ⟨v, hv, ?_⟩
  rw [newQueryFromText, hv] at h
  change (if text.isEmpty = true then Except.ok v
    else v.execText a ⟨c, w.resultCount⟩ text id env >>= fun r =>
      if r.1 = true then Except.ok r.2
      else Except.ok { r.2 with query := Function.update r.2.query a none }) = _ at h
  split_ifs at h with htext
  · exact .inl ⟨List.isEmpty_iff.mp htext, (Except.ok.inj h).symm⟩
  · have hne : text ≠ [] := fun heq => htext (List.isEmpty_iff.mpr heq)
    cases hr : v.execText a ⟨c, w.resultCount⟩ text id env with
    | error x =>
        rw [hr] at h
        cases h
    | ok r =>
        rw [hr] at h
        change (if r.1 = true then Except.ok r.2 else Except.ok _) = _ at h
        obtain ⟨returned, u⟩ := r
        cases returned with
        | true =>
            obtain rfl := Except.ok.inj h
            exact .inr (.inl ⟨hne, rfl⟩)
        | false => exact .inr (.inr ⟨hne, u, rfl, (Except.ok.inj h).symm⟩)

theorem refreshed_newQueryFromText {w w' : Process} (hw : w.Orderly) {a : Nat} {c text : QString}
    {id : Nat} {env : CallEnv} (h : w.newQueryFromText a c text id env = .ok w') :
    Refreshed w w' := by
  obtain ⟨v, hv, hcases⟩ := newQueryFromText_eq_ok hw.free h
  have hwv : Refreshed w v := by
    rw [newQuery_eq hw.free] at hv
    obtain rfl := Except.ok.inj hv
    exact .of_eq rfl rfl rfl rfl
  have hvOrderly := hw.of_refreshed hwv
  rcases hcases with ⟨-, rfl⟩ | ⟨-, hexec⟩ | ⟨-, u, hexec, rfl⟩
  · exact hwv
  · exact hwv.trans (refreshed_execText hvOrderly hexec)
  · exact (hwv.trans (refreshed_execText hvOrderly hexec)).trans (.of_eq rfl rfl rfl rfl)

end

/-! ### Monitors -/

/-- Monitor `m`, which was `mon`, is now `mon'`; it is subscribed to what has
been added, and the drivers have lost nothing. -/
structure Listens (m : Nat) (mon mon' : SqlMonitor) (w w' : Process) : Prop where
  held : w'.held = w.held
  query : w'.query = w.query
  queries : w'.queries = w.queries
  cached : w'.cached = w.cached
  monitors : w'.monitors = w.monitors
  monitor : w'.monitor = Function.update w.monitor m (some mon')
  connectionName : mon'.connectionName = mon.connectionName
  subset : ∀ c, w.subscribed c ⊆ w'.subscribed c
  added : ∀ n ∈ mon'.tables ++ mon'.monitoredValues,
    n ∈ mon.tables ++ mon.monitoredValues ∨ n ∈ w'.subscribed mon.connectionName

theorem Listens.refl {m : Nat} {mon : SqlMonitor} {w : Process} (h : w.monitor m = some mon) :
    Listens m mon mon w w where
  held := rfl
  query := rfl
  queries := rfl
  cached := rfl
  monitors := rfl
  monitor := by rw [← h, Function.update_eq_self]
  connectionName := rfl
  subset := fun _ _ h => h
  added := fun _ h => .inl h

theorem Listens.trans {m : Nat} {mon mon' mon'' : SqlMonitor} {u v w : Process}
    (h : Listens m mon mon' u v) (h' : Listens m mon' mon'' v w) : Listens m mon mon'' u w where
  held := h'.held.trans h.held
  query := h'.query.trans h.query
  queries := h'.queries.trans h.queries
  cached := h'.cached.trans h.cached
  monitors := h'.monitors.trans h.monitors
  monitor := by rw [h'.monitor, h.monitor, Function.update_idem]
  connectionName := h'.connectionName.trans h.connectionName
  subset := fun c _ hn => h'.subset c (h.subset c hn)
  added := by
    intro n hn
    rcases h'.added n hn with hold | hnew
    · exact (h.added n hold).imp id (fun hsub => h'.subset _ hsub)
    · rw [h.connectionName] at hnew
      exact .inr hnew

/-- One notification is added to the members of a monitor and subscribed to. -/
theorem listens_subscribe (m : Nat) (mon mon' : SqlMonitor) (w : Process) (n : QString)
    (hconnection : mon'.connectionName = mon.connectionName)
    (hadded : ∀ n' ∈ mon'.tables ++ mon'.monitoredValues,
      n' ∈ mon.tables ++ mon.monitoredValues ∨ n' = n) :
    Listens m mon mon' w ((w.putMonitor m mon').subscribe mon' n) := by
  obtain ⟨hsub, hmem⟩ :=
    subscribes_subscribeToNotification (w.putMonitor m mon') mon'.connectionName n
  have heq : (w.putMonitor m mon').subscribe mon' n
      = (w.putMonitor m mon').subscribeToNotification mon'.connectionName n := by
    rw [subscribe, subscribeToNotification]
    split_ifs <;> rfl
  rw [heq]
  refine ⟨hsub.held, hsub.query, hsub.queries, hsub.cached, hsub.monitors, hsub.monitor,
    hconnection, hsub.subset, fun n' hn' => ?_⟩
  rcases hadded n' hn' with hold | rfl
  · exact .inl hold
  · rw [← hconnection]
    exact .inr hmem

theorem listens_setMonitorTable [CaseFolding] {m : Nat} {mon : SqlMonitor} {w : Process}
    (h : w.monitor m = some mon) (table : QString) :
    Listens m mon (setMonitorTable m (mon, w) table).1 w (setMonitorTable m (mon, w) table).2 := by
  rw [setMonitorTable]
  show Listens m mon (if _ then _ else _ : SqlMonitor × Process).1 w _
  split_ifs
  · exact .refl h
  · refine listens_subscribe m mon _ w _ rfl fun n' hn' => ?_
    simp only [List.mem_append, List.mem_singleton] at hn' ⊢
    tauto

theorem listens_setMonitorTables [CaseFolding] {m : Nat} {mon : SqlMonitor} {w : Process}
    (h : w.monitor m = some mon) (tables : List QString) :
    ∃ mon', Listens m mon mon' w (w.setMonitorTables m mon tables) := by
  rw [setMonitorTables]
  induction tables generalizing mon w with
  | nil => exact ⟨mon, .refl h⟩
  | cons table tables ih =>
      have hfirst := listens_setMonitorTable h table
      have hmonitor : (setMonitorTable m (mon, w) table).2.monitor m
          = some (setMonitorTable m (mon, w) table).1 := by
        rw [hfirst.monitor, Function.update_self]
      obtain ⟨mon', hrest⟩ := ih hmonitor
      exact ⟨mon', hfirst.trans hrest⟩

theorem listens_addValueMonitor [HashFunction] (m : Nat) (mon : SqlMonitor) (w : Process)
    (table column value : QString) :
    ∃ mon', Listens m mon mon' w (w.addValueMonitor m mon table column value) := by
  refine ⟨_, listens_subscribe m mon _ w _ rfl fun n' hn' => ?_⟩
  simp only [List.mem_append, List.mem_singleton] at hn' ⊢
  tauto

theorem unsubscribeValuesNotifications_eq (m : Nat) (mon : SqlMonitor) (w : Process) :
    w.unsubscribeValuesNotifications m mon =
      { w with
        subscribed := Function.update w.subscribed mon.connectionName
          ((w.subscribed mon.connectionName).filter (· ∉ mon.monitoredValues))
        monitor := Function.update w.monitor m (some { mon with monitoredValues := [] }) } := by
  rw [unsubscribeValuesNotifications, foldl_unsubscribeFromNotification]
  rfl

/-! ### The checks of an operation -/

/-- A call of `checkDbIsAlive` with the state it is made in. -/
structure Check where
  state : Process
  connectionName : QString
  onMainThread : Bool
  opens : List Bool

section
variable [SqlDriver]

def Check.run (k : Check) : Except Stop Process :=
  k.state.checkDbIsAlive k.connectionName k.onMainThread k.opens

/-- The checks of a call of `SqlQuery`. -/
def checksOf (c : QString) (env : CallEnv) (first : DriverOutcome → Process → Bool × Process)
    (w : Process) : List Check :=
  ⟨w, c, env.onMainThread, env.opens1⟩ ::
    match w.checkDbIsAlive c env.onMainThread env.opens1 with
    | .error _ => []
    | .ok w =>
        let r := first env.call1 w
        if r.1 then []
        else if (r.2.session c).isOpen then []
        else [⟨r.2, c, env.onMainThread, env.opens2⟩]

/-- The checks of an operation. -/
def Event.checks (w : Process) : Event → List Check
  | .newQueryFromText a c text id env =>
      if (w.query a).isSome ∨ text.isEmpty then []
      else
        match w.newQuery a c with
        | .error _ => []
        | .ok v =>
            checksOf c env
              (fun o u => (u.detach a ⟨c, w.resultCount⟩ text.trimmed).request c id o) v
  | .exec a id env =>
      match w.named a with
      | none => []
      | some q => checksOf q.connectionName env (request q.connectionName id) w
  | .execText a text id env =>
      match w.named a with
      | none => []
      | some q =>
          checksOf q.connectionName env
            (fun o u => (u.detach a q text.trimmed).request q.connectionName id o) w
  | .prepare a text env =>
      match w.named a with
      | none => []
      | some q => checksOf q.connectionName env (requestPrepare a q text) w
  | .checkDbIsAlive c onMainThread opens => [⟨w, c, onMainThread, opens⟩]
  | _ => []

/-- What the checks of a call keep and its first request keeps holds at each of
its checks. -/
theorem checksOf_invariant {P : Process → Prop} {c : QString} {env : CallEnv}
    {first : DriverOutcome → Process → Bool × Process}
    (hcheck : ∀ w w' onMainThread opens, P w →
      w.checkDbIsAlive c onMainThread opens = .ok w' → P w')
    (hfirst : ∀ o w, P w → P (first o w).2) {w : Process} (hw : P w) :
    ∀ k ∈ checksOf c env first w, P k.state := by
  intro k hk
  rcases List.mem_cons.mp hk with rfl | hk
  · exact hw
  · split at hk
    · cases hk
    · next v hv =>
        dsimp only at hk
        split_ifs at hk
        · cases hk
        · cases hk
        · obtain rfl := List.mem_singleton.mp hk
          exact hfirst env.call1 v (hcheck w v _ _ hw hv)

/-- A call that does not come back is stopped in one of its checks. -/
theorem checked_eq_error_iff (c : QString) (env : CallEnv)
    (first again : DriverOutcome → Process → Bool × Process) (w : Process) (x : Stop) :
    w.checked c env first again = .error x ↔ ∃ k ∈ checksOf c env first w, k.run = .error x := by
  rw [checked, checksOf]
  simp only [List.mem_cons, exists_eq_or_imp, Check.run]
  cases w.checkDbIsAlive c env.onMainThread env.opens1 with
  | error y => simp [bind, Except.bind]
  | ok v =>
      show (if (first env.call1 v).1 = true then Except.ok (true, (first env.call1 v).2)
        else if ((first env.call1 v).2.session c).isOpen = true then
          Except.ok (false, (first env.call1 v).2)
        else (first env.call1 v).2.checkDbIsAlive c env.onMainThread env.opens2 >>= fun w =>
          Except.ok (again env.call2 w)) = Except.error x ↔ _
      simp only [reduceCtorEq, false_or]
      split_ifs
      · simp
      · simp
      · simp only [List.mem_singleton, exists_eq_left]
        cases (first env.call1 v).2.checkDbIsAlive c env.onMainThread env.opens2 with
        | error y => simp [bind, Except.bind]
        | ok u => simp [bind, Except.bind]

omit [SqlDriver] in
theorem map_eq_error {α β : Type} {f : α → β} {x : Except Stop α} {y : Stop} :
    x.map f = .error y ↔ x = .error y := by
  cases x <;> simp [Except.map]

theorem newQueryFromText_eq_error_iff {w : Process} (hw : w.Free) {a : Nat}
    (ha : w.query a = none) (c text : QString) (id : Nat) (env : CallEnv) (x : Stop) :
    w.newQueryFromText a c text id env = .error x ↔
      ∃ k ∈ Event.checks w (.newQueryFromText a c text id env), k.run = .error x := by
  obtain ⟨v, hv⟩ : ∃ v, w.newQuery a c = .ok v := ⟨_, newQuery_eq hw a c⟩
  have hexec := checked_eq_error_iff c env
    (fun o u => (u.detach a ⟨c, w.resultCount⟩ text.trimmed).request c id o) (request c id) v x
  rw [newQueryFromText, hv, Event.checks, ha]
  cases htext : text.isEmpty with
  | true => simp [bind, Except.bind, pure, Except.pure]
  | false =>
      simp only [Option.isSome_none, Bool.false_eq_true, or_self, if_false, hv]
      rw [← hexec]
      show (v.execText a ⟨c, w.resultCount⟩ text id env >>= fun r =>
        if r.1 = true then Except.ok r.2
        else Except.ok { r.2 with query := Function.update r.2.query a none })
          = Except.error x ↔
        v.execText a ⟨c, w.resultCount⟩ text id env = .error x
      cases v.execText a ⟨c, w.resultCount⟩ text id env with
      | error y => simp [bind, Except.bind]
      | ok r =>
          obtain ⟨returned, u⟩ := r
          cases returned <;> simp [bind, Except.bind]

end

/-! ### Steps -/

theorem map_snd_eq_ok {x : Except Stop (Bool × Process)} {w : Process}
    (h : x.map Prod.snd = .ok w) : ∃ returned, x = .ok (returned, w) := by
  cases x with
  | error e => cases h
  | ok r => exact ⟨r.1, by rw [← Except.ok.inj h]⟩

theorem queryMutex_not_mem {w : Process} (hw : w.Free) : Mutex.queryMutex ∉ w.held := by
  rw [show w.held = [] from hw]
  exact List.not_mem_nil

section
variable [CaseFolding] [HashFunction] [SqlDriver]

/-- The operations on query objects leave the monitors alone. -/
theorem refreshed_step {w w' : Process} (hw : w.Orderly) {e : Event} (he : e.onMonitor = false)
    (h : w.step e = .ok w') : Refreshed w w' := by
  have hheld := queryMutex_not_mem hw.free
  cases e with
  | newQuery a c =>
      simp only [step, newQuery_eq hw.free] at h
      split_ifs at h <;> obtain rfl := Except.ok.inj h <;> exact .of_eq rfl rfl rfl rfl
  | newQueryFromText a c text id env =>
      simp only [step] at h
      split_ifs at h
      · obtain rfl := Except.ok.inj h
        exact .refl w
      · exact refreshed_newQueryFromText hw h
  | copyQuery a b =>
      simp only [step, copyQuery_eq hw.free] at h
      split at h <;> obtain rfl := Except.ok.inj h <;> exact .of_eq rfl rfl rfl rfl
  | assignQuery a b =>
      simp only [step] at h
      split at h <;> obtain rfl := Except.ok.inj h <;> exact .of_eq rfl rfl rfl rfl
  | destroyQuery a =>
      simp only [step, destroyQuery_eq hheld] at h
      split_ifs at h <;> obtain rfl := Except.ok.inj h <;> exact .of_eq rfl rfl rfl rfl
  | exec a id env =>
      simp only [step] at h
      split at h
      · obtain ⟨returned, hexec⟩ := map_snd_eq_ok h
        exact refreshed_exec hw hexec
      · obtain rfl := Except.ok.inj h
        exact .refl w
  | execText a text id env =>
      simp only [step] at h
      split at h
      · obtain ⟨returned, hexec⟩ := map_snd_eq_ok h
        exact refreshed_execText hw hexec
      · obtain rfl := Except.ok.inj h
        exact .refl w
  | prepare a text env =>
      simp only [step] at h
      split at h
      · obtain ⟨returned, hprepare⟩ := map_snd_eq_ok h
        exact refreshed_prepare hw hprepare
      · obtain rfl := Except.ok.inj h
        exact .refl w
  | bindValue a placeholder value =>
      simp only [step] at h
      split at h <;> obtain rfl := Except.ok.inj h <;> exact .of_eq rfl rfl rfl rfl
  | insertCached a c text b =>
      simp only [step, insertCached, copyQuery_eq hw.free] at h
      split at h
      · split_ifs at h
        · split at h <;> obtain rfl := Except.ok.inj h <;> exact .of_eq rfl rfl rfl rfl
        · obtain rfl := Except.ok.inj h
          exact .refl w
      · obtain rfl := Except.ok.inj h
        exact .refl w
  | queryCached a c text =>
      simp only [step, newQuery_eq hw.free, copyQuery_eq hw.free] at h
      split_ifs at h
      · obtain rfl := Except.ok.inj h
        exact .refl w
      · split at h <;> obtain rfl := Except.ok.inj h <;> exact .of_eq rfl rfl rfl rfl
  | setCacheEnabled enable =>
      rw [step, setCacheEnabled, clearCache_eq (by exact hheld)] at h
      obtain rfl := Except.ok.inj h
      exact .of_eq rfl rfl rfl rfl
  | clearCache =>
      rw [step, clearCache_eq hheld] at h
      obtain rfl := Except.ok.inj h
      exact .of_eq rfl rfl rfl rfl
  | newMonitor m c => cases he
  | setMonitorTables m tables => cases he
  | addValueMonitor m table column value => cases he
  | unsubscribeValuesNotifications m => cases he
  | destroyMonitor m => cases he
  | loseConnection c =>
      obtain rfl := Except.ok.inj h
      exact .of_eq rfl rfl rfl rfl
  | checkDbIsAlive c onMainThread opens =>
      rcases checkDbIsAlive_eq_ok hw h with rfl | hrec
      · exact .refl _
      · exact hrec.refreshed

/-- An operation that does not come back is stopped in one of its checks. -/
theorem step_eq_error_iff {w : Process} (hw : w.Orderly) (e : Event) (x : Stop) :
    w.step e = .error x ↔ ∃ k ∈ e.checks w, k.run = .error x := by
  have hheld := queryMutex_not_mem hw.free
  cases e with
  | newQuery a c =>
      simp only [step, newQuery_eq hw.free, Event.checks]
      split_ifs <;> simp
  | newQueryFromText a c text id env =>
      cases ha : w.query a with
      | some q => simp [step, Event.checks, ha]
      | none =>
          rw [← newQueryFromText_eq_error_iff hw.free ha]
          simp [step, ha]
  | copyQuery a b =>
      simp only [step, copyQuery_eq hw.free, Event.checks]
      split <;> simp
  | assignQuery a b =>
      simp only [step, Event.checks]
      split <;> simp
  | destroyQuery a =>
      simp only [step, destroyQuery_eq hheld, Event.checks]
      split_ifs <;> simp
  | exec a id env =>
      simp only [step, Event.checks]
      cases ha : w.named a with
      | none => simp
      | some q =>
          simp only [map_eq_error]
          exact checked_eq_error_iff _ _ _ _ _ _
  | execText a text id env =>
      simp only [step, Event.checks]
      cases ha : w.named a with
      | none => simp
      | some q =>
          simp only [map_eq_error]
          exact checked_eq_error_iff _ _ _ _ _ _
  | prepare a text env =>
      simp only [step, Event.checks]
      cases ha : w.named a with
      | none => simp
      | some q =>
          simp only [map_eq_error]
          exact checked_eq_error_iff _ _ _ _ _ _
  | bindValue a placeholder value =>
      simp only [step, Event.checks]
      split <;> simp
  | insertCached a c text b =>
      simp only [step, insertCached, copyQuery_eq hw.free, Event.checks]
      split
      · split_ifs
        · split <;> simp [bind, Except.bind, pure, Except.pure]
        · simp
      · simp
  | queryCached a c text =>
      simp only [step, newQuery_eq hw.free, copyQuery_eq hw.free, Event.checks]
      split_ifs
      · simp
      · split <;> simp
  | setCacheEnabled enable =>
      rw [step, setCacheEnabled, clearCache_eq (by exact hheld)]
      simp [Event.checks]
  | clearCache =>
      rw [step, clearCache_eq hheld]
      simp [Event.checks]
  | newMonitor m c =>
      simp only [step, newMonitor_eq hw.free, Event.checks]
      split_ifs <;> simp
  | setMonitorTables m tables =>
      simp only [step, Event.checks]
      split <;> simp
  | addValueMonitor m table column value =>
      simp only [step, Event.checks]
      split <;> simp
  | unsubscribeValuesNotifications m =>
      simp only [step, Event.checks]
      split <;> simp
  | destroyMonitor m =>
      simp only [step, destroyMonitor_eq hw.free, Event.checks]
      split_ifs <;> simp
  | loseConnection c => simp [step, Event.checks]
  | checkDbIsAlive c onMainThread opens =>
      simp [step, Event.checks, Check.run]

omit [CaseFolding] [HashFunction] [SqlDriver] in
/-- The list of monitors after one of them has changed. -/
theorem Orderly.of_update {w w' : Process} (hw : w.Orderly) {m : Nat} {mon mon' : SqlMonitor}
    (hm : w.monitor m = some mon) (held : w'.held = w.held) (monitors : w'.monitors = w.monitors)
    (monitor : w'.monitor = Function.update w.monitor m (some mon')) : w'.Orderly where
  free := held.trans hw.free
  monitors := by
    intro k
    rw [monitors, monitor]
    by_cases hk : k = m
    · subst hk
      simp [(hw.monitors k).mpr (by rw [hm]; rfl)]
    · rw [Function.update_of_ne hk]
      exact hw.monitors k

/-- What an operation on monitors does. -/
inductive MonitorEffect (w : Process) : Event → Process → Prop
  /-- There is another object, or none, at the address. -/
  | nothing {e : Event} (h : ∀ m, e = .unsubscribeValuesNotifications m → w.monitor m = none) :
      MonitorEffect w e w
  | newMonitor {m : Nat} {c : QString} (hm : w.monitor m = none) :
      MonitorEffect w (.newMonitor m c)
        { w with
          monitor := Function.update w.monitor m (some ⟨c, [], []⟩)
          monitors := w.monitors ++ [m] }
  | setMonitorTables {m : Nat} {tables : List QString} {mon mon' : SqlMonitor} {w' : Process}
      (hm : w.monitor m = some mon) (h : Listens m mon mon' w w') :
      MonitorEffect w (.setMonitorTables m tables) w'
  | addValueMonitor {m : Nat} {table column value : QString} {mon mon' : SqlMonitor} {w' : Process}
      (hm : w.monitor m = some mon) (h : Listens m mon mon' w w') :
      MonitorEffect w (.addValueMonitor m table column value) w'
  | unsubscribeValuesNotifications {m : Nat} {mon : SqlMonitor} (hm : w.monitor m = some mon) :
      MonitorEffect w (.unsubscribeValuesNotifications m) (w.unsubscribeValuesNotifications m mon)
  | destroyMonitor {m : Nat} :
      MonitorEffect w (.destroyMonitor m)
        { w with
          monitors := w.monitors.filter (· ≠ m)
          monitor := Function.update w.monitor m none }

theorem monitorEffect_step {w w' : Process} (hw : w.Orderly) {e : Event} (he : e.onMonitor = true)
    (h : w.step e = .ok w') : MonitorEffect w e w' := by
  have hother : ∀ {e}, (∀ m, e ≠ .unsubscribeValuesNotifications m) → MonitorEffect w e w :=
    fun hne => .nothing fun m heq => absurd heq (hne m)
  cases e with
  | newMonitor m c =>
      simp only [step, newMonitor_eq hw.free] at h
      split_ifs at h with hm
      · obtain rfl := Except.ok.inj h
        exact hother fun _ heq => by cases heq
      · obtain rfl := Except.ok.inj h
        exact .newMonitor (by simpa using hm)
  | setMonitorTables m tables =>
      simp only [step] at h
      split at h
      · next mon hm =>
          obtain rfl := Except.ok.inj h
          obtain ⟨mon', hlistens⟩ := listens_setMonitorTables hm tables
          exact .setMonitorTables hm hlistens
      · obtain rfl := Except.ok.inj h
        exact hother fun _ heq => by cases heq
  | addValueMonitor m table column value =>
      simp only [step] at h
      split at h
      · next mon hm =>
          obtain rfl := Except.ok.inj h
          obtain ⟨mon', hlistens⟩ := listens_addValueMonitor m mon w table column value
          exact .addValueMonitor hm hlistens
      · obtain rfl := Except.ok.inj h
        exact hother fun _ heq => by cases heq
  | unsubscribeValuesNotifications m =>
      simp only [step] at h
      split at h
      · next mon hm =>
          obtain rfl := Except.ok.inj h
          exact .unsubscribeValuesNotifications hm
      · next hm =>
          obtain rfl := Except.ok.inj h
          refine .nothing fun m' heq => ?_
          obtain rfl := Event.unsubscribeValuesNotifications.inj heq
          exact hm
  | destroyMonitor m =>
      simp only [step, destroyMonitor_eq hw.free] at h
      split_ifs at h
      · obtain rfl := Except.ok.inj h
        exact .destroyMonitor
      · obtain rfl := Except.ok.inj h
        exact hother fun _ heq => by cases heq
  | _ => cases he

omit [CaseFolding] [HashFunction] [SqlDriver] in
theorem Orderly.of_monitorEffect {w w' : Process} (hw : w.Orderly) {e : Event}
    (h : MonitorEffect w e w') : w'.Orderly := by
  cases h with
  | nothing h => exact hw
  | @newMonitor m c hm =>
      refine ⟨hw.free, fun k => ?_⟩
      by_cases hk : k = m <;> simp [hk, hw.monitors k]
  | setMonitorTables hm h => exact hw.of_update hm h.held h.monitors h.monitor
  | addValueMonitor hm h => exact hw.of_update hm h.held h.monitors h.monitor
  | unsubscribeValuesNotifications hm =>
      rw [unsubscribeValuesNotifications_eq]
      exact hw.of_update hm rfl rfl rfl
  | @destroyMonitor m =>
      refine ⟨hw.free, fun k => ?_⟩
      by_cases hk : k = m <;> simp [hk, hw.monitors k]

theorem orderly_step {w w' : Process} (hw : w.Orderly) {e : Event} (h : w.step e = .ok w') :
    w'.Orderly := by
  cases he : e.onMonitor with
  | false => exact hw.of_refreshed (refreshed_step hw he h)
  | true => exact hw.of_monitorEffect (monitorEffect_step hw he h)

omit [CaseFolding] [HashFunction] in
/-- The checks of an operation are made between others. -/
theorem orderly_checks {w : Process} (hw : w.Orderly) (e : Event) :
    ∀ k ∈ e.checks w, k.state.Orderly := by
  have hcheck : ∀ c (v v' : Process) onMainThread opens, v.Orderly →
      v.checkDbIsAlive c onMainThread opens = .ok v' → v'.Orderly := by
    intro c v v' onMainThread opens hv h
    rcases checkDbIsAlive_eq_ok hv h with rfl | hrec
    · exact hv
    · exact hv.of_refreshed hrec.refreshed
  cases e with
  | newQueryFromText a c text id env =>
      rw [Event.checks, newQuery_eq hw.free]
      split_ifs
      · exact fun k hk => by cases hk
      · exact checksOf_invariant (hcheck c) (fun o v hv => hv.of_refreshed (.of_eq rfl rfl rfl rfl))
          (hw.of_refreshed (.of_eq rfl rfl rfl rfl))
  | exec a id env =>
      rw [Event.checks]
      split
      · exact fun k hk => by cases hk
      · exact checksOf_invariant (hcheck _)
          (fun o v hv => hv.of_refreshed (refreshed_request _ id o v)) hw
  | execText a text id env =>
      rw [Event.checks]
      split
      · exact fun k hk => by cases hk
      · exact checksOf_invariant (hcheck _)
          (fun o v hv => hv.of_refreshed (.of_eq rfl rfl rfl rfl)) hw
  | prepare a text env =>
      rw [Event.checks]
      split
      · exact fun k hk => by cases hk
      · exact checksOf_invariant (hcheck _)
          (fun o v hv => hv.of_refreshed (refreshed_requestPrepare _ _ _ o v)) hw
  | checkDbIsAlive c onMainThread opens =>
      intro k hk
      obtain rfl := List.mem_singleton.mp hk
      exact hw
  | _ => exact fun k hk => by cases hk

omit [CaseFolding] [HashFunction] [SqlDriver] in
theorem orderly_start : start.Orderly := ⟨rfl, fun m => by simp [start]⟩

/-- A state that a program reaches. -/
theorem orderly_of_run {es : List Event} {w : Process}
    (h : Runs.run next (.ok start) es = .ok w) : w.Orderly := by
  have hstep : ∀ s e, (∀ w, s = .ok w → w.Orderly) → ∀ w, next s e = .ok w → w.Orderly := by
    intro s e hs w' hw'
    cases s with
    | error x => cases hw'
    | ok w => exact orderly_step (hs w rfl) hw'
  have hstart : ∀ w, (.ok start : Except Stop Process) = .ok w → w.Orderly := by
    rintro _ ⟨⟩
    exact orderly_start
  exact Runs.run_invariant_of_forall hstep hstart es w h

end

end Sqlate.Process
