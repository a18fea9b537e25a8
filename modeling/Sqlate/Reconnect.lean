/-
Sqlate/Reconnect.lean

What the operations on registered objects do, and what a check of the
connection amounts to.

Between the operations of a program no mutex is held (`Free`).  Then the
registrations, the destructors and the cache come down to plain changes of the
state (`newQuery_eq` to `clearCache_eq`).  `checkDbIsAlive_eq` unfolds the
loop: nothing is done on an open connection, the main thread exits, and
otherwise one reconnection is made if one of ten attempts to open succeeds.

A reconnection holds both mutexes.  With an entry in the cache it is stopped by
the destructor of the entry (`reconnect_of_cached`); without one it keeps every
object and leaves the monitors subscribed (`reconnect_of_not_cached`).
-/
import Sqlate.QueryManager

namespace Sqlate.Process

/-- No mutex is held by this thread. -/
def Free (w : Process) : Prop := w.held = []

/-! ### Operations outside of a check -/

theorem registerQuery_eq {w : Process} (h : Mutex.queryMutex ∉ w.held) (a : Nat) :
    w.registerQuery a = .ok { w with queries := w.queries ++ [a] } := by
  simp [registerQuery, guarded, lock, h, unlock]

theorem unregisterQuery_eq {w : Process} (h : Mutex.queryMutex ∉ w.held) (a : Nat) :
    w.unregisterQuery a = .ok { w with queries := w.queries.filter (· ≠ a) } := by
  simp [unregisterQuery, guarded, lock, h, unlock]

theorem unregisterQuery_of_held {w : Process} (h : Mutex.queryMutex ∈ w.held) (a : Nat) :
    w.unregisterQuery a = .error (.blocked .queryMutex) := by
  simp [unregisterQuery, guarded, lock, h]

theorem newQuery_eq {w : Process} (h : w.Free) (a : Nat) (c : QString) :
    w.newQuery a c = .ok
      { w with
        query := Function.update w.query a (some ⟨c, w.resultCount⟩)
        result := Function.update w.result w.resultCount (.prepared [])
        resultCount := w.resultCount + 1
        queries := w.queries ++ [a] } := by
  rw [newQuery, registerQuery_eq (by show _ ∉ w.held; simp [show w.held = [] from h])]
  rfl

theorem copyQuery_eq {w : Process} (h : w.Free) (a : Nat) (q : SqlQuery) :
    w.copyQuery a q = .ok
      { w with
        query := Function.update w.query a (some q)
        queries := w.queries ++ [a] } := by
  rw [copyQuery, registerQuery_eq (by show _ ∉ w.held; simp [show w.held = [] from h])]
  rfl

theorem destroyQuery_eq {w : Process} (h : Mutex.queryMutex ∉ w.held) (a : Nat) :
    w.destroyQuery a = .ok
      { w with
        queries := w.queries.filter (· ≠ a)
        query := Function.update w.query a none } := by
  rw [destroyQuery, unregisterQuery_eq h]
  rfl

theorem foldlM_destroyQuery_eq (entries : List (QString × QString × Nat)) {w : Process}
    (h : Mutex.queryMutex ∉ w.held) :
    entries.foldlM (fun w entry => w.destroyQuery entry.2.2) w = .ok
      { w with
        queries := w.queries.filter (· ∉ entries.map (·.2.2))
        query := fun a => if a ∈ entries.map (·.2.2) then none else w.query a } := by
  induction entries generalizing w with
  | nil => simp; rfl
  | cons e es ih =>
      rw [List.foldlM_cons, destroyQuery_eq h]
      refine (ih (by exact h)).trans ?_
      simp only [List.map_cons, List.mem_cons, not_or]
      congr 2
      · funext a
        by_cases ha : a = e.2.2
        · simp [ha]
        · simp only [ha, false_or, Function.update_of_ne, ne_eq, not_false_eq_true]
      · rw [List.filter_filter]
        refine List.filter_congr fun a _ => ?_
        rw [← Bool.decide_and]
        exact decide_eq_decide.mpr and_comm

theorem clearCache_eq {w : Process} (h : Mutex.queryMutex ∉ w.held) :
    w.clearCache = .ok
      { w with
        queries := w.queries.filter (· ∉ w.cached.map (·.2.2))
        query := fun a => if a ∈ w.cached.map (·.2.2) then none else w.query a
        cached := [] } := by
  rw [clearCache, destroyCached, foldlM_destroyQuery_eq w.cached h]
  rfl

theorem newMonitor_eq {w : Process} (h : w.Free) (m : Nat) (c : QString) :
    w.newMonitor m c = .ok
      { w with
        monitor := Function.update w.monitor m (some ⟨c, [], []⟩)
        monitors := w.monitors ++ [m] } := by
  simp [newMonitor, registerMonitor, guarded, lock, unlock, putMonitor, show w.held = [] from h]

theorem destroyMonitor_eq {w : Process} (h : w.Free) (m : Nat) :
    w.destroyMonitor m = .ok
      { w with
        monitors := w.monitors.filter (· ≠ m)
        monitor := Function.update w.monitor m none } := by
  simp [destroyMonitor, unregisterMonitor, guarded, lock, unlock, show w.held = [] from h]

/-! ### The rounds of a reconnection -/

/-- A change that keeps the lists, the mutexes and every object; query objects
may get another result object. -/
structure Kept (w w' : Process) : Prop where
  session : w'.session = w.session
  subscribed : w'.subscribed = w.subscribed
  held : w'.held = w.held
  alive : ∀ a, (w'.query a).isSome = (w.query a).isSome
  queries : w'.queries = w.queries
  cached : w'.cached = w.cached
  monitor : w'.monitor = w.monitor
  monitors : w'.monitors = w.monitors

theorem Kept.refl (w : Process) : Kept w w := ⟨rfl, rfl, rfl, fun _ => rfl, rfl, rfl, rfl, rfl⟩

theorem Kept.trans {u v w : Process} (h : Kept u v) (h' : Kept v w) : Kept u w where
  session := h'.session.trans h.session
  subscribed := h'.subscribed.trans h.subscribed
  held := h'.held.trans h.held
  alive := fun a => (h'.alive a).trans (h.alive a)
  queries := h'.queries.trans h.queries
  cached := h'.cached.trans h.cached
  monitor := h'.monitor.trans h.monitor
  monitors := h'.monitors.trans h.monitors

theorem kept_bindValue (q : SqlQuery) (w : Process) (call : QString × QVariant) :
    Kept w (bindValue q w call) :=
  ⟨rfl, rfl, rfl, fun _ => rfl, rfl, rfl, rfl, rfl⟩

theorem kept_foldl_bindValue (q : SqlQuery) (calls : List (QString × QVariant)) (w : Process) :
    Kept w (calls.foldl (bindValue q) w) := by
  induction calls generalizing w with
  | nil => exact .refl w
  | cons call calls ih => exact (kept_bindValue q w call).trans (ih _)

theorem kept_detach {w : Process} {a : Nat} (h : (w.query a).isSome) (q : SqlQuery)
    (text : QString) : Kept w (w.detach a q text) where
  session := rfl
  subscribed := rfl
  held := rfl
  alive := by
    intro b
    by_cases hb : b = a
    · subst hb
      simp [detach, putQuery, h]
    · simp [detach, putQuery, hb]
  queries := rfl
  cached := rfl
  monitor := rfl
  monitors := rfl

theorem queryAt_of_isSome {w : Process} {a : Nat} (h : (w.query a).isSome) :
    ∃ q, w.query a = some q ∧ w.queryAt a = .ok q := by
  obtain ⟨q, hq⟩ := Option.isSome_iff_exists.mp h
  exact ⟨q, hq, by rw [queryAt, hq]⟩

theorem kept_prepareAgain {w : Process} {a : Nat} (h : (w.query a).isSome) (c : QString)
    (all : Nat → List (QString × QVariant)) :
    ∃ w', w.prepareAgain c all a = .ok w' ∧ Kept w w' := by
  obtain ⟨q, -, hq⟩ := queryAt_of_isSome h
  rw [prepareAgain, hq]
  show ∃ w', (if q.connectionName ≠ c then Except.ok w
    else if (w.result q.result).lastQuery.isEmpty then Except.ok w else Except.ok _) = .ok w' ∧ _
  split_ifs
  · exact ⟨w, rfl, .refl w⟩
  · exact ⟨w, rfl, .refl w⟩
  · exact ⟨_, rfl, (kept_detach h q _).trans (kept_foldl_bindValue _ _ _)⟩

theorem kept_foldlM_prepareAgain {w : Process} {queries : List Nat}
    (h : ∀ a ∈ queries, (w.query a).isSome) (c : QString)
    (all : Nat → List (QString × QVariant)) :
    ∃ w', queries.foldlM (prepareAgain c all) w = .ok w' ∧ Kept w w' := by
  refine Runs.foldlM_eq_ok (fun v a ha hv => ?_) (.refl w)
  have hlive : (v.query a).isSome := by
    rw [hv.alive]
    exact h a ha
  obtain ⟨w', hw', hkept⟩ := kept_prepareAgain hlive c all
  exact ⟨w', hw', hv.trans hkept⟩

theorem subscribed_subscribeToNotification (w : Process) (c n c' : QString) :
    (w.subscribeToNotification c n).subscribed c'
      = if c' = c ∧ n ∉ w.subscribed c then w.subscribed c ++ [n] else w.subscribed c' := by
  rw [subscribeToNotification]
  by_cases hn : n ∈ w.subscribed c
  · simp [hn]
  · by_cases hc : c' = c
    · subst hc
      simp [hn]
    · simp [hn, hc]

/-- A change of the subscriptions that only adds some. -/
structure Subscribes (w w' : Process) : Prop where
  session : w'.session = w.session
  held : w'.held = w.held
  query : w'.query = w.query
  queries : w'.queries = w.queries
  cached : w'.cached = w.cached
  monitor : w'.monitor = w.monitor
  monitors : w'.monitors = w.monitors
  subset : ∀ c, w.subscribed c ⊆ w'.subscribed c

theorem Subscribes.refl (w : Process) : Subscribes w w :=
  ⟨rfl, rfl, rfl, rfl, rfl, rfl, rfl, fun _ _ h => h⟩

theorem Subscribes.trans {u v w : Process} (h : Subscribes u v) (h' : Subscribes v w) :
    Subscribes u w where
  session := h'.session.trans h.session
  held := h'.held.trans h.held
  query := h'.query.trans h.query
  queries := h'.queries.trans h.queries
  cached := h'.cached.trans h.cached
  monitor := h'.monitor.trans h.monitor
  monitors := h'.monitors.trans h.monitors
  subset := fun c _ hn => h'.subset c (h.subset c hn)

theorem subscribes_subscribeToNotification (w : Process) (c n : QString) :
    Subscribes w (w.subscribeToNotification c n)
      ∧ n ∈ (w.subscribeToNotification c n).subscribed c := by
  have hmem : n ∈ (w.subscribeToNotification c n).subscribed c := by
    rw [subscribed_subscribeToNotification]
    by_cases hn : n ∈ w.subscribed c <;> simp [hn]
  refine ⟨?_, hmem⟩
  have hsubset : ∀ c', w.subscribed c' ⊆ (w.subscribeToNotification c n).subscribed c' := by
    intro c' x hx
    rw [subscribed_subscribeToNotification]
    split_ifs with hc
    · rw [hc.1] at hx
      exact List.mem_append_left _ hx
    · exact hx
  by_cases hn : n ∈ w.subscribed c
  · simp only [subscribeToNotification, hn, if_true] at hsubset ⊢
    exact .refl w
  · simp only [subscribeToNotification, hn, if_false] at hsubset ⊢
    exact ⟨rfl, rfl, rfl, rfl, rfl, rfl, rfl, hsubset⟩

theorem subscribes_foldl (c : QString) (ns : List QString) (w : Process) :
    Subscribes w (ns.foldl (fun w n => w.subscribeToNotification c n) w)
      ∧ ns ⊆ (ns.foldl (fun w n => w.subscribeToNotification c n) w).subscribed c := by
  induction ns generalizing w with
  | nil => exact ⟨.refl w, fun _ h => by cases h⟩
  | cons n ns ih =>
      obtain ⟨hfirst, hn⟩ := subscribes_subscribeToNotification w c n
      obtain ⟨hrest, hns⟩ := ih (w.subscribeToNotification c n)
      refine ⟨hfirst.trans hrest, fun x hx => ?_⟩
      rcases List.mem_cons.mp hx with rfl | hx
      · exact hrest.subset c hn
      · exact hns hx

theorem monitorAt_of_isSome {w : Process} {m : Nat} (h : (w.monitor m).isSome) :
    ∃ mon, w.monitor m = some mon ∧ w.monitorAt m = .ok mon := by
  obtain ⟨mon, hmon⟩ := Option.isSome_iff_exists.mp h
  exact ⟨mon, hmon, by rw [monitorAt, hmon]⟩

theorem resubscribeMonitor_eq_ok {w : Process} {m : Nat} (h : (w.monitor m).isSome)
    (c : QString) :
    ∃ w', w.resubscribeMonitor c m = .ok w' ∧ Subscribes w w' ∧
      ∀ mon, w.monitor m = some mon → mon.connectionName = c →
        mon.tables ++ mon.monitoredValues ⊆ w'.subscribed c := by
  obtain ⟨mon, hmon, hat⟩ := monitorAt_of_isSome h
  rw [resubscribeMonitor, hat]
  show ∃ w', (if mon.connectionName ≠ c then Except.ok w else Except.ok (w.resubscribe mon))
    = .ok w' ∧ _
  split_ifs with hc
  · refine ⟨w, rfl, .refl w, fun mon' hmon' hc' => ?_⟩
    rw [hmon] at hmon'
    obtain rfl := Option.some.inj hmon'
    exact absurd hc' hc
  · obtain ⟨hsubscribes, hmem⟩ :=
      subscribes_foldl mon.connectionName (mon.tables ++ mon.monitoredValues) w
    refine ⟨_, rfl, hsubscribes, fun mon' hmon' hc' => ?_⟩
    rw [hmon] at hmon'
    obtain rfl := Option.some.inj hmon'
    rw [← hc']
    exact hmem

theorem foldlM_resubscribeMonitor_eq_ok {w : Process} {monitors : List Nat}
    (h : ∀ m ∈ monitors, (w.monitor m).isSome) (c : QString) :
    ∃ w', monitors.foldlM (resubscribeMonitor c) w = .ok w' ∧ Subscribes w w' ∧
      ∀ m ∈ monitors, ∀ mon, w.monitor m = some mon → mon.connectionName = c →
        mon.tables ++ mon.monitoredValues ⊆ w'.subscribed c := by
  induction monitors generalizing w with
  | nil => exact ⟨w, rfl, .refl w, fun _ h => by cases h⟩
  | cons m ms ih =>
      obtain ⟨v, hv, hfirst, hm⟩ := resubscribeMonitor_eq_ok (h m List.mem_cons_self) c
      obtain ⟨w', hw', hrest, hms⟩ := ih (w := v) fun k hk => by
        rw [hfirst.monitor]
        exact h k (List.mem_cons_of_mem _ hk)
      refine ⟨w', ?_, hfirst.trans hrest, fun k hk mon hmon hc => ?_⟩
      · rw [List.foldlM_cons, hv]
        exact hw'
      · rcases List.mem_cons.mp hk with rfl | hk
        · exact fun _ hn => hrest.subset c (hm mon hmon hc hn)
        · exact hms k hk mon (hfirst.monitor ▸ hmon) hc

/-! ### A reconnection -/

/-- What a reconnection on connection `c` comes to. -/
structure Reconnected (c : QString) (w w' : Process) : Prop where
  isOpen : (w'.session c).isOpen = true
  session : w'.session = Function.update w.session c (w.session c).reopen
  held : w'.held = w.held
  alive : ∀ a, (w'.query a).isSome = (w.query a).isSome
  queries : w'.queries = w.queries
  cached : w'.cached = w.cached
  monitor : w'.monitor = w.monitor
  monitors : w'.monitors = w.monitors
  subscribed : ∀ c', c' ≠ c → w.subscribed c' ⊆ w'.subscribed c'
  resubscribed : ∀ m ∈ w.monitors, ∀ mon, w.monitor m = some mon → mon.connectionName = c →
    mon.tables ++ mon.monitoredValues ⊆ w'.subscribed c

/-- The first destructor of a cached query waits for the mutex that the check
holds. -/
theorem reconnect_of_cached {w : Process} (hheld : Mutex.queryMutex ∈ w.held)
    (hcached : w.cached ≠ []) (c : QString) (all : Nat → List (QString × QVariant)) :
    w.reconnect c all = .error (.blocked .queryMutex) := by
  obtain ⟨entry, entries, hentries⟩ := List.exists_cons_of_ne_nil hcached
  rw [reconnect, clearCache, destroyCached]
  show ((w.cached.foldlM _ _ >>= _) >>= _) = _
  rw [hentries, List.foldlM_cons, destroyQuery, unregisterQuery_of_held (by exact hheld)]
  rfl

theorem foldl_unsubscribeFromNotification (c : QString) (ns : List QString) (w : Process) :
    ns.foldl (fun w n => w.unsubscribeFromNotification c n) w
      = { w with
          subscribed :=
            Function.update w.subscribed c ((w.subscribed c).filter (· ∉ ns)) } := by
  induction ns generalizing w with
  | nil => simp
  | cons n ns ih =>
      rw [List.foldl_cons, ih]
      simp [unsubscribeFromNotification, List.filter_filter, Bool.and_comm]

theorem reconnect_of_not_cached {w : Process} (hcached : w.cached = [])
    (hqueries : ∀ a ∈ w.queries, (w.query a).isSome)
    (hmonitors : ∀ m ∈ w.monitors, (w.monitor m).isSome) (c : QString)
    (all : Nat → List (QString × QVariant)) :
    ∃ w', w.reconnect c all = .ok w' ∧ Reconnected c w w' := by
  -- the session is there again
  let u : Process :=
    { w with session := Function.update w.session c (w.session c).reopen }
  obtain ⟨v, hv, hprepared⟩ := kept_foldlM_prepareAgain (w := { u with cached := [] })
    hqueries c all
  -- the notifications are given up
  let v' := (v.subscribed c).foldl (fun w n => w.unsubscribeFromNotification c n) v
  have hv' : v' =
      { v with
        subscribed := Function.update v.subscribed c
          ((v.subscribed c).filter (· ∉ v.subscribed c)) } :=
    foldl_unsubscribeFromNotification c _ v
  have hmonitor : v'.monitor = w.monitor := by
    rw [hv']
    exact hprepared.monitor
  have hlist : v'.monitors = w.monitors := by
    rw [hv']
    exact hprepared.monitors
  obtain ⟨w', hw', hsubscribes, hall⟩ :=
    foldlM_resubscribeMonitor_eq_ok
      (show ∀ m ∈ v'.monitors, (v'.monitor m).isSome by rw [hmonitor, hlist]; exact hmonitors) c
  have hclear : u.clearCache = .ok { u with cached := [] } := by
    rw [clearCache, destroyCached, show u.cached = [] from hcached]
    rfl
  have hsession : w'.session = Function.update w.session c (w.session c).reopen := by
    rw [hsubscribes.session, hv']
    exact hprepared.session
  refine ⟨w', ?_, ?_⟩
  · rw [reconnect]
    show (u.clearCache >>= _) = _
    rw [hclear]
    show ((u.queries.foldlM (prepareAgain c all) { u with cached := [] }) >>= _) = _
    rw [hv]
    exact hw'
  · refine ⟨?_, hsession, ?_, ?_, ?_, ?_, ?_, ?_, ?_, ?_⟩
    · rw [hsession, Function.update_self]
      rfl
    · rw [hsubscribes.held, hv']
      exact hprepared.held
    · intro a
      rw [hsubscribes.query, hv']
      exact hprepared.alive a
    · rw [hsubscribes.queries, hv']
      exact hprepared.queries
    · rw [hsubscribes.cached, hv', hcached]
      exact hprepared.cached
    · rw [hsubscribes.monitor, hmonitor]
    · rw [hsubscribes.monitors, hlist]
    · intro c' hc'
      have hkeep : v'.subscribed c' = w.subscribed c' := by
        rw [hv']
        show Function.update v.subscribed c _ c' = _
        rw [Function.update_of_ne hc', hprepared.subscribed]
      rw [← hkeep]
      exact hsubscribes.subset c'
    · rw [← hlist, ← hmonitor]
      exact hall

/-! ### A check of the connection -/

theorem reopenLoop_of_isOpen {c : QString} {w : Process} (h : (w.session c).isOpen = true)
    (all : Nat → List (QString × QVariant)) (onMainThread : Bool) (retries : Nat)
    (opens : List Bool) : w.reopenLoop c all onMainThread retries opens = .ok w := by
  cases retries <;> simp [reopenLoop, h]

/-- The loop makes at most one reconnection. -/
theorem reopenLoop_eq {c : QString} {all : Nat → List (QString × QVariant)} {w : Process}
    (hopen : ∀ w', w.reconnect c all = .ok w' → (w'.session c).isOpen = true)
    (onMainThread : Bool) (retries : Nat) (opens : List Bool) :
    w.reopenLoop c all onMainThread retries opens =
      if (w.session c).isOpen then .ok w
      else if onMainThread then .error .exited
      else if true ∈ opens.take retries then w.reconnect c all
      else .ok w := by
  induction retries generalizing opens with
  | zero =>
      rw [reopenLoop]
      simp
  | succ retries ih =>
      rw [reopenLoop]
      split_ifs with h1 h2 h3 h4 h4
      · rfl
      · rfl
      · -- the attempt succeeds, and the next round sees it
        cases hrec : w.reconnect c all with
        | error x => rfl
        | ok w' =>
            exact reopenLoop_of_isOpen (hopen w' hrec) all onMainThread retries opens.tail
      · cases opens with
        | nil => cases h3
        | cons o os => simp_all
      · rw [ih]
        cases opens with
        | nil => simp at h4
        | cons o os => simp_all
      · rw [ih]
        cases opens with
        | nil => simp [h1, h2]
        | cons o os => simp_all

section
variable [SqlDriver]

theorem foldlM_saveBoundValues_eq_ok {w : Process} {queries : List Nat}
    (h : ∀ a ∈ queries, (w.query a).isSome) (c : QString)
    (all : Nat → List (QString × QVariant)) :
    ∃ all', queries.foldlM (saveBoundValues c w) all = .ok all' := by
  have hround : ∀ s, ∀ a ∈ queries, True → ∃ t, saveBoundValues c w s a = .ok t ∧ True := by
    intro s a ha _
    obtain ⟨q, -, hq⟩ := queryAt_of_isSome (h a ha)
    refine ⟨if q.connectionName ≠ c then s else Function.update s a (w.boundValues q), ?_, trivial⟩
    rw [saveBoundValues, hq]
    show (if q.connectionName ≠ c then Except.ok s else Except.ok _) = _
    split_ifs <;> rfl
  obtain ⟨all', hall', -⟩ := Runs.foldlM_eq_ok hround (s := all) trivial
  exact ⟨all', hall'⟩

theorem foldlM_saveBoundValues_of_dangling {w : Process} {queries : List Nat} {a : Nat}
    (ha : a ∈ queries) (hdead : w.query a = none) (c : QString)
    (all : Nat → List (QString × QVariant)) :
    ∃ b ∈ queries, w.query b = none ∧
      queries.foldlM (saveBoundValues c w) all = .error (.dangling b) := by
  induction queries generalizing all with
  | nil => cases ha
  | cons b bs ih =>
      rw [List.foldlM_cons, saveBoundValues, queryAt]
      cases hb : w.query b with
      | none => exact ⟨b, List.mem_cons_self, hb, rfl⟩
      | some q =>
          have hne : a ≠ b := by
            rintro rfl
            rw [hdead] at hb
            cases hb
          have ha' : a ∈ bs := (List.mem_cons.mp ha).resolve_left hne
          show ∃ b' ∈ b :: bs, w.query b' = none ∧
            ((if q.connectionName ≠ c then Except.ok all else Except.ok _) >>= fun all =>
              bs.foldlM (saveBoundValues c w) all) = .error (.dangling b')
          split_ifs
          · obtain ⟨b', hb', hrest⟩ := ih ha' all
            exact ⟨b', List.mem_cons_of_mem _ hb', hrest⟩
          · obtain ⟨b', hb', hrest⟩ := ih ha' (Function.update all b (w.boundValues q))
            exact ⟨b', List.mem_cons_of_mem _ hb', hrest⟩

/-- What holds between the operations of any program. -/
structure Orderly (w : Process) : Prop where
  free : w.Free
  monitors : ∀ m, m ∈ w.monitors ↔ (w.monitor m).isSome = true

/-- The state inside of a check. -/
def inCheck (w : Process) : Process := { w with held := [.monitorMutex, .queryMutex] }

theorem checkDbIsAlive_of_free {w : Process} (hfree : w.Free) (c : QString) (onMainThread : Bool)
    (opens : List Bool) :
    w.checkDbIsAlive c onMainThread opens =
      (w.queries.foldlM (saveBoundValues c w.inCheck) fun _ => []).bind fun all =>
        (w.inCheck.reopenLoop c all onMainThread 10 opens).bind fun w' =>
          .ok ((w'.unlock .monitorMutex).unlock .queryMutex) := by
  rw [checkDbIsAlive, lock, show w.held = [] from hfree]
  rfl

omit [SqlDriver] in
theorem unlock_inCheck {w : Process} (hfree : w.Free) :
    (w.inCheck.unlock .monitorMutex).unlock .queryMutex = w := by
  obtain ⟨⟩ := w
  obtain rfl := hfree
  rfl

omit [SqlDriver] in
/-- A reconnection inside of a check is stopped or leaves the connection open. -/
theorem reconnect_inCheck_cases {w : Process} (hw : w.Orderly)
    (hlive : ∀ a ∈ w.queries, (w.query a).isSome) (c : QString)
    (all : Nat → List (QString × QVariant)) :
    (w.cached ≠ [] ∧ w.inCheck.reconnect c all = .error (.blocked .queryMutex)) ∨
    (w.cached = [] ∧ ∃ v, w.inCheck.reconnect c all = .ok v ∧ Reconnected c w.inCheck v) := by
  by_cases hcached : w.cached = []
  · exact .inr ⟨hcached, reconnect_of_not_cached (w := w.inCheck) hcached hlive
      (fun m hm => (hw.monitors m).mp hm) c all⟩
  · exact .inl ⟨hcached, reconnect_of_cached (w := w.inCheck) (by simp [inCheck]) hcached c all⟩

theorem checkDbIsAlive_eq {w : Process} (hw : w.Orderly)
    (hlive : ∀ a ∈ w.queries, (w.query a).isSome) (c : QString) (onMainThread : Bool)
    (opens : List Bool) :
    ∃ all, w.checkDbIsAlive c onMainThread opens =
      if (w.session c).isOpen then .ok w
      else if onMainThread then .error .exited
      else if true ∈ opens.take 10 then
        (w.inCheck.reconnect c all).bind fun w' =>
          .ok ((w'.unlock .monitorMutex).unlock .queryMutex)
      else .ok w := by
  obtain ⟨all, hall⟩ := foldlM_saveBoundValues_eq_ok (w := w.inCheck) hlive c fun _ => []
  have hopen : ∀ w', w.inCheck.reconnect c all = .ok w' → (w'.session c).isOpen = true := by
    intro w' hw'
    rcases reconnect_inCheck_cases hw hlive c all with ⟨-, h⟩ | ⟨-, v, h, hv⟩
    · rw [h] at hw'
      cases hw'
    · rw [h] at hw'
      obtain rfl := Except.ok.inj hw'
      exact hv.isOpen
  have hloop := reopenLoop_eq hopen onMainThread 10 opens
  refine ⟨all, ?_⟩
  rw [checkDbIsAlive_of_free hw.free, hall]
  show (w.inCheck.reopenLoop c all onMainThread 10 opens).bind _ = _
  rw [hloop, show w.inCheck.session = w.session from rfl]
  have hback : (.ok ((w.inCheck.unlock .monitorMutex).unlock .queryMutex) : Except Stop Process)
      = .ok w := congrArg _ (unlock_inCheck hw.free)
  split_ifs
  · exact hback
  · rfl
  · rfl
  · exact hback

/-- **Specification of `checkDbIsAlive`** between the operations of a program:
what it does depends on the pointers it follows, the thread, the attempts to
open and the cache. -/
theorem checkDbIsAlive_cases {w : Process} (hw : w.Orderly) (c : QString) (onMainThread : Bool)
    (opens : List Bool) :
    (∃ a ∈ w.queries, w.query a = none ∧
      w.checkDbIsAlive c onMainThread opens = .error (.dangling a)) ∨
    ((∀ a ∈ w.queries, (w.query a).isSome = true) ∧
      (((w.session c).isOpen = true ∧ w.checkDbIsAlive c onMainThread opens = .ok w) ∨
        ((w.session c).isOpen = false ∧ onMainThread = true ∧
          w.checkDbIsAlive c onMainThread opens = .error .exited) ∨
        ((w.session c).isOpen = false ∧ onMainThread = false ∧ true ∉ opens.take 10 ∧
          w.checkDbIsAlive c onMainThread opens = .ok w) ∨
        ((w.session c).isOpen = false ∧ onMainThread = false ∧ true ∈ opens.take 10 ∧
          w.cached ≠ [] ∧
          w.checkDbIsAlive c onMainThread opens = .error (.blocked .queryMutex)) ∨
        ((w.session c).isOpen = false ∧ onMainThread = false ∧ true ∈ opens.take 10 ∧
          w.cached = [] ∧
          ∃ w', w.checkDbIsAlive c onMainThread opens = .ok w' ∧ Reconnected c w w'))) := by
  by_cases hlive : ∀ a ∈ w.queries, (w.query a).isSome = true
  · refine .inr ⟨hlive, ?_⟩
    obtain ⟨all, hcheck⟩ := checkDbIsAlive_eq hw hlive c onMainThread opens
    rw [hcheck]
    cases hopen : (w.session c).isOpen with
    | true => exact .inl ⟨rfl, rfl⟩
    | false =>
        refine .inr ?_
        cases onMainThread with
        | true => exact .inl ⟨rfl, rfl, rfl⟩
        | false =>
            refine .inr ?_
            by_cases hopens : true ∈ opens.take 10
            · refine .inr ?_
              rw [if_neg Bool.false_ne_true, if_neg Bool.false_ne_true, if_pos hopens]
              rcases reconnect_inCheck_cases hw hlive c all with ⟨hcached, h⟩ | ⟨hcached, v, h, hv⟩
              · exact .inl ⟨rfl, rfl, hopens, hcached, by rw [h]; rfl⟩
              · refine .inr ⟨rfl, rfl, hopens, hcached, (v.unlock .monitorMutex).unlock .queryMutex,
                  by rw [h]; rfl, ?_⟩
                refine ⟨hv.isOpen, hv.session, ?_, hv.alive, hv.queries, hv.cached, hv.monitor,
                  hv.monitors, hv.subscribed, hv.resubscribed⟩
                show (v.held.erase .monitorMutex).erase .queryMutex = w.held
                rw [hv.held, show w.held = [] from hw.free]
                rfl
            · refine .inl ⟨rfl, rfl, hopens, ?_⟩
              rw [if_neg Bool.false_ne_true, if_neg Bool.false_ne_true, if_neg hopens]
  · obtain ⟨a, ha, hdead⟩ : ∃ a ∈ w.queries, w.query a = none := by
      simpa [Option.isSome_iff_ne_none] using hlive
    obtain ⟨b, hb, hbdead, hfold⟩ :=
      foldlM_saveBoundValues_of_dangling (w := w.inCheck) ha hdead c fun _ => []
    refine .inl ⟨b, hb, hbdead, ?_⟩
    rw [checkDbIsAlive_of_free hw.free, hfold]
    rfl

end

end Sqlate.Process
