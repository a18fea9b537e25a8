/-
Sqlate/QueryRegistry.lean

The list of queries of the manager.

`Registered` says that the list holds every query object that is there exactly
once, and nothing else; then a check follows no pointer to nowhere
(`step_ne_dangling`).  Every operation keeps it but one: the constructor that
also executes a statement has registered the object when the statement throws,
and the destructor that would take it out of the list does not run
(`registered_run_iff`).
-/
import Sqlate.MutexDiscipline

namespace Sqlate.Process

/-- The list holds every object once, and nothing else. -/
def Registered (w : Process) : Prop :=
  ∀ a, w.queries.count a = if (w.query a).isSome then 1 else 0

/-- The list is right, or the thread is not running any more; it has not
followed a pointer to no object. -/
def RegisteredState : Except Stop Process → Prop
  | .ok w => w.Registered
  | .error (.dangling _) => False
  | .error _ => True

theorem Registered.alive {w : Process} (h : w.Registered) {a : Nat} (ha : a ∈ w.queries) :
    (w.query a).isSome = true := by
  have hcount := h a
  have hpos := List.count_pos_iff.mpr ha
  split_ifs at hcount with hquery
  · exact hquery
  · omega

theorem registered_start : start.Registered := fun _ => by simp [start]

/-! ### Operations -/

/-- The list, the cache and the objects are as before. -/
structure SameQueries (w w' : Process) : Prop where
  queries : w'.queries = w.queries
  cached : w'.cached = w.cached
  alive : ∀ a, (w'.query a).isSome = (w.query a).isSome

theorem SameQueries.refl (w : Process) : SameQueries w w := ⟨rfl, rfl, fun _ => rfl⟩

theorem SameQueries.trans {u v w : Process} (h : SameQueries u v) (h' : SameQueries v w) :
    SameQueries u w :=
  ⟨h'.queries.trans h.queries, h'.cached.trans h.cached,
    fun a => (h'.alive a).trans (h.alive a)⟩

theorem Registered.of_same {w w' : Process} (hw : w.Registered) (h : SameQueries w w') :
    w'.Registered := by
  intro a
  rw [h.queries, h.alive]
  exact hw a

/-- An object is added to the list by its constructor. -/
theorem Registered.add {w w' : Process} (hw : w.Registered) {a : Nat} (ha : w.query a = none)
    (halive : ∀ b, (w'.query b).isSome = (decide (b = a) || (w.query b).isSome))
    (hqueries : w'.queries = w.queries ++ [a]) : w'.Registered := by
  intro b
  have hb := hw b
  rw [halive, hqueries, List.count_append]
  by_cases hab : b = a
  · subst hab
    rw [ha] at hb
    simpa using hb
  · rw [hb, List.count_singleton]
    simp [hab, Ne.symm hab]

/-- Objects are taken out of the list by their destructors. -/
theorem Registered.remove {w w' : Process} (hw : w.Registered) {p : Nat → Prop} [DecidablePred p]
    (hquery : ∀ a, w'.query a = if p a then none else w.query a)
    (hqueries : w'.queries = w.queries.filter fun a => ¬ p a) : w'.Registered := by
  intro a
  rw [hquery, hqueries]
  by_cases ha : p a
  · rw [if_pos ha, List.count_eq_zero.mpr]
    · rfl
    · intro hmem
      simpa [ha] using (List.mem_filter.mp hmem).2
  · rw [if_neg ha, List.count_filter (by simpa using ha)]
    exact hw a

/-- An object that goes without being taken out of the list stays in it. -/
theorem not_registered_of_abandoned {w w' : Process} {a : Nat} (hdead : w'.query a = none)
    (hqueries : w'.queries = w.queries ++ [a]) : ¬ w'.Registered := by
  intro h
  have halive := h.alive (a := a) (by simp [hqueries])
  rw [hdead] at halive
  cases halive

/-- What is at the address of an object may be replaced by another one. -/
theorem sameQueries_putQuery {w : Process} {a : Nat} (h : (w.query a).isSome = true)
    (q : SqlQuery) : SameQueries w (w.putQuery a q) := by
  refine ⟨rfl, rfl, fun b => ?_⟩
  by_cases hb : b = a
  · subst hb
    simp [putQuery, h]
  · simp [putQuery, hb]

theorem sameQueries_detach {w : Process} {a : Nat} (h : (w.query a).isSome = true) (q : SqlQuery)
    (text : QString) : SameQueries w (w.detach a q text) :=
  ⟨rfl, rfl, (kept_detach h q text).alive⟩

theorem MonitorEffect.sameQueries {w w' : Process} {e : Event} (h : MonitorEffect w e w') :
    SameQueries w w' := by
  cases h with
  | setMonitorTables hm h => exact ⟨h.queries, h.cached, fun b => by rw [h.query]⟩
  | addValueMonitor hm h => exact ⟨h.queries, h.cached, fun b => by rw [h.query]⟩
  | unsubscribeValuesNotifications hm =>
      rw [unsubscribeValuesNotifications_eq]
      exact ⟨rfl, rfl, fun _ => rfl⟩
  | _ => exact ⟨rfl, rfl, fun _ => rfl⟩

theorem Reconnected.sameQueries {c : QString} {w w' : Process} (h : Reconnected c w w') :
    SameQueries w w' :=
  ⟨h.queries, h.cached, h.alive⟩

section
variable [SqlDriver]

/-- A call keeps list and objects when its requests do. -/
theorem sameQueries_checked {c : QString} {env : CallEnv}
    {first again : DriverOutcome → Process → Bool × Process} {w w' : Process} {returned : Bool}
    (hw : w.Orderly)
    (hfirst : ∀ o v, SameQueries w v → Refreshed v (first o v).2 ∧ SameQueries v (first o v).2)
    (hagain : ∀ o v, SameQueries w v → Refreshed v (again o v).2 ∧ SameQueries v (again o v).2)
    (h : w.checked c env first again = .ok (returned, w')) : SameQueries w w' := by
  have hstart : w.Orderly ∧ SameQueries w w := ⟨hw, .refl w⟩
  refine (checked_invariant (P := fun v => v.Orderly ∧ SameQueries w v) ?_ ?_ ?_ hstart h).2
  · rintro v v' _ _ ⟨hv, hwv⟩ hcheck
    rcases checkDbIsAlive_eq_ok hv hcheck with rfl | hrec
    · exact ⟨hv, hwv⟩
    · exact ⟨hv.of_refreshed hrec.refreshed, hwv.trans hrec.sameQueries⟩
  · rintro o v ⟨hv, hwv⟩
    obtain ⟨hrefreshed, hsame⟩ := hfirst o v hwv
    exact ⟨hv.of_refreshed hrefreshed, hwv.trans hsame⟩
  · rintro o v ⟨hv, hwv⟩
    obtain ⟨hrefreshed, hsame⟩ := hagain o v hwv
    exact ⟨hv.of_refreshed hrefreshed, hwv.trans hsame⟩

omit [SqlDriver] in
theorem sameQueries_request (c : QString) (id : Nat) (o : DriverOutcome) (w : Process) :
    Refreshed w (w.request c id o).2 ∧ SameQueries w (w.request c id o).2 :=
  ⟨refreshed_request c id o w, rfl, rfl, fun _ => rfl⟩

omit [SqlDriver] in
theorem sameQueries_detach_request {w : Process} {a : Nat} (h : (w.query a).isSome = true)
    (q : SqlQuery) (text : QString) (id : Nat) (o : DriverOutcome) :
    Refreshed w ((w.detach a q text).request q.connectionName id o).2 ∧
      SameQueries w ((w.detach a q text).request q.connectionName id o).2 :=
  ⟨.of_eq rfl rfl rfl rfl, (sameQueries_detach h q text).trans (sameQueries_request _ id o _).2⟩

omit [SqlDriver] in
theorem sameQueries_requestPrepare {w : Process} {a : Nat} (h : (w.query a).isSome = true)
    (q : SqlQuery) (text : QString) (o : DriverOutcome) :
    Refreshed w (w.requestPrepare a q text o).2 ∧
      SameQueries w (w.requestPrepare a q text o).2 := by
  refine ⟨refreshed_requestPrepare a q text o w, ?_⟩
  rw [requestPrepare]
  split_ifs
  · exact (sameQueries_detach h q text).trans ⟨rfl, rfl, fun _ => rfl⟩
  · exact .refl w

theorem sameQueries_exec {w w' : Process} (hw : w.Orderly) {q : SqlQuery} {id : Nat}
    {env : CallEnv} {returned : Bool} (h : w.exec q id env = .ok (returned, w')) :
    SameQueries w w' :=
  sameQueries_checked hw (fun o v _ => sameQueries_request _ id o v)
    (fun o v _ => sameQueries_request _ id o v) h

theorem sameQueries_execText {w w' : Process} (hw : w.Orderly) {a : Nat}
    (ha : (w.query a).isSome = true) {q : SqlQuery} {text : QString} {id : Nat} {env : CallEnv}
    {returned : Bool} (h : w.execText a q text id env = .ok (returned, w')) : SameQueries w w' :=
  sameQueries_checked hw
    (fun o v hv => sameQueries_detach_request (by rw [hv.alive]; exact ha) q _ id o)
    (fun o v _ => sameQueries_request _ id o v) h

theorem sameQueries_prepare {w w' : Process} (hw : w.Orderly) {a : Nat}
    (ha : (w.query a).isSome = true) {q : SqlQuery} {text : QString} {env : CallEnv}
    {returned : Bool} (h : w.prepare a q text env = .ok (returned, w')) : SameQueries w w' :=
  sameQueries_checked hw
    (fun o v hv => sameQueries_requestPrepare (by rw [hv.alive]; exact ha) q text o)
    (fun o v hv => sameQueries_requestPrepare (by rw [hv.alive]; exact ha) q text o) h

end

/-! ### Steps -/

/-- What an operation does to the list and the objects; `throws` is whether it
is a construction from a text whose statement throws. -/
inductive QueryEffect (throws : Prop) (w w' : Process) : Prop
  | same (h : SameQueries w w')
  | add (a : Nat) (dead : w.query a = none)
      (alive : ∀ b, (w'.query b).isSome = (decide (b = a) || (w.query b).isSome))
      (queries : w'.queries = w.queries ++ [a])
      (cached : ∀ entry ∈ w'.cached, entry ∈ w.cached ∨ entry.2.2 = a)
  | remove (p : Nat → Prop) (decidable : DecidablePred p)
      (query : ∀ a, w'.query a = if p a then none else w.query a)
      (queries : w'.queries = w.queries.filter fun a => ¬ p a)
      (cached : ∀ entry ∈ w'.cached, entry ∈ w.cached ∧ ¬ p entry.2.2)
  /-- An object is put into the list and goes without its destructor. -/
  | abandon (h : throws) (a : Nat) (dead : w.query a = none)
      (alive : ∀ b, (w'.query b).isSome = (w.query b).isSome)
      (queries : w'.queries = w.queries ++ [a]) (cached : w'.cached = w.cached)

/-- The entries of the cache are objects. -/
def Owned (w : Process) : Prop := ∀ entry ∈ w.cached, (w.query entry.2.2).isSome = true

theorem owned_start : start.Owned := fun _ h => by cases h

theorem Owned.of_effect {w w' : Process} {throws : Prop} (hw : w.Owned)
    (h : QueryEffect throws w w') : w'.Owned := by
  intro entry hentry
  cases h with
  | same h =>
      rw [h.alive]
      exact hw entry (h.cached ▸ hentry)
  | add a dead alive queries cached =>
      rw [alive]
      rcases cached entry hentry with hold | hnew
      · simp [hw entry hold]
      · simp [hnew]
  | remove p decidable query queries cached =>
      obtain ⟨hold, hp⟩ := cached entry hentry
      rw [query, if_neg hp]
      exact hw entry hold
  | abandon h a dead alive queries cached =>
      rw [alive]
      exact hw entry (cached ▸ hentry)

theorem Registered.of_effect {w w' : Process} {throws : Prop} (hw : w.Registered)
    (h : QueryEffect throws w w') (hthrows : ¬ throws) : w'.Registered := by
  cases h with
  | same h => exact hw.of_same h
  | add a dead alive queries cached => exact hw.add dead alive queries
  | remove p decidable query queries cached => exact hw.remove query queries
  | abandon h a dead alive queries cached => exact absurd h hthrows

theorem named_eq_some {w : Process} {a : Nat} {q : SqlQuery} (h : w.named a = some q) :
    w.query a = some q ∧ ∀ entry ∈ w.cached, entry.2.2 ≠ a := by
  rw [named] at h
  split_ifs at h with hcached
  refine ⟨h, fun entry hentry heq => hcached ?_⟩
  exact List.any_eq_true.mpr ⟨entry, hentry, by simpa using heq⟩

theorem findCached_eq_some {w : Process} {c text : QString} {a : Nat}
    (h : w.findCached c text = some a) : ∃ entry ∈ w.cached, entry.2.2 = a := by
  obtain ⟨entry, hfind, rfl⟩ := Option.map_eq_some_iff.mp h
  exact ⟨entry, List.mem_of_find?_eq_some hfind, rfl⟩

theorem isSome_update (query : Nat → Option SqlQuery) (a : Nat) (q : SqlQuery) (b : Nat) :
    (Function.update query a (some q) b).isSome = (decide (b = a) || (query b).isSome) := by
  by_cases hb : b = a
  · subst hb
    simp
  · simp [hb]

section
variable [CaseFolding] [HashFunction] [SqlDriver]

/-- The construction of a query object from a text, whose statement throws. -/
def ConstructorThrows (w : Process) : Event → Prop
  | .newQueryFromText a c text id env =>
      w.query a = none ∧ text ≠ [] ∧ ∃ v u, w.newQuery a c = .ok v ∧
        v.execText a ⟨c, w.resultCount⟩ text id env = .ok (false, u)
  | _ => False

omit [CaseFolding] [HashFunction] in
theorem queryEffect_newQueryFromText {w w' : Process} (hw : w.Orderly) {a : Nat}
    (ha : w.query a = none) {c text : QString} {id : Nat} {env : CallEnv}
    (h : w.newQueryFromText a c text id env = .ok w') :
    QueryEffect (ConstructorThrows w (.newQueryFromText a c text id env)) w w' := by
  obtain ⟨v, hv, hcases⟩ := newQueryFromText_eq_ok hw.free h
  have heq := hv
  rw [newQuery_eq hw.free] at heq
  have hvv := Except.ok.inj heq
  have halive : ∀ b, (v.query b).isSome = (decide (b = a) || (w.query b).isSome) := by
    intro b
    rw [← hvv]
    exact isSome_update w.query a _ b
  have hqueries : v.queries = w.queries ++ [a] := by rw [← hvv]
  have hcached : v.cached = w.cached := by rw [← hvv]
  have hvOrderly : v.Orderly := by
    rw [← hvv]
    exact hw.of_refreshed (.of_eq rfl rfl rfl rfl)
  have ha' : (v.query a).isSome = true := by simp [halive]
  rcases hcases with ⟨-, rfl⟩ | ⟨-, hexec⟩ | ⟨htext, u, hexec, rfl⟩
  · exact .add a ha halive hqueries fun entry hentry => .inl (hcached ▸ hentry)
  · have hsame := sameQueries_execText hvOrderly ha' hexec
    refine .add a ha (fun b => ?_) (hsame.queries.trans hqueries) fun entry hentry => ?_
    · rw [hsame.alive, halive]
    · rw [hsame.cached, hcached] at hentry
      exact .inl hentry
  · have hsame := sameQueries_execText hvOrderly ha' hexec
    refine .abandon ⟨ha, htext, v, u, hv, hexec⟩ a ha (fun b => ?_)
      (hsame.queries.trans hqueries) (hsame.cached.trans hcached)
    show (Function.update u.query a none b).isSome = _
    by_cases hb : b = a
    · subst hb
      simp [ha]
    · rw [Function.update_of_ne hb, hsame.alive, halive]
      simp [hb]

omit [CaseFolding] [HashFunction] [SqlDriver] in
/-- A new object that is not in the cache. -/
theorem QueryEffect.new {throws : Prop} {w w' : Process} {a : Nat} {q : SqlQuery}
    (dead : w.query a = none) (query : w'.query = Function.update w.query a (some q))
    (queries : w'.queries = w.queries ++ [a]) (cached : w'.cached = w.cached) :
    QueryEffect throws w w' := by
  refine .add a dead (fun b => ?_) queries fun entry hentry => .inl (cached ▸ hentry)
  rw [query]
  exact isSome_update w.query a q b

omit [CaseFolding] [HashFunction] [SqlDriver] in
theorem queryEffect_clearCache {throws : Prop} {w v w' : Process} (hheld : Mutex.queryMutex ∉ v.held)
    (hquery : v.query = w.query) (hqueries : v.queries = w.queries) (hcached : v.cached = w.cached)
    (h : v.clearCache = .ok w') : QueryEffect throws w w' := by
  rw [clearCache_eq hheld, hquery, hqueries, hcached] at h
  obtain rfl := Except.ok.inj h
  refine .remove (· ∈ w.cached.map (·.2.2)) inferInstance (fun b => rfl) ?_ nofun
  exact List.filter_congr fun b _ => by simp

omit [CaseFolding] [HashFunction] [SqlDriver] in
/-- An object of the program goes. -/
theorem queryEffect_destroyQuery {throws : Prop} {w w' : Process}
    (hheld : Mutex.queryMutex ∉ w.held) {a : Nat} {q : SqlQuery} (ha : w.named a = some q)
    (h : w.destroyQuery a = .ok w') : QueryEffect throws w w' := by
  rw [destroyQuery_eq hheld] at h
  obtain rfl := Except.ok.inj h
  refine .remove (· = a) inferInstance (fun b => ?_) ?_ fun entry hentry =>
    ⟨hentry, (named_eq_some ha).2 entry hentry⟩
  · exact Function.update_apply w.query a none b
  · exact List.filter_congr fun b _ => by simp

/-- What is put into the cache is a new object, or one that was found there. -/
theorem queryEffect_insertCached {throws : Prop} {w w' : Process} (hw : w.Orderly)
    (howned : w.Owned) {a b : Nat} {c text : QString}
    (h : w.step (.insertCached a c text b) = .ok w') : QueryEffect throws w w' := by
  simp only [step, insertCached, copyQuery_eq hw.free] at h
  split at h
  · next q ha hb =>
      split_ifs at h
      · split at h
        · next b' hfound =>
            obtain rfl := Except.ok.inj h
            obtain ⟨entry, hentry, rfl⟩ := findCached_eq_some hfound
            exact .same (sameQueries_putQuery (howned entry hentry) q)
        · obtain rfl := Except.ok.inj h
          refine .add a ha (isSome_update w.query a q) rfl fun entry hentry => ?_
          rcases List.mem_append.mp hentry with hold | hnew
          · exact .inl hold
          · exact .inr (by rw [List.mem_singleton.mp hnew])
      · obtain rfl := Except.ok.inj h
        exact .same (.refl w)
  · obtain rfl := Except.ok.inj h
    exact .same (.refl w)

/-- What a step does to the list of queries. -/
theorem queryEffect_step {w w' : Process} (hw : w.Orderly) (howned : w.Owned) {e : Event}
    (h : w.step e = .ok w') : QueryEffect (ConstructorThrows w e) w w' := by
  have hheld := queryMutex_not_mem hw.free
  cases e with
  | newQuery a c =>
      simp only [step, newQuery_eq hw.free] at h
      split_ifs at h with ha
      · obtain rfl := Except.ok.inj h
        exact .same (.refl w)
      · obtain rfl := Except.ok.inj h
        exact .new (by simpa using ha) rfl rfl rfl
  | newQueryFromText a c text id env =>
      simp only [step] at h
      split_ifs at h with ha
      · obtain rfl := Except.ok.inj h
        exact .same (.refl w)
      · exact queryEffect_newQueryFromText hw (by simpa using ha) h
  | copyQuery a b =>
      simp only [step, copyQuery_eq hw.free] at h
      split at h
      · next q ha hb =>
          obtain rfl := Except.ok.inj h
          exact .new ha rfl rfl rfl
      · obtain rfl := Except.ok.inj h
        exact .same (.refl w)
  | assignQuery a b =>
      simp only [step] at h
      split at h
      · next q ha hb =>
          obtain rfl := Except.ok.inj h
          exact .same (sameQueries_putQuery (by rw [(named_eq_some ha).1]; rfl) _)
      · obtain rfl := Except.ok.inj h
        exact .same (.refl w)
  | destroyQuery a =>
      simp only [step] at h
      split_ifs at h with ha
      · obtain ⟨q, hq⟩ := Option.isSome_iff_exists.mp ha
        exact queryEffect_destroyQuery hheld hq h
      · obtain rfl := Except.ok.inj h
        exact .same (.refl w)
  | exec a id env =>
      simp only [step] at h
      split at h
      · obtain ⟨returned, hexec⟩ := map_snd_eq_ok h
        exact .same (sameQueries_exec hw hexec)
      · obtain rfl := Except.ok.inj h
        exact .same (.refl w)
  | execText a text id env =>
      simp only [step] at h
      split at h
      · next q ha =>
          obtain ⟨returned, hexec⟩ := map_snd_eq_ok h
          exact .same (sameQueries_execText hw (by rw [(named_eq_some ha).1]; rfl) hexec)
      · obtain rfl := Except.ok.inj h
        exact .same (.refl w)
  | prepare a text env =>
      simp only [step] at h
      split at h
      · next q ha =>
          obtain ⟨returned, hprepare⟩ := map_snd_eq_ok h
          exact .same (sameQueries_prepare hw (by rw [(named_eq_some ha).1]; rfl) hprepare)
      · obtain rfl := Except.ok.inj h
        exact .same (.refl w)
  | bindValue a placeholder value =>
      simp only [step] at h
      split at h <;> obtain rfl := Except.ok.inj h
      · exact .same ⟨rfl, rfl, fun _ => rfl⟩
      · exact .same (.refl w)
  | insertCached a c text b => exact queryEffect_insertCached hw howned h
  | queryCached a c text =>
      simp only [step, newQuery_eq hw.free, copyQuery_eq hw.free] at h
      split_ifs at h with ha
      · obtain rfl := Except.ok.inj h
        exact .same (.refl w)
      · have hdead : w.query a = none := by simpa using ha
        split at h <;> obtain rfl := Except.ok.inj h
        · exact .new hdead rfl rfl rfl
        · exact .new hdead rfl rfl rfl
  | setCacheEnabled enable =>
      rw [step, setCacheEnabled] at h
      exact queryEffect_clearCache (v := { w with queryCacheEnabled := enable }) hheld rfl rfl rfl h
  | clearCache => exact queryEffect_clearCache hheld rfl rfl rfl h
  | newMonitor m c => exact .same (monitorEffect_step hw rfl h).sameQueries
  | setMonitorTables m tables => exact .same (monitorEffect_step hw rfl h).sameQueries
  | addValueMonitor m table column value => exact .same (monitorEffect_step hw rfl h).sameQueries
  | unsubscribeValuesNotifications m => exact .same (monitorEffect_step hw rfl h).sameQueries
  | destroyMonitor m => exact .same (monitorEffect_step hw rfl h).sameQueries
  | loseConnection c =>
      obtain rfl := Except.ok.inj h
      exact .same ⟨rfl, rfl, fun _ => rfl⟩
  | checkDbIsAlive c onMainThread opens =>
      rcases checkDbIsAlive_eq_ok hw h with rfl | hrec
      · exact .same (.refl _)
      · exact .same hrec.sameQueries

omit [CaseFolding] [HashFunction] in
/-- The list is right at every check of an operation. -/
theorem registered_checks {w : Process} (hw : w.Orderly) (hreg : w.Registered) (e : Event) :
    ∀ k ∈ e.checks w, k.state.Registered := by
  have hcalls : ∀ {u : Process} {c : QString} {env : CallEnv}
      {first : DriverOutcome → Process → Bool × Process}, u.Orderly → u.Registered →
      (∀ o v, SameQueries u v → Refreshed v (first o v).2 ∧ SameQueries v (first o v).2) →
      ∀ k ∈ checksOf c env first u, k.state.Registered := by
    intro u c env first hu hureg hfirst k hk
    have hinv := checksOf_invariant (P := fun v => v.Orderly ∧ SameQueries u v)
      (fun v v' _ _ hv hcheck => by
        rcases checkDbIsAlive_eq_ok hv.1 hcheck with rfl | hrec
        · exact hv
        · exact ⟨hv.1.of_refreshed hrec.refreshed, hv.2.trans hrec.sameQueries⟩)
      (fun o v hv =>
        ⟨hv.1.of_refreshed (hfirst o v hv.2).1, hv.2.trans (hfirst o v hv.2).2⟩)
      ⟨hu, .refl u⟩ k hk
    exact hureg.of_same hinv.2
  cases e with
  | newQueryFromText a c text id env =>
      rw [Event.checks, newQuery_eq hw.free]
      split_ifs with hstop
      · exact fun k hk => by cases hk
      · have ha : w.query a = none := by
          simpa using (not_or.mp hstop).1
        have halive := isSome_update w.query a ⟨c, w.resultCount⟩
        refine hcalls (hw.of_refreshed (.of_eq rfl rfl rfl rfl))
          (hreg.add ha halive rfl) fun o v hv => ?_
        exact sameQueries_detach_request (by rw [hv.alive, halive]; simp) _ _ id o
  | exec a id env =>
      rw [Event.checks]
      split
      · exact fun k hk => by cases hk
      · exact hcalls hw hreg fun o v _ => sameQueries_request _ id o v
  | execText a text id env =>
      rw [Event.checks]
      split
      · exact fun k hk => by cases hk
      · next q ha =>
          refine hcalls hw hreg fun o v hv => sameQueries_detach_request ?_ q _ id o
          rw [hv.alive, (named_eq_some ha).1]
          rfl
  | prepare a text env =>
      rw [Event.checks]
      split
      · exact fun k hk => by cases hk
      · next q ha =>
          refine hcalls hw hreg fun o v hv => sameQueries_requestPrepare ?_ q text o
          rw [hv.alive, (named_eq_some ha).1]
          rfl
  | checkDbIsAlive c onMainThread opens =>
      intro k hk
      obtain rfl := List.mem_singleton.mp hk
      exact hreg
  | _ => exact fun k hk => by cases hk

omit [CaseFolding] [HashFunction] in
theorem Check.run_ne_dangling {k : Check} (hk : k.state.Orderly) (hreg : k.state.Registered)
    (a : Nat) : k.run ≠ .error (.dangling a) := by
  rw [Check.run]
  rcases checkDbIsAlive_cases hk k.connectionName k.onMainThread k.opens with
    ⟨b, hb, hdead, -⟩ | ⟨-, ⟨-, hr⟩ | ⟨-, -, hr⟩ | ⟨-, -, -, hr⟩ | ⟨-, -, -, -, hr⟩ |
      ⟨-, -, -, -, v, hr, -⟩⟩
  · have halive := hreg.alive hb
    rw [hdead] at halive
    cases halive
  all_goals
    rw [hr]
    intro h
    cases h

/-- With the right list no pointer to nowhere is followed. -/
theorem step_ne_dangling {w : Process} (hw : w.Orderly) (hreg : w.Registered) (e : Event)
    (a : Nat) : w.step e ≠ .error (.dangling a) := by
  intro h
  obtain ⟨k, hk, hrun⟩ := (step_eq_error_iff hw e _).mp h
  exact Check.run_ne_dangling (orderly_checks hw e k hk) (registered_checks hw hreg e k hk) a hrun

/-- A throwing constructor leaves its object in the list. -/
theorem not_registered_of_throws {w : Process} (hw : w.Orderly) {e : Event}
    (h : ConstructorThrows w e) : ∃ w', w.step e = .ok w' ∧ ¬ w'.Registered := by
  cases e with
  | newQueryFromText a c text id env =>
      obtain ⟨ha, htext, v, u, hv, hexec⟩ := h
      have hnew := newQuery_eq hw.free a c
      have hvv := Except.ok.inj (hnew.symm.trans hv)
      have halive : (v.query a).isSome = true := by rw [← hvv, isSome_update]; simp
      have hvOrderly : v.Orderly := by
        rw [← hvv]
        exact hw.of_refreshed (.of_eq rfl rfl rfl rfl)
      refine ⟨{ u with query := Function.update u.query a none }, ?_, ?_⟩
      · have hempty : text.isEmpty = false := by simpa using htext
        rw [step, ha, newQueryFromText, hv]
        show (if text.isEmpty = true then Except.ok v
          else v.execText a ⟨c, w.resultCount⟩ text id env >>= fun r =>
            if r.1 = true then Except.ok r.2
            else Except.ok { r.2 with query := Function.update r.2.query a none }) = _
        rw [hempty, hexec]
        rfl
      · refine not_registered_of_abandoned (w := w) (a := a) (Function.update_self a none u.query) ?_
        show u.queries = w.queries ++ [a]
        rw [(sameQueries_execText hvOrderly halive hexec).queries, ← hvv]
  | _ => exact h.elim

/-- **The list of queries is right in every state of a run, and no check follows
a pointer to no object, if and only if no construction of a query object from a
text throws.** -/
theorem registered_run_iff (es : List Event) :
    Runs.Along next (fun s e => RegisteredState (next s e)) (.ok start) es ↔
      Runs.Along next (fun s e => ∀ w, s = .ok w → ¬ ConstructorThrows w e) (.ok start) es := by
  refine Runs.along_iff_of_kept (A := fun _ _ => True)
    (I := fun s => ∀ w, s = .ok w → w.Orderly ∧ w.Owned) (J := RegisteredState) ?_ ?_ ?_
    registered_start (Runs.along_true _ es)
  · intro s e hs _ w' hw'
    cases s with
    | error x => cases hw'
    | ok w =>
        obtain ⟨hw, howned⟩ := hs w rfl
        exact ⟨orderly_step hw hw', howned.of_effect (queryEffect_step hw howned hw')⟩
  · intro s e hs _ hreg
    cases s with
    | error x =>
        constructor
        · intro _ w hw
          cases hw
        · exact fun _ => hreg
    | ok w =>
        obtain ⟨hw, howned⟩ := hs w rfl
        constructor
        · rintro hnext _ ⟨⟩ hthrows
          obtain ⟨w', hstep, hnot⟩ := not_registered_of_throws hw hthrows
          rw [show next (.ok w) e = .ok w' from hstep] at hnext
          exact hnot hnext
        · intro hthrows
          show RegisteredState (w.step e)
          cases hstep : w.step e with
          | ok w' =>
              exact Registered.of_effect hreg (queryEffect_step hw howned hstep) (hthrows w rfl)
          | error x =>
              cases x with
              | dangling a => exact step_ne_dangling hw hreg e a hstep
              | blocked m => trivial
              | exited => trivial
  · rintro _ ⟨⟩
    exact ⟨orderly_start, owned_start⟩

end

/-! ### A statement that is refused -/

/-- A query object is constructed from a text, and the server refuses it. -/
def refusedConstruction : List Event :=
  [.newQueryFromText 0 (latin1 "db") (latin1 "SELEC 1") 0
    ⟨true, [], .refusal, [], .refusal⟩]

theorem not_registered_refusedConstruction :
    let _ : CaseFolding := .ascii
    let _ : HashFunction := ⟨fun _ => 0⟩
    let _ : SqlDriver := ⟨fun _ => [], fun _ => true⟩
    ¬ Runs.Along next (fun s e => RegisteredState (next s e)) (.ok start) refusedConstruction := by
  intro _ _ _ h
  have hcount := h.1 0
  exact absurd hcount (by decide)

end Sqlate.Process
