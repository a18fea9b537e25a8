/-
Sqlate/UpdateRequests.lean

The requests of an update, and the flag of the query cache after it.

`updateRequests` lists what `execUpdates` asks the server when nothing fails:
the missing tables and columns, the scripts that are there, the rules and the
version.  `Performs` is what a step of the update has to do with such a list;
it comes to its end exactly when none of the listed requests fails.

The cache is off during an update and on again at the very end, so
`cacheEnabled_execUpdates_iff` says when it is on afterwards, in terms of the
state before the call, the answer of the user and the requests that fail.
-/
import Sqlate.UpdateProgress

namespace Sqlate

namespace Database

variable [CaseFolding]

/-- The tables of `createMissingTables`. -/
def withTables (db : Database) (tables : List SchemaTable) : Database :=
  (tables.filter db.lacksTable).foldl createTable db

/-- The columns of `missing_column_creator`. -/
def withColumns (db : Database) (t : SchemaTable) : Database :=
  (t.columns.filter (db.lacksColumn t)).foldl (fun db column => db.addColumn t column) db

end Database

namespace Updates

open Runs

section
variable [CaseFolding]

def tableRequests (db : Database) (tables : List SchemaTable) : List UpdateRequest :=
  (tables.filter db.lacksTable).map fun t => .createTable t.createTableStatement

def columnRequests (db : Database) : List SchemaTable → List UpdateRequest
  | [] => []
  | t :: ts =>
      .readColumns t.tableName ::
        (t.columns.filter (db.lacksColumn t)).map (fun c => .addColumn (t.alterStatement c)) ++
        columnRequests (db.withColumns t) ts

end

/-- The statements that a script leaves without its comments. -/
def scriptStatements (content : QString) : List QString :=
  ((SqlUtils.splitQueries content).map SqlUtils.stripComments).filter fun s => !s.isEmpty

def scriptRequests {p : Program} (update : UpdateInfo p) : List UpdateRequest :=
  .begin :: (scriptStatements update.content).map .script ++ [.setVersion update.version, .commit]

/-- The version of the last script. -/
def lastVersion {p : Program} (current : Int) (updates : List (UpdateInfo p)) : Int :=
  updates.foldl (fun _ update => update.version) current

/-- The version that `needsUpdate` goes by. -/
def knownVersion (s : Updates) : Int :=
  if 0 ≤ s.currentVersion then s.currentVersion else s.db.version

section
variable [CaseFolding]

/-- The requests of `updateSteps`. -/
def stepRequests (p : Program) (s : Updates) : List UpdateRequest :=
  tableRequests s.db s.schema.tables ++
    (columnRequests (s.db.withTables s.schema.tables) s.schema.tables ++
      ((s.pendingUpdates p).flatMap scriptRequests ++
        (s.schema.rulesPermissionsAndTriggers.map .rule ++
          if lastVersion s.currentVersion (s.pendingUpdates p) < s.targetVersion then
            [.setVersion s.targetVersion]
          else [])))

/-- The requests of `execUpdates` when the schema is outdated and nothing fails. -/
def updateRequests (p : Program) (s : Updates) : List UpdateRequest :=
  (if 0 ≤ s.currentVersion then [] else [.readVersion]) ++
    { s with currentVersion := s.knownVersion }.stepRequests p

end

/-! ### Performing requests -/

section
variable {ξ : Type} {env : UpdateEnv} {P P' : Updates → Prop}

/-- None of these requests fails, when they are the next ones. -/
def Clear (env : UpdateEnv) (s : Updates) (rs : List UpdateRequest) : Prop :=
  ∀ k < rs.length, env.fails (s.requests.length + k) = none

/-- A computation from `s` makes the requests `rs` and ends with `P`, unless one
of them fails. -/
def Performs (env : UpdateEnv) (rs : List UpdateRequest) (P : Updates → Prop) (s : Updates)
    (r : Except ξ Updates) : Prop :=
  ∃ t, t.requests = s.requests ++ rs ∧ P t ∧ (Clear env s rs → r = .ok t) ∧
    (¬ Clear env s rs → ∃ x, r = .error x)

theorem clear_append {s t : Updates} {rs rs' : List UpdateRequest}
    (ht : t.requests = s.requests ++ rs) :
    Clear env s (rs ++ rs') ↔ Clear env s rs ∧ Clear env t rs' := by
  rw [Clear, Clear, Clear, ht]
  simp only [List.length_append]
  constructor
  · intro h
    refine ⟨fun k hk => h k (by omega), fun k hk => ?_⟩
    rw [Nat.add_assoc]
    exact h _ (by omega)
  · rintro ⟨hfirst, hrest⟩ k hk
    by_cases hlt : k < rs.length
    · exact hfirst k hlt
    · have h := hrest (k - rs.length) (by omega)
      rwa [Nat.add_assoc, Nat.add_sub_cancel' (Nat.le_of_not_lt hlt)] at h

theorem Performs.pure {s : Updates} (hs : P s) :
    Performs env [] P s (.ok s : Except ξ Updates) :=
  ⟨s, (List.append_nil _).symm, hs, fun _ => rfl, fun h => absurd (fun k hk => by cases hk) h⟩

theorem Performs.imp {rs : List UpdateRequest} {s : Updates} {r : Except ξ Updates}
    (h : Performs env rs P s r) (hP : ∀ t, P t → P' t) : Performs env rs P' s r := by
  obtain ⟨t, ht, hPt, hr⟩ := h
  exact ⟨t, ht, hP t hPt, hr⟩

theorem Performs.bind {rs rs' : List UpdateRequest} {s : Updates} {r : Except ξ Updates}
    {f : Updates → Except ξ Updates} (h : Performs env rs P s r)
    (hf : ∀ t, P t → Performs env rs' P' t (f t)) :
    Performs env (rs ++ rs') P' s (r >>= f) := by
  obtain ⟨t, ht, hPt, hok, hstop⟩ := h
  obtain ⟨u, hu, hPu, hok', hstop'⟩ := hf t hPt
  refine ⟨u, by rw [hu, ht, List.append_assoc], hPu, fun hclear => ?_, fun hclear => ?_⟩
  · obtain ⟨hfirst, hrest⟩ := (clear_append ht).mp hclear
    rw [hok hfirst]
    exact hok' hrest
  · rw [clear_append ht] at hclear
    by_cases hfirst : Clear env s rs
    · rw [hok hfirst]
      exact hstop' fun hrest => hclear ⟨hfirst, hrest⟩
    · obtain ⟨x, hx⟩ := hstop hfirst
      exact ⟨x, by rw [hx]; rfl⟩

/-- A request in front. -/
theorem Performs.cons {first : UpdateRequest} {rs : List UpdateRequest} {s : Updates}
    {r : Except ξ Updates} {f : Updates → Except ξ Updates} (h : Performs env [first] P s r)
    (hf : ∀ t, P t → Performs env rs P' t (f t)) :
    Performs env (first :: rs) P' s (r >>= f) :=
  h.bind hf

/-- A result that is changed afterwards. -/
theorem Performs.map {rs : List UpdateRequest} {s : Updates} {r : Except ξ Updates}
    {g : Updates → Updates} (h : Performs env rs P s r)
    (hg : ∀ t, P t → (g t).requests = t.requests ∧ P' (g t)) :
    Performs env rs P' s (r >>= fun t => .ok (g t)) := by
  obtain ⟨t, ht, hPt, hok, hstop⟩ := h
  refine ⟨g t, by rw [(hg t hPt).1, ht], (hg t hPt).2, fun hclear => ?_, fun hclear => ?_⟩
  · rw [hok hclear]
    rfl
  · obtain ⟨x, hx⟩ := hstop hclear
    exact ⟨x, by rw [hx]; rfl⟩

/-- A loop; its invariant is about the state and the rounds to come. -/
theorem Performs.foldlM {α : Type} {f : Updates → α → Except ξ Updates}
    {I : List α → Updates → Prop} {requestsOf : α → List UpdateRequest}
    (hstep : ∀ a as s, I (a :: as) s → Performs env (requestsOf a) (I as) s (f s a)) {as : List α}
    {s : Updates} (hs : I as s) :
    Performs env (as.flatMap requestsOf) (I []) s (as.foldlM f s) := by
  induction as generalizing s with
  | nil => exact .pure hs
  | cons a as ih =>
      rw [List.flatMap_cons, List.foldlM_cons]
      exact (hstep a as s hs).bind fun t ht => ih ht

theorem performs_request {s : Updates} (r : UpdateRequest)
    (hP : P { s with requests := s.requests ++ [r] }) :
    Performs env [r] P s (s.request env r) := by
  refine ⟨_, rfl, hP, fun hclear => ?_, fun hclear => ?_⟩
  · have h := hclear 0 Nat.one_pos
    rw [Nat.add_zero] at h
    rw [request, h]
  · have h : env.fails s.requests.length ≠ none := by
      intro hnone
      refine hclear fun k hk => ?_
      obtain rfl : k = 0 := Nat.lt_one_iff.mp hk
      exact hnone
    obtain ⟨text, htext⟩ := Option.ne_none_iff_exists'.mp h
    exact ⟨_, by rw [request, htext]⟩

theorem Performs.guarded {rs : List UpdateRequest} {s : Updates} {body : Updates → Thrown}
    (h : Performs env rs P s (body s)) (message : QString → QString) :
    Performs env rs P s (s.guarded body message) := by
  obtain ⟨t, ht, hPt, hok, hstop⟩ := h
  refine ⟨t, ht, hPt, fun hclear => ?_, fun hclear => ?_⟩
  · rw [Updates.guarded, hok hclear]
  · obtain ⟨⟨text, u⟩, hx⟩ := hstop hclear
    exact ⟨_, by rw [Updates.guarded, hx]⟩

end

/-! ### The requests of the steps -/

/-- The database and the remembered version, with the schema and the target of
`s`. -/
structure On (s : Updates) (db : Database) (current : Int) (t : Updates) : Prop where
  db_eq : t.db = db
  current_eq : t.currentVersion = current
  schema_eq : t.schema = s.schema
  target_eq : t.targetVersion = s.targetVersion

theorem on_self (s : Updates) : On s s.db s.currentVersion s := ⟨rfl, rfl, rfl, rfl⟩

section
variable {env : UpdateEnv} {s : Updates} {db : Database} {current : Int}

/-- Requests that some of the elements of a list take, one each. -/
theorem flatMap_ite {α β : Type} (as : List α) (c : α → Bool) (g : α → β) :
    (as.flatMap fun a => if c a then [g a] else []) = (as.filter c).map g := by
  induction as with
  | nil => rfl
  | cons a as ih =>
      rw [List.flatMap_cons, ih]
      cases hc : c a with
      | true => simp [hc]
      | false => simp [hc]

section
variable [CaseFolding]

theorem performs_createMissingTables {t : Updates} (ht : On s db current t) :
    Performs env (tableRequests db s.schema.tables)
      (On s (db.withTables s.schema.tables) current) t (t.createMissingTables env) := by
  let I : List SchemaTable → Updates → Prop := fun ts u => ∃ db', On s db' current u ∧
    (ts.filter db.lacksTable).foldl Database.createTable db' = db.withTables s.schema.tables
  rw [createMissingTables, ht.schema_eq, ht.db_eq, tableRequests, ← flatMap_ite]
  refine (Performs.foldlM (I := I) ?_ ⟨db, ht, rfl⟩).imp fun u ⟨db', hu, hdb⟩ => ?_
  · rintro table tables u ⟨db', hu, hdb⟩
    rw [createMissingTable]
    split
    · next hlacks =>
        rw [List.filter_cons_of_pos hlacks, List.foldl_cons] at hdb
        refine (performs_request (P := On s db' current) _
          ⟨hu.db_eq, hu.current_eq, hu.schema_eq, hu.target_eq⟩).map fun v hv => ⟨rfl, ?_⟩
        refine ⟨db'.createTable table, ⟨?_, hv.current_eq, hv.schema_eq, hv.target_eq⟩, hdb⟩
        show v.db.createTable table = db'.createTable table
        rw [hv.db_eq]
    · next hlacks =>
        rw [List.filter_cons_of_neg hlacks] at hdb
        exact .pure ⟨db', hu, hdb⟩
  · rw [List.filter_nil, List.foldl_nil] at hdb
    rw [← hdb]
    exact hu

theorem performs_createColumnsOf {t : Updates} (ht : On s db current t) (table : SchemaTable) :
    Performs env
      (.readColumns table.tableName ::
        (table.columns.filter (db.lacksColumn table)).map
          fun c => .addColumn (table.alterStatement c))
      (On s (db.withColumns table) current) t (t.createColumnsOf env table) := by
  let I : List (QString × QString) → Updates → Prop := fun cs u => ∃ db', On s db' current u ∧
    (cs.filter (db.lacksColumn table)).foldl (fun db column => db.addColumn table column) db' =
      db.withColumns table
  refine (performs_request (P := On s db current) (.readColumns table.tableName)
    ⟨ht.db_eq, ht.current_eq, ht.schema_eq, ht.target_eq⟩).cons fun u hu => ?_
  rw [hu.db_eq, ← flatMap_ite]
  refine (Performs.foldlM (I := I) ?_ ⟨db, hu, rfl⟩).imp fun v ⟨db', hv, hdb⟩ => ?_
  · rintro column columns v ⟨db', hv, hdb⟩
    rw [createMissingColumn]
    split
    · next hlacks =>
        rw [List.filter_cons_of_pos hlacks, List.foldl_cons] at hdb
        refine (performs_request (P := On s db' current) _
          ⟨hv.db_eq, hv.current_eq, hv.schema_eq, hv.target_eq⟩).map fun w hw => ⟨rfl, ?_⟩
        refine ⟨db'.addColumn table column, ⟨?_, hw.current_eq, hw.schema_eq, hw.target_eq⟩, hdb⟩
        show w.db.addColumn table column = db'.addColumn table column
        rw [hw.db_eq]
    · next hlacks =>
        rw [List.filter_cons_of_neg hlacks] at hdb
        exact .pure ⟨db', hv, hdb⟩
  · rw [List.filter_nil, List.foldl_nil] at hdb
    rw [← hdb]
    exact hv

theorem performs_createMissingColumns {t : Updates} (ht : On s db current t) :
    Performs env (columnRequests db s.schema.tables)
      (fun u => ∃ db', On s db' current u) t (t.createMissingColumns env) := by
  rw [createMissingColumns, ht.schema_eq]
  induction s.schema.tables generalizing db t with
  | nil => exact .pure ⟨db, ht⟩
  | cons table tables ih =>
      rw [List.foldlM_cons]
      exact (performs_createColumnsOf ht table).bind fun u hu => ih hu

end

/-- Requests that only leave a trace in the list of requests. -/
theorem performs_foldlM_request {α : Type} {f : Updates → α → Thrown}
    {requestsOf : α → List UpdateRequest}
    (hf : ∀ u a, On s db current u →
      Performs env (requestsOf a) (On s db current) u (f u a)) {t : Updates}
    (ht : On s db current t) (as : List α) :
    Performs env (as.flatMap requestsOf) (On s db current) t (as.foldlM f t) :=
  Performs.foldlM (I := fun _ => On s db current) (fun a _ u hu => hf u a hu) ht

theorem performs_request_on {t : Updates} (ht : On s db current t) (r : UpdateRequest) :
    Performs env [r] (On s db current) t (t.request env r) :=
  performs_request r ⟨ht.db_eq, ht.current_eq, ht.schema_eq, ht.target_eq⟩

theorem performs_createRules {t : Updates} (ht : On s db current t) :
    Performs env (s.schema.rulesPermissionsAndTriggers.map .rule) (On s db current) t
      (t.createRulesPermissionsAndTriggers env) := by
  rw [createRulesPermissionsAndTriggers, ht.schema_eq, List.map_eq_flatMap]
  exact performs_foldlM_request (fun u r hu => performs_request_on hu _) ht _

theorem performs_execUpdate {p : Program} {t : Updates} (ht : On s db current t)
    (update : UpdateInfo p) :
    Performs env ((scriptStatements update.content).map .script) (On s db current) t
      (t.execUpdate env update) := by
  have hrequests : (scriptStatements update.content).map UpdateRequest.script =
      (SqlUtils.splitQueries update.content).flatMap fun statement =>
        if !(SqlUtils.stripComments statement).isEmpty then
          [.script (SqlUtils.stripComments statement)]
        else [] := by
    rw [flatMap_ite, scriptStatements, List.filter_map, List.map_map]
    rfl
  rw [hrequests]
  refine performs_foldlM_request (fun u statement hu => ?_) ht _
  rw [execScriptStatement]
  cases hempty : (SqlUtils.stripComments statement).isEmpty with
  | true => exact .pure hu
  | false => exact performs_request_on hu _

theorem performs_applyScript {p : Program} {t : Updates} (ht : On s db current t)
    (update : UpdateInfo p) :
    Performs env (scriptRequests update) (fun u => ∃ db', On s db' current u) t
      (t.applyScript env update) := by
  have hcommit : ∀ u : Updates, On s db current u → ∃ db', On s db' current (u.committed update) :=
    fun u hu => ⟨_, rfl, hu.current_eq, hu.schema_eq, hu.target_eq⟩
  refine (performs_request_on ht .begin).cons fun u hu => ?_
  refine (performs_execUpdate hu update).bind fun v hv => ?_
  refine (performs_request_on hv (.setVersion update.version)).cons fun w hw => ?_
  exact (performs_request_on hw _).map fun x hx => ⟨rfl, hcommit x hx⟩

theorem performs_runUpdate {p : Program} {t : Updates} (ht : ∃ db, On s db current t)
    (update : UpdateInfo p) :
    Performs env (scriptRequests update) (fun u => ∃ db', On s db' update.version u) t
      (t.runUpdate env update) := by
  obtain ⟨db, ht⟩ := ht
  have hemit : On s db current (t.emit (.info
      ((latin1 "Upgrading schema to version %1...").arg (QString.numberInt update.version)))) :=
    ⟨ht.db_eq, ht.current_eq, ht.schema_eq, ht.target_eq⟩
  refine ((performs_applyScript hemit update).guarded _).map fun u ⟨db', hu⟩ => ⟨rfl, db', ?_⟩
  exact ⟨hu.db_eq, rfl, hu.schema_eq, hu.target_eq⟩

theorem performs_scripts (p : Program) {t : Updates} (ht : On s db current t) :
    Performs env ((t.pendingUpdates p).flatMap scriptRequests)
      (fun u => ∃ db', On s db' (lastVersion current (t.pendingUpdates p)) u) t
      ((t.pendingUpdates p).foldlM (runUpdate env) t) := by
  let I : List (UpdateInfo p) → Updates → Prop := fun us u => ∃ db' current', On s db' current' u ∧
    lastVersion current' us = lastVersion current (t.pendingUpdates p)
  refine (Performs.foldlM (I := I) ?_ ⟨db, current, ht, rfl⟩).imp ?_
  · rintro update us u ⟨db', current', hu, hlast⟩
    exact (performs_runUpdate ⟨db', hu⟩ update).imp fun v ⟨db'', hv⟩ => ⟨db'', _, hv, hlast⟩
  · rintro u ⟨db', current', hu, hlast⟩
    have hcurrent : current' = lastVersion current (t.pendingUpdates p) := hlast
    rw [← hcurrent]
    exact ⟨db', hu⟩

theorem pendingUpdates_congr {p : Program} {t u : Updates} (hcurrent : t.currentVersion = u.currentVersion)
    (htarget : t.targetVersion = u.targetVersion) : t.pendingUpdates p = u.pendingUpdates p := by
  rw [pendingUpdates, pendingUpdates, hcurrent, htarget]

section
variable [CaseFolding]

/-- An update makes its requests, in this order. -/
theorem performs_updateSteps (p : Program) (env : UpdateEnv) (s : Updates) :
    Performs env (s.stepRequests p) (fun _ => True) s (s.updateSteps p env) := by
  refine ((performs_createMissingTables (on_self s)).guarded _).bind fun t ht => ?_
  refine ((performs_createMissingColumns ht).guarded _).bind fun u ⟨db, hu⟩ => ?_
  have hpending : u.pendingUpdates p = s.pendingUpdates p :=
    pendingUpdates_congr hu.current_eq hu.target_eq
  have hscripts : Performs env ((u.pendingUpdates p).flatMap scriptRequests) _ u _ :=
    performs_scripts p hu
  rw [hpending] at hscripts
  show Performs _ _ _ _ (List.foldlM _ _ (u.pendingUpdates p) >>= _)
  rw [hpending]
  refine hscripts.bind fun v ⟨db', hv⟩ => ?_
  refine ((performs_createRules hv).guarded _).bind fun w hw => ?_
  rw [hw.current_eq, hw.target_eq]
  split
  · refine Performs.guarded ?_ _
    rw [raiseVersion, hw.target_eq]
    exact (performs_request (P := fun _ => True) _ trivial).map fun x _ => ⟨rfl, trivial⟩
  · exact .pure trivial

/-! ### The flag of the query cache -/

/-- A call runs an update to its end: the schema is outdated, the user does not
decline, and none of the requests fails. -/
structure Completes (p : Program) (interactive : Bool) (env : UpdateEnv) (s : Updates) : Prop where
  outdated : s.knownVersion < s.targetVersion
  applies : interactive = true → env.applies = true
  succeeds : ∀ k < (s.updateRequests p).length, env.fails k = none

end

end

/-- The flag is not touched while an update is going on. -/
theorem stable_cacheEnabled (enabled : Bool) :
    Stable fun s => s.queryCache.queryCacheEnabled = enabled where
  requests _ _ hs := hs
  emit _ _ hs := hs
  exit _ _ hs := hs
  tables _ _ hs := hs

/-- What `needsUpdate` answers, and the requests that are left to the update. -/
theorem needsUpdate_true_iff (env : UpdateEnv) (s : Updates) :
    (s.needsUpdate env).1 = true ↔ s.knownVersion < s.targetVersion ∧
      Clear env s (if 0 ≤ s.currentVersion then [] else [.readVersion]) := by
  rw [needsUpdate, knownVersion]
  split
  · next hknown => simp [Clear]
  · next hknown =>
      have hclear : Clear env s [.readVersion] ↔ env.fails s.requests.length = none := by
        simp [Clear]
      rw [hclear, request]
      cases env.fails s.requests.length with
      | none => simp
      | some text => simp

theorem needsUpdate_of_true {env : UpdateEnv} {s : Updates} (h : (s.needsUpdate env).1 = true) :
    (s.needsUpdate env).2 = { s with
      currentVersion := s.knownVersion
      requests := s.requests ++ if 0 ≤ s.currentVersion then [] else [.readVersion] } := by
  revert h
  rw [needsUpdate, knownVersion]
  split
  · next hknown => simp
  · next hknown =>
      rw [request]
      cases env.fails s.requests.length with
      | none => exact fun _ => rfl
      | some text => exact fun h => by cases h

theorem needsUpdate_queryCache (env : UpdateEnv) (s : Updates) :
    (s.needsUpdate env).2.queryCache = s.queryCache := by
  rcases needsUpdate_cases env s with ⟨-, h⟩ | ⟨rs, h⟩ | ⟨rs, m, h⟩
  · rw [h]
  · rw [h]
  · rw [h]
    rfl

section
variable [CaseFolding]

theorem updateSteps_cacheEnabled (p : Program) (env : UpdateEnv) {enabled : Bool} {s : Updates}
    (hs : s.queryCache.queryCacheEnabled = enabled) :
    Ends (fun t => t.queryCache.queryCacheEnabled = enabled)
      (fun t => t.queryCache.queryCacheEnabled = enabled) (s.updateSteps p env) := by
  have hC := stable_cacheEnabled enabled
  have hguard : ∀ {body : Updates → Thrown} {message : QString → QString} {t : Updates},
      Ends (fun u => u.queryCache.queryCacheEnabled = enabled)
        (fun e => e.2.queryCache.queryCacheEnabled = enabled) (body t) →
      Ends (fun u => u.queryCache.queryCacheEnabled = enabled)
        (fun u => u.queryCache.queryCacheEnabled = enabled) (t.guarded body message) :=
    fun hbody => (guarded_ends hC hbody _).imp (fun _ h => h) fun _ h => h.1
  refine (hguard (createMissingTables_ends hC hs env)).bind fun t ht => ?_
  refine (hguard (createMissingColumns_ends hC ht env)).bind fun u hu => ?_
  have hscripts : Ends (fun v => v.queryCache.queryCacheEnabled = enabled)
      (fun v => v.queryCache.queryCacheEnabled = enabled)
      ((u.pendingUpdates p).foldlM (runUpdate env) u) :=
    Ends.foldlM (I := fun _ v => v.queryCache.queryCacheEnabled = enabled)
      (fun update _ v hv => (runUpdate_ends hC hC env hv update fun _ h => h).imp
        (fun _ h => h) fun _ h => h.1) hu
  refine hscripts.bind fun v hv => ?_
  refine (hguard (createRules_ends hC hv env)).bind fun w hw => ?_
  split
  · exact hguard (raiseVersion_ends hC env hw fun _ h => h)
  · exact hw

theorem cacheEnabled_updateSteps_iff (p : Program) (env : UpdateEnv) {s : Updates}
    (hs : s.queryCache.queryCacheEnabled = false) :
    (match s.updateSteps p env with
      | .error t => t
      | .ok t => t.setCacheEnabled true).queryCache.queryCacheEnabled = true ↔
      Clear env s (s.stepRequests p) := by
  have hcache := updateSteps_cacheEnabled p env hs
  obtain ⟨t, -, -, hok, hstop⟩ := performs_updateSteps p env s
  by_cases hclear : Clear env s (s.stepRequests p)
  · rw [hok hclear]
    exact iff_of_true rfl hclear
  · obtain ⟨u, hu⟩ := hstop hclear
    rw [hu] at hcache ⊢
    have hoff : u.queryCache.queryCacheEnabled = false := hcache
    refine iff_of_false (fun hon => ?_) hclear
    rw [hoff] at hon
    cases hon

/-- The version is read before the update makes its requests. -/
theorem completes_iff (p : Program) (interactive : Bool) (env : UpdateEnv) {s t : Updates}
    (hs : s.requests = [])
    (ht : t.requests = s.requests ++ if 0 ≤ s.currentVersion then [] else [.readVersion]) :
    s.Completes p interactive env ↔ s.knownVersion < s.targetVersion ∧
      Clear env s (if 0 ≤ s.currentVersion then [] else [.readVersion]) ∧
      (interactive = true → env.applies = true) ∧
      Clear env t ({ s with currentVersion := s.knownVersion }.stepRequests p) := by
  have hnew : Clear env s (s.updateRequests p) ↔
      ∀ k < (s.updateRequests p).length, env.fails k = none := by
    rw [Clear, hs]
    simp only [List.length_nil, Nat.zero_add]
  rw [updateRequests, clear_append ht] at hnew
  constructor
  · intro h
    obtain ⟨hread, hsteps⟩ := hnew.mpr h.succeeds
    exact ⟨h.outdated, hread, h.applies, hsteps⟩
  · rintro ⟨houtdated, hread, happlies, hsteps⟩
    exact ⟨houtdated, happlies, hnew.mp ⟨hread, hsteps⟩⟩

/-- The cache is on after a call exactly when the call has run an update to its
end. -/
theorem cacheEnabled_execUpdates_iff (p : Program) (interactive : Bool) (env : UpdateEnv)
    {s : Updates} (hs : s.requests = []) :
    (s.execUpdates p interactive env).queryCache.queryCacheEnabled = true ↔
      s.Completes p interactive env := by
  have hneeds := needsUpdate_true_iff env (s.setCacheEnabled false)
  have hoff : ((s.setCacheEnabled false).needsUpdate env).2.queryCache.queryCacheEnabled ≠
      true := by
    rw [needsUpdate_queryCache]
    exact Bool.false_ne_true
  rw [execUpdates, completes_iff p interactive env hs (t := { s with
    requests := s.requests ++ if 0 ≤ s.currentVersion then [] else [.readVersion] }) rfl]
  cases hr : ((s.setCacheEnabled false).needsUpdate env).1 with
  | false =>
      rw [hr] at hneeds
      refine iff_of_false hoff ?_
      rintro ⟨houtdated, hread, -⟩
      exact Bool.false_ne_true (hneeds.mpr ⟨houtdated, hread⟩)
  | true =>
      rw [hr] at hneeds
      obtain ⟨houtdated, hread⟩ := hneeds.mp rfl
      have hstate := needsUpdate_of_true hr
      simp only [Bool.not_true, Bool.false_eq_true, if_false]
      split
      · next hdeclined =>
          refine iff_of_false hoff ?_
          rintro ⟨-, -, happlies, -⟩
          rw [Bool.and_eq_true, Bool.not_eq_true'] at hdeclined
          rw [happlies hdeclined.1] at hdeclined
          cases hdeclined.2
      · next hgoes =>
          have happlies : interactive = true → env.applies = true := by
            intro hinteractive
            rw [hinteractive, Bool.true_and, Bool.not_eq_true', Bool.not_eq_false] at hgoes
            exact hgoes
          have hupdate := cacheEnabled_updateSteps_iff p env
            (s := ((s.setCacheEnabled false).needsUpdate env).2.emit (.error (outdatedText p)))
            (Bool.eq_false_of_not_eq_true hoff)
          refine hupdate.trans ?_
          rw [hstate]
          exact ⟨fun h => ⟨houtdated, hread, happlies, h⟩, fun h => h.2.2.2⟩

/-- **The flag is after a call what it was before, if and only if it was on and the
call runs an update to its end, or it was off and the call does not.** -/
theorem cacheEnabled_kept_iff (p : Program) (interactive : Bool) (env : UpdateEnv)
    (s : Updates) :
    (s.step p (.execUpdates interactive env)).queryCache.queryCacheEnabled =
        s.queryCache.queryCacheEnabled ↔
      (s.queryCache.queryCacheEnabled = true ↔ s.Completes p interactive env) := by
  have hcall := cacheEnabled_execUpdates_iff p interactive env (s := s.newCall) rfl
  have hnew : s.newCall.Completes p interactive env ↔ s.Completes p interactive env :=
    ⟨fun h => ⟨h.outdated, h.applies, h.succeeds⟩, fun h => ⟨h.outdated, h.applies, h.succeeds⟩⟩
  rw [← hnew, ← hcall, Bool.eq_iff_iff]
  exact iff_comm

end

/-- The schema is up to date, and the cache is off afterwards. -/
theorem cacheEnabled_upToDate :
    let _ : CaseFolding := .ascii
    ¬ ∀ (p : Program) (interactive : Bool) (env : UpdateEnv) (s : Updates),
      (s.step p (.execUpdates interactive env)).queryCache.queryCacheEnabled =
        s.queryCache.queryCacheEnabled := by
  intro _ h
  have hkept := h ⟨fun _ => none, none⟩ false ⟨true, fun _ => none⟩
    (starting 1 [] ⟨fun _ _ => none, true⟩ ⟨[], []⟩ 1)
  exact Bool.false_ne_true hkept

end Updates

end Sqlate
