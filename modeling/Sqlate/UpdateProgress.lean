/-
Sqlate/UpdateProgress.lean

The progress of updates.

`Progress` is the invariant: in the present and every former durable state of
the database the applied scripts are those from the start version up to the
stored one, and the version that the updater remembers, if it does, is the
stored one.  A step of an update either leaves both records alone or moves
them together, wherever it fails; `updateSteps_progress` puts the steps
together, `progress_step` is about a call and `applied_of_run` about any
number of calls.
-/
import Mathlib.Data.List.Pairwise
import Sqlate.Base.Runs
import Sqlate.SchemaUpdater

namespace Sqlate.Updates

open Runs

/-! ### The scripts between two versions -/

theorem versionsBetween_of_le {low high : Int} (h : high ≤ low) : versionsBetween low high = [] := by
  rw [versionsBetween, show (high - low).toNat = 0 by omega]
  rfl

theorem versionsBetween_of_lt {low high : Int} (h : low < high) :
    versionsBetween low high = (low + 1) :: versionsBetween (low + 1) high := by
  obtain ⟨n, hn⟩ : ∃ n : Nat, (high - low).toNat = n + 1 := ⟨(high - low).toNat - 1, by omega⟩
  rw [versionsBetween, versionsBetween, hn, show (high - (low + 1)).toNat = n by omega,
    List.range_succ_eq_map]
  simp only [List.map_cons, List.map_map, Nat.cast_zero, add_zero]
  refine congrArg _ (List.map_congr_left fun k _ => ?_)
  simp only [Function.comp, Nat.succ_eq_add_one, Nat.cast_add, Nat.cast_one]
  omega

theorem mem_versionsBetween {low high i : Int} :
    i ∈ versionsBetween low high ↔ low < i ∧ i ≤ high := by
  simp only [versionsBetween, List.mem_map, List.mem_range]
  constructor
  · rintro ⟨k, hk, rfl⟩
    omega
  · rintro ⟨hlow, hhigh⟩
    exact ⟨(i - low - 1).toNat, by omega, by omega⟩

theorem pairwise_versionsBetween (low high : Int) :
    (versionsBetween low high).Pairwise (· < ·) := by
  rw [versionsBetween, List.pairwise_map]
  exact List.pairwise_lt_range.imp fun h => by omega

theorem versionsBetween_append {low mid high : Int} (hlow : low ≤ mid) (hhigh : mid ≤ high) :
    versionsBetween low mid ++ versionsBetween mid high = versionsBetween low high := by
  obtain ⟨n, rfl⟩ : ∃ n : Nat, mid = low + n := ⟨(mid - low).toNat, by omega⟩
  clear hlow
  induction n generalizing low with
  | zero =>
      rw [versionsBetween_of_le (by omega)]
      simp
  | succ n ih =>
      have hmid : low < low + ((n + 1 : Nat) : Int) := by omega
      rw [versionsBetween_of_lt hmid, versionsBetween_of_lt (hmid.trans_le hhigh),
        List.cons_append]
      refine congrArg _ ?_
      have hshift : low + ((n + 1 : Nat) : Int) = low + 1 + n := by
        push_cast
        omega
      rw [hshift] at hhigh ⊢
      exact ih hhigh

variable (p : Program)

/-- The versions of the scripts above `low`, up to `high`. -/
def scripts (low high : Int) : List Int :=
  (versionsBetween low high).filter fun i => (p.files (p.updateFile i)).isSome

variable {p}

theorem scripts_of_le {low high : Int} (h : high ≤ low) : scripts p low high = [] := by
  rw [scripts, versionsBetween_of_le h]
  rfl

theorem mem_scripts {low high i : Int} :
    i ∈ scripts p low high ↔ low < i ∧ i ≤ high ∧ (p.files (p.updateFile i)).isSome = true := by
  rw [scripts, List.mem_filter, mem_versionsBetween, and_assoc]

theorem scripts_append {low mid high : Int} (hlow : low ≤ mid) (hhigh : mid ≤ high) :
    scripts p low mid ++ scripts p mid high = scripts p low high := by
  rw [scripts, scripts, scripts, ← List.filter_append, versionsBetween_append hlow hhigh]

/-- The first script is alone up to its version, and the others are above it. -/
theorem scripts_eq_cons {low high i : Int} {rest : List Int} (h : scripts p low high = i :: rest) :
    low < i ∧ i ≤ high ∧ scripts p low i = [i] ∧ scripts p i high = rest := by
  have hi : i ∈ scripts p low high := by simp [h]
  obtain ⟨hlow, hhigh, hfile⟩ := mem_scripts.mp hi
  have hsplit := scripts_append (p := p) hlow.le hhigh
  -- nothing below `i` is in the list, which is sorted
  have hbelow : ∀ j ∈ scripts p low i, j = i := by
    intro j hj
    obtain ⟨hjlow, hji, hjfile⟩ := mem_scripts.mp hj
    have hjmem : j ∈ i :: rest := by
      rw [← h]
      exact mem_scripts.mpr ⟨hjlow, hji.trans hhigh, hjfile⟩
    have hsorted : (i :: rest).Pairwise (· < ·) := by
      rw [← h]
      exact (pairwise_versionsBetween low high).filter _
    rcases List.mem_cons.mp hjmem with rfl | hrest
    · rfl
    · have hlt := (List.pairwise_cons.mp hsorted).1 j hrest
      omega
  have hmem : i ∈ scripts p low i := mem_scripts.mpr ⟨hlow, le_rfl, hfile⟩
  have hone : scripts p low i = [i] := by
    have hnodup : (scripts p low i).Nodup :=
      ((pairwise_versionsBetween low i).filter _).imp fun hlt => ne_of_lt hlt
    cases hlist : scripts p low i with
    | nil => simp [hlist] at hmem
    | cons a as =>
        rw [hlist] at hbelow hnodup
        obtain rfl := hbelow a List.mem_cons_self
        cases as with
        | nil => rfl
        | cons b bs =>
            obtain rfl := hbelow b (List.mem_cons_of_mem _ List.mem_cons_self)
            simp at hnodup
  refine ⟨hlow, hhigh, hone, ?_⟩
  rw [hone, h] at hsplit
  exact List.cons.inj hsplit |>.2

theorem updateInfo_eq_some {i : Int} {u : UpdateInfo p} (h : updateInfo p i = some u) :
    u.version = i := by
  rw [updateInfo] at h
  split at h
  · cases h
  · obtain rfl := Option.some.inj h
    rfl

theorem isSome_updateInfo (i : Int) :
    (updateInfo p i).isSome = (p.files (p.updateFile i)).isSome := by
  rw [updateInfo]
  split
  · next h => simp only [h, Option.isSome_none]
  · next content h => simp only [h, Option.isSome_some]

/-- What is pending are the scripts that the updater has not applied. -/
theorem map_version_pendingUpdates (s : Updates) :
    (s.pendingUpdates p).map (·.version) = scripts p s.currentVersion s.targetVersion := by
  rw [pendingUpdates, scripts]
  induction versionsBetween s.currentVersion s.targetVersion with
  | nil => rfl
  | cons i is ih =>
      have hsome := isSome_updateInfo (p := p) i
      rw [List.filterMap_cons, List.filter_cons]
      cases hu : updateInfo p i with
      | none =>
          rw [hu] at hsome
          simp only [← hsome, Option.isSome_none, Bool.false_eq_true, if_false, ih]
      | some u =>
          rw [hu] at hsome
          simp only [← hsome, Option.isSome_some, if_true, List.map_cons, ih,
            updateInfo_eq_some hu]

/-! ### What the steps leave alone -/

/-- A property that does not depend on the requests, the messages, the exit code
and the tables. -/
structure Stable (I : Updates → Prop) : Prop where
  requests : ∀ s rs, I s → I { s with requests := rs }
  emit : ∀ s m, I s → I (s.emit m)
  exit : ∀ s code, I s → I (s.exit code)
  tables : ∀ s tables, I s → I (s.commitTo { s.db with tables := tables })

/-- Nor does it matter what is said of the remembered version. -/
theorem Stable.and {I : Updates → Prop} (hI : Stable I) (Q : Int → Prop) :
    Stable fun s => I s ∧ Q s.currentVersion where
  requests s rs hs := ⟨hI.requests s rs hs.1, hs.2⟩
  emit s m hs := ⟨hI.emit s m hs.1, hs.2⟩
  exit s code hs := ⟨hI.exit s code hs.1, hs.2⟩
  tables s tables hs := ⟨hI.tables s tables hs.1, hs.2⟩

section
variable {I : Updates → Prop}

theorem request_ends (hI : Stable I) {s : Updates} (hs : I s) (env : UpdateEnv)
    (r : UpdateRequest) : Ends I (fun e => I e.2) (s.request env r) := by
  rw [request]
  split
  · exact hI.requests s _ hs
  · exact hI.requests s _ hs

theorem guarded_ends (hI : Stable I) {J : Updates → Prop} {body : Updates → Thrown} {s : Updates}
    (hbody : Ends J (fun e => I e.2) (body s)) (message : QString → QString) :
    Ends J (fun t => I t ∧ t.exitCode = some 1) (s.guarded body message) := by
  rw [guarded]
  split
  · next t ht =>
      rw [ht] at hbody
      exact hbody
  · next text t ht =>
      rw [ht] at hbody
      exact ⟨hI.exit _ 1 (hI.emit t _ hbody), rfl⟩

/-- Several requests that one property survives. -/
theorem foldlM_ends {α : Type*} {f : Updates → α → Thrown}
    {s : Updates} (hs : I s) (hf : ∀ s a, I s → Ends I (fun e => I e.2) (f s a)) (as : List α) :
    Ends I (fun e => I e.2) (as.foldlM f s) :=
  Ends.foldlM (I := fun _ => I) (fun a _ s h => hf s a h) hs

section
variable [CaseFolding]

theorem createMissingTables_ends (hI : Stable I) {s : Updates} (hs : I s) (env : UpdateEnv) :
    Ends I (fun e => I e.2) (s.createMissingTables env) := by
  apply foldlM_ends hs
  intro u t hu
  rw [createMissingTable]
  split
  · exact (request_ends hI hu env _).bind fun v hv => hI.tables v _ hv
  · exact hu

theorem createMissingColumns_ends (hI : Stable I) {s : Updates} (hs : I s) (env : UpdateEnv) :
    Ends I (fun e => I e.2) (s.createMissingColumns env) := by
  apply foldlM_ends hs
  intro u t hu
  refine (request_ends hI hu env _).bind fun v hv => foldlM_ends hv (fun w column hw => ?_) _
  rw [createMissingColumn]
  split
  · exact (request_ends hI hw env _).bind fun x hx => hI.tables x _ hx
  · exact hw

end

theorem createRules_ends (hI : Stable I) {s : Updates} (hs : I s) (env : UpdateEnv) :
    Ends I (fun e => I e.2) (s.createRulesPermissionsAndTriggers env) :=
  foldlM_ends hs (fun _ _ hu => request_ends hI hu env _) _

theorem execUpdate_ends (hI : Stable I) {s : Updates} (hs : I s) (env : UpdateEnv)
    (update : UpdateInfo p) : Ends I (fun e => I e.2) (s.execUpdate env update) := by
  apply foldlM_ends hs
  intro u statement hu
  rw [execScriptStatement]
  split
  · exact hu
  · exact request_ends hI hu env _

/-- The state when a script and its version are durable. -/
def committed (s : Updates) (update : UpdateInfo p) : Updates :=
  s.commitTo { s.db with version := update.version, applied := s.db.applied ++ [update.version] }

theorem applyScript_ends (hI : Stable I) {s : Updates} (hs : I s) (env : UpdateEnv)
    (update : UpdateInfo p) :
    Ends (fun t => ∃ u, I u ∧ t = u.committed update) (fun e => I e.2)
      (s.applyScript env update) :=
  (request_ends hI hs env _).bind fun _ ht =>
    (execUpdate_ends hI ht env update).bind fun _ hu =>
      (request_ends hI hu env _).bind fun _ hv =>
        (request_ends hI hv env _).bind fun w hw => ⟨w, hw, rfl⟩

theorem runUpdate_ends (hI : Stable I) {J : Updates → Prop} (hJ : Stable J) (env : UpdateEnv)
    {s : Updates} (hs : I s) (update : UpdateInfo p)
    (hdone : ∀ u, I u → J { u.committed update with currentVersion := update.version }) :
    Ends J (fun t => I t ∧ t.exitCode = some 1) (s.runUpdate env update) := by
  refine (guarded_ends hI (applyScript_ends hI (hI.emit s _ hs) env update) _).bind ?_
  rintro _ ⟨u, hu, rfl⟩
  exact hJ.emit _ _ (hdone u hu)

theorem raiseVersion_ends (hI : Stable I) {J : Updates → Prop} (env : UpdateEnv) {s : Updates}
    (hs : I s)
    (hdone : ∀ u, I u → J { u.commitTo { u.db with version := u.targetVersion } with
      currentVersion := u.targetVersion }) :
    Ends J (fun e => I e.2) (s.raiseVersion env) :=
  (request_ends hI hs env _).bind fun u hu => hdone u hu

end

/-! ### Progress -/

variable (p) (start : Int)

/-- The applied scripts of the durable states, and the remembered version. -/
structure Progress (s : Updates) : Prop where
  past : ∀ db ∈ s.past, db.applied = scripts p start db.version
  present : s.db.applied = scripts p start s.db.version
  above : start ≤ s.db.version
  remembered : 0 ≤ s.currentVersion → s.currentVersion = s.db.version

/-- Progress while an update to `target` is going on. -/
structure Updating (target : Int) (s : Updates) : Prop extends Progress p start s where
  target_eq : s.targetVersion = target
  known : s.currentVersion = s.db.version
  below : s.db.version ≤ target

variable {p start}

theorem Progress.of_tables {s : Updates} (hs : Progress p start s)
    (tables : List (QString × List QString)) :
    Progress p start (s.commitTo { s.db with tables := tables }) where
  past := by
    intro db hdb
    rcases List.mem_append.mp hdb with hpast | hlast
    · exact hs.past db hpast
    · obtain rfl := List.mem_singleton.mp hlast
      exact hs.present
  present := hs.present
  above := hs.above
  remembered := hs.remembered

theorem stable_progress : Stable (Progress p start) where
  requests _ _ hs := ⟨hs.past, hs.present, hs.above, hs.remembered⟩
  emit _ _ hs := ⟨hs.past, hs.present, hs.above, hs.remembered⟩
  exit _ _ hs := ⟨hs.past, hs.present, hs.above, hs.remembered⟩
  tables _ tables hs := hs.of_tables tables

variable (p start) in
theorem stable_updating (target : Int) : Stable (Updating p start target) where
  requests _ _ hs := ⟨stable_progress.requests _ _ hs.toProgress, hs.target_eq, hs.known, hs.below⟩
  emit _ _ hs := ⟨stable_progress.emit _ _ hs.toProgress, hs.target_eq, hs.known, hs.below⟩
  exit _ _ hs := ⟨stable_progress.exit _ _ hs.toProgress, hs.target_eq, hs.known, hs.below⟩
  tables _ _ hs := ⟨hs.of_tables _, hs.target_eq, hs.known, hs.below⟩

/-- A version is durable together with the scripts up to it. -/
theorem Updating.advance {target : Int} {s : Updates} (hs : Updating p start target s)
    (version : Int) (applied : List Int) (hversion : s.currentVersion ≤ version) (htarget : version ≤ target)
    (happlied : applied = s.db.applied ++ scripts p s.currentVersion version) :
    Updating p start target
      { s.commitTo { s.db with version := version, applied := applied } with
        currentVersion := version } where
  past := (hs.of_tables s.db.tables).past
  present := by
    show applied = scripts p start version
    rw [happlied, hs.present, hs.known]
    rw [hs.known] at hversion
    exact scripts_append hs.above hversion
  above := by
    show start ≤ version
    rw [hs.known] at hversion
    exact hs.above.trans hversion
  remembered _ := rfl
  target_eq := hs.target_eq
  known := rfl
  below := htarget

/-- The loop over the scripts: those to come are those that are pending. -/
theorem foldlM_runUpdate_ends (env : UpdateEnv) {target : Int} {s : Updates}
    (hs : Updating p start target s) :
    Ends (fun t => Updating p start target t ∧ scripts p t.currentVersion target = [])
      (fun t => Progress p start t ∧ t.exitCode = some 1)
      ((s.pendingUpdates p).foldlM (runUpdate env) s) := by
  let I : List (UpdateInfo p) → Updates → Prop := fun us t =>
    Updating p start target t ∧ us.map (·.version) = scripts p t.currentVersion target
  have hrun : Ends (I []) (fun t => Progress p start t ∧ t.exitCode = some 1)
      ((s.pendingUpdates p).foldlM (runUpdate env) s) := by
    refine Ends.foldlM (I := I) ?_ ⟨hs, ?_⟩
    · rintro u us t ⟨ht, hus⟩
      rw [List.map_cons] at hus
      obtain ⟨hlow, hhigh, hone, hrest⟩ := scripts_eq_cons hus.symm
      -- the first script is one step from the version that is remembered
      have hK := (stable_updating p start target).and (· = t.currentVersion)
      have hJ := (stable_updating p start target).and (· = u.version)
      refine (runUpdate_ends hK hJ env ⟨ht, rfl⟩ u ?_).imp ?_
        fun v hv => ⟨hv.1.1.toProgress, hv.2⟩
      · rintro v ⟨hv, hcurrent⟩
        refine ⟨hv.advance _ _ (by omega) hhigh ?_, rfl⟩
        rw [hcurrent, hone]
      · rintro v ⟨hv, hcurrent⟩
        exact ⟨hv, by rw [hcurrent, hrest]⟩
    · rw [map_version_pendingUpdates, hs.target_eq]
  exact hrun.imp (fun t ht => ⟨ht.1, ht.2.symm⟩) fun _ h => h

section
variable [CaseFolding]

/-- An update keeps the progress, and reaches the target when it does not fail. -/
theorem updateSteps_progress (env : UpdateEnv) {target : Int} {s : Updates}
    (hs : Updating p start target s) :
    Ends (fun t => Progress p start t ∧ t.db.version = target)
      (fun t => Progress p start t ∧ t.exitCode = some 1) (s.updateSteps p env) := by
  have hU := stable_updating p start target
  have hguard : ∀ {body : Updates → Thrown} {message : QString → QString} {t : Updates},
      Ends (Updating p start target) (fun e => Updating p start target e.2) (body t) →
      Ends (Updating p start target) (fun t => Progress p start t ∧ t.exitCode = some 1)
        (t.guarded body message) :=
    fun hbody => (guarded_ends hU hbody _).imp (fun _ h => h) fun _ h => ⟨h.1.toProgress, h.2⟩
  refine (hguard (createMissingTables_ends hU hs env)).bind fun t ht => ?_
  refine (hguard (createMissingColumns_ends hU ht env)).bind fun u hu => ?_
  refine (foldlM_runUpdate_ends env hu).bind fun v ⟨hv, hnone⟩ => ?_
  have hK := hU.and fun current => scripts p current target = []
  have hrules : Ends (fun w => Updating p start target w ∧ scripts p w.currentVersion target = [])
      (fun w => Progress p start w ∧ w.exitCode = some 1)
      (v.guarded (createRulesPermissionsAndTriggers env) rulesFailedText) :=
    (guarded_ends hK (createRules_ends hK ⟨hv, hnone⟩ env) _).imp (fun _ h => h)
      fun _ h => ⟨h.1.1.toProgress, h.2⟩
  refine hrules.bind fun w ⟨hw, hrest⟩ => ?_
  split
  · refine (guarded_ends hK (J := fun x => Progress p start x ∧ x.db.version = target)
      (raiseVersion_ends hK env ⟨hw, hrest⟩ ?_) _).imp (fun _ h => h)
      fun _ h => ⟨h.1.1.toProgress, h.2⟩
    rintro x ⟨hx, hxrest⟩
    -- the version goes up to the target with no script in between
    have hraised := hx.advance x.targetVersion x.db.applied
      (by rw [hx.known, hx.target_eq]; exact hx.below) hx.target_eq.le
      (by rw [hx.target_eq, hxrest, List.append_nil])
    exact ⟨hraised.toProgress, hx.target_eq⟩
  · next hge =>
      refine ⟨hw.toProgress, ?_⟩
      have hknown := hw.known
      have hbelow := hw.below
      have htarget := hw.target_eq
      omega

end

/-! ### Calls -/

/-- The version is remembered, or read, or cannot be read. -/
theorem needsUpdate_cases (env : UpdateEnv) (s : Updates) :
    (0 ≤ s.currentVersion ∧ s.needsUpdate env = (decide (s.currentVersion < s.targetVersion), s)) ∨
    (∃ rs, s.needsUpdate env = (decide (s.db.version < s.targetVersion),
      { s with requests := rs, currentVersion := s.db.version })) ∨
    ∃ rs m, s.needsUpdate env = (false, ({ s with requests := rs }.emit m).exit 1) := by
  rw [needsUpdate]
  split
  · next hknown => exact .inl ⟨hknown, rfl⟩
  · refine .inr ?_
    rw [request]
    cases env.fails s.requests.length with
    | none => exact .inl ⟨_, rfl⟩
    | some text => exact .inr ⟨_, _, rfl⟩

theorem needsUpdate_db (env : UpdateEnv) (s : Updates) : (s.needsUpdate env).2.db = s.db := by
  rcases needsUpdate_cases env s with ⟨-, h⟩ | ⟨rs, h⟩ | ⟨rs, m, h⟩
  · rw [h]
  · rw [h]
  · rw [h]
    rfl

section
variable {s : Updates} (hs : Progress p start s)
include hs

/-- Reading the version keeps the progress. -/
theorem needsUpdate_progress (env : UpdateEnv) : Progress p start (s.needsUpdate env).2 := by
  rcases needsUpdate_cases env s with ⟨-, h⟩ | ⟨rs, h⟩ | ⟨rs, m, h⟩
  · rw [h]
    exact hs
  · rw [h]
    exact ⟨hs.past, hs.present, hs.above, fun _ => rfl⟩
  · rw [h]
    exact ⟨hs.past, hs.present, hs.above, hs.remembered⟩

theorem needsUpdate_true {env : UpdateEnv} (hneeds : (s.needsUpdate env).1 = true) :
    Updating p start s.targetVersion (s.needsUpdate env).2 := by
  have hafter := needsUpdate_progress hs env
  rcases needsUpdate_cases env s with ⟨hknown, h⟩ | ⟨rs, h⟩ | ⟨rs, m, h⟩
  · rw [h] at hneeds hafter ⊢
    have hlt : s.currentVersion < s.targetVersion := of_decide_eq_true hneeds
    rw [hs.remembered hknown] at hlt
    exact ⟨hafter, rfl, hs.remembered hknown, hlt.le⟩
  · rw [h] at hneeds hafter ⊢
    exact ⟨hafter, rfl, rfl, (of_decide_eq_true hneeds).le⟩
  · rw [h] at hneeds
    cases hneeds

/-- No update is needed, unless the version cannot be read. -/
theorem needsUpdate_false {env : UpdateEnv} (hneeds : (s.needsUpdate env).1 = false)
    (hexit : (s.needsUpdate env).2.exitCode ≠ some 1) : s.targetVersion ≤ s.db.version := by
  rcases needsUpdate_cases env s with ⟨hknown, h⟩ | ⟨rs, h⟩ | ⟨rs, m, h⟩
  · rw [h] at hneeds
    have hge : ¬ s.currentVersion < s.targetVersion := of_decide_eq_false hneeds
    rw [hs.remembered hknown] at hge
    exact not_lt.mp hge
  · rw [h] at hneeds
    exact not_lt.mp (of_decide_eq_false hneeds)
  · rw [h] at hexit
    exact absurd rfl hexit

end

theorem progress_newCall {s : Updates} (hs : Progress p start s) :
    Progress p start s.newCall :=
  ⟨hs.past, hs.present, hs.above, hs.remembered⟩

/-- The scripts of `db` are those above `start` up to its version, each once and
in order. -/
def AppliedExactly (p : Program) (start : Int) (db : Database) : Prop :=
  db.applied.Pairwise (· < ·) ∧
    ∀ i, i ∈ db.applied ↔
      start < i ∧ i ≤ db.version ∧ (p.files (p.updateFile i)).isSome = true

theorem appliedExactly_of_eq {db : Database} (h : db.applied = scripts p start db.version) :
    AppliedExactly p start db := by
  refine ⟨?_, fun i => ?_⟩
  · rw [h]
    exact (pairwise_versionsBetween _ _).filter _
  · rw [h]
    exact mem_scripts

/-- A program starts on a database with the version `start`. -/
def starting (start : Nat) (tables : List (QString × List QString)) (queryCache : SqlQueryCache)
    (schema : Schema) (targetVersion : Int) : Updates where
  db := ⟨start, [], tables⟩
  past := []
  schema := schema
  currentVersion := -1
  targetVersion := targetVersion
  queryCache := queryCache
  requests := []
  messages := []
  exitCode := none

theorem progress_starting (start : Nat) (tables : List (QString × List QString))
    (queryCache : SqlQueryCache) (schema : Schema) (targetVersion : Int) :
    Progress p start (starting start tables queryCache schema targetVersion) where
  past db hdb := by cases hdb
  present := (scripts_of_le le_rfl).symm
  above := le_rfl
  remembered h := absurd h (show ¬ (0 : Int) ≤ -1 by decide)

section
variable [CaseFolding]

/-- A call that reports no error brings a version below the target to the target.
An error is reported together with `QApplication::exit( 1 )`; a user who
declines ends the application with nothing done. -/
def Reaches (p : Program) (s : Updates) : Event → Prop
  | .execUpdates interactive env =>
      let t := s.step p (.execUpdates interactive env)
      t.exitCode ≠ some 1 → s.db.version < s.targetVersion →
        if interactive && !env.applies then t.exitCode = some 0 ∧ t.db = s.db
        else t.db.version = s.targetVersion
  | _ => True

theorem execUpdates_progress (interactive : Bool) (env : UpdateEnv) {s : Updates}
    (hs : Progress p start s) :
    Progress p start (s.execUpdates p interactive env) ∧
      ((s.execUpdates p interactive env).exitCode ≠ some 1 → s.db.version < s.targetVersion →
        if interactive && !env.applies then
          (s.execUpdates p interactive env).exitCode = some 0 ∧
            (s.execUpdates p interactive env).db = s.db
        else (s.execUpdates p interactive env).db.version = s.targetVersion) := by
  have hdisabled : Progress p start (s.setCacheEnabled false) :=
    ⟨hs.past, hs.present, hs.above, hs.remembered⟩
  have hneeded := needsUpdate_progress hdisabled env
  rw [execUpdates]
  cases hneeds : ((s.setCacheEnabled false).needsUpdate env).1 with
  | false =>
      simp only [Bool.not_false, if_true]
      refine ⟨stable_progress.emit _ _ hneeded, fun hexit hlt => ?_⟩
      exact absurd (needsUpdate_false hdisabled hneeds hexit) (not_le.mpr hlt)
  | true =>
      simp only [Bool.not_true, Bool.false_eq_true, if_false]
      split
      · exact ⟨stable_progress.exit _ _ (stable_progress.emit _ _ hneeded),
          fun _ _ => ⟨rfl, needsUpdate_db env _⟩⟩
      · have hsteps := updateSteps_progress env ((stable_updating p start s.targetVersion).emit _
          (.error (outdatedText p)) (needsUpdate_true hdisabled hneeds))
        split
        · next t ht =>
            rw [ht] at hsteps
            exact ⟨hsteps.1, fun hexit => absurd hsteps.2 hexit⟩
        · next t ht =>
            rw [ht] at hsteps
            exact ⟨⟨hsteps.1.past, hsteps.1.present, hsteps.1.above, hsteps.1.remembered⟩,
              fun _ _ => hsteps.2⟩

/-- The step lemma. -/
theorem progress_step {s : Updates} (hs : Progress p start s) (e : Event) :
    Progress p start (s.step p e) := by
  cases e with
  | construct schema targetVersion =>
      exact ⟨hs.past, hs.present, hs.above, fun h => absurd h (show ¬ (0 : Int) ≤ -1 by decide)⟩
  | needsUpdate env => exact needsUpdate_progress (progress_newCall hs) env
  | execUpdates interactive env =>
      exact (execUpdates_progress interactive env (progress_newCall hs)).1

theorem reaches_step {s : Updates} (hs : Progress p start s) (e : Event) : Reaches p s e := by
  cases e with
  | construct schema targetVersion => trivial
  | needsUpdate env => trivial
  | execUpdates interactive env =>
      exact (execUpdates_progress interactive env (progress_newCall hs)).2

end

end Sqlate.Updates
