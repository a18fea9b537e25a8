/-
Sqlate/NotificationRules.lean

Creating the notification rules again and again.

A rule replaces one of the same name on the same table.  The names of the rules
for a table depend on the table alone, but the rule for a column is named by a
new UUID (`serverName_ruleID_injective`), so that every run leaves one more of
them.  The server cuts long names, and of the rules for a table whose name is
too long only the last is left.  Any number of runs leave one rule for every
operation on a table and one for every column with Notify if and only if no two
tables or operations share a name, and no second run meets a column with Notify
(`rulesAsOnce_iff`).
-/
import Mathlib.Order.Interval.Set.Basic
import Sqlate.SchemaStatements

namespace Sqlate

/-! ### Names of rules -/

/-- The quotes that are put for the braces are none of the name. -/
theorem serverName_ruleID [CaseFolding] (u : QUuid) : serverName (ruleID u) = u.withoutBraces := by
  have hinside : u.withoutBraces.map (fun c =>
      if c = QChar.ofChar '\x7b' ∨ c = QChar.ofChar '\x7d' then QChar.ofChar '"' else c)
      = u.withoutBraces := by
    conv_rhs => rw [← List.map_id u.withoutBraces]
    apply List.map_congr_left
    intro c hc
    exact if_neg (not_or.2 (QUuid.ne_brace_of_mem_withoutBraces hc))
  have hascii : isAscii u.withoutBraces = true := by
    have hall : isAscii (QChar.ofChar '-' :: QString.hexDigits) = true := by decide
    refine List.all_eq_true.2 fun c hc => List.all_eq_true.1 hall c ?_
    rcases QUuid.mem_withoutBraces hc with hc | rfl
    · exact List.mem_cons_of_mem _ hc
    · exact List.mem_cons_self
  have hshort : utf8Length u.withoutBraces ≤ maxNameSize := by
    rw [utf8Length_of_isAscii hascii, u.length_withoutBraces]
    decide
  rw [ruleID, u.toString_eq, List.map_append, List.map_append, hinside, serverName, if_pos (by rfl)]
  show cutName (u.withoutBraces ++ [QChar.ofChar '"']).dropLast = _
  rw [List.dropLast_concat, cutName_of_le hshort]

/-- Different UUIDs name different rules. -/
theorem serverName_ruleID_injective [CaseFolding] :
    Function.Injective fun u : QUuid => serverName (ruleID u) := by
  intro u v h
  apply QUuid.withoutBraces_injective
  rw [← serverName_ruleID, ← serverName_ruleID]
  exact h

/-! ### The rules of a schema -/

/-- The table is neither lookup table nor relation. -/
def TableType.isAnnounced (t : TableType) : Bool := !(t.isLookupTable || t.isRelation)

/-- The rule for an operation on a table. -/
def tableRule (t : TableType) (op : RuleOperation) : RuleStatement where
  name := t.sqlName ++ latin1 "Notification" ++ op.name ++ latin1 "Rule"
  operation := op
  table := t.sqlName
  action := .notify (t.sqlName ++ latin1 "Changed")

theorem mem_notificationRules {t : TableType} {r : RuleStatement} :
    r ∈ notificationRules t ↔ t.isAnnounced = true ∧ ∃ op, r = tableRule t op := by
  rw [notificationRules, TableType.isAnnounced]
  cases hnone : t.isLookupTable || t.isRelation with
  | true => simp
  | false =>
      show r ∈ [tableRule t .insert, tableRule t .update, tableRule t .delete] ↔ _
      constructor
      · intro hr
        simp only [List.mem_cons, List.not_mem_nil, or_false] at hr
        rcases hr with rfl | rfl | rfl
        · exact ⟨rfl, .insert, rfl⟩
        · exact ⟨rfl, .update, rfl⟩
        · exact ⟨rfl, .delete, rfl⟩
      · rintro ⟨-, op, rfl⟩
        cases op <;> simp

/-- The columns of a schema. -/
def columnsOf (tables : List TableType) : List (TableType × ColumnType) :=
  tables.flatMap fun t => t.columns.map fun c => (t, c)

theorem notifyColumns_eq (tables : List TableType) :
    notifyColumns tables = (columnsOf tables).filter fun x => x.2.notify := by
  rw [notifyColumns, columnsOf, List.filter_flatMap]
  simp only [List.filter_map]
  rfl

/-- What the rule for a column does, under whatever name. -/
def columnRule [HashFunction] (c : TableType × ColumnType) : RuleOperation × RuleAction :=
  (.update, .pgNotify c.2.sqlName (Process.createIdentifier (c.1.sqlName ++ latin1 "_" ++ c.2.sqlName)))

/-! ### One run -/

/-- What a rule for a table is. -/
theorem action_of_mem_notificationRules {tables : List TableType} {r : RuleStatement}
    (h : r ∈ tables.flatMap notificationRules) : ∃ channel, r.action = .notify channel := by
  obtain ⟨t, -, h⟩ := List.mem_flatMap.1 h
  rw [notificationRules] at h
  split at h
  · cases h
  · obtain ⟨op, -, rfl⟩ := List.mem_map.1 h
    exact ⟨_, rfl⟩

theorem not_rule_of_mem_permissions {tables : List TableType} :
    ∀ s ∈ createPermissionStatements tables, ∀ rule, s ≠ .createRule rule := by
  intro s hs rule
  obtain ⟨t, -, hs⟩ := List.mem_flatMap.1 hs
  rw [TableType.permissionStatements, List.mem_pair] at hs
  rcases hs with rfl | rfl <;> nofun

theorem not_rule_of_mem_triggers {tables : List TableType} :
    ∀ s ∈ createTableTriggers tables, ∀ rule, s ≠ .createRule rule := by
  intro s hs rule
  obtain ⟨t, -, hs⟩ := List.mem_flatMap.1 hs
  obtain ⟨c, -, hs⟩ := List.mem_flatMap.1 hs
  rw [TableType.triggerStatements] at hs
  split at hs
  · rcases List.mem_pair.1 hs with rfl | rfl <;> nofun
  · cases hs

section
variable [CaseFolding]

theorem rules_createRules (rules : List RuleStatement) (c : Catalog) :
    ((rules.map SchemaStatement.createRule).foldl Catalog.exec c).rules =
      Store.writes c.rules (rules.map RuleStatement.entry) := by
  induction rules generalizing c with
  | nil => rfl
  | cons rule rules ih =>
      rw [List.map_cons, List.foldl_cons, ih, List.map_cons, Store.writes_cons]
      rfl

/-- Other statements leave the rules alone. -/
theorem rules_foldl_exec {statements : List SchemaStatement}
    (h : ∀ s ∈ statements, ∀ rule, s ≠ .createRule rule) (c : Catalog) :
    (statements.foldl Catalog.exec c).rules = c.rules := by
  induction statements generalizing c with
  | nil => rfl
  | cons s statements ih =>
      rw [List.forall_mem_cons] at h
      rw [List.foldl_cons, ih h.2]
      cases s with
      | createRule rule => exact absurd rfl (h.1 rule)
      | _ => rfl

variable [HashFunction] {createUuid : Nat → QUuid} {tables : List TableType}

/-- The rules of a run that begins after `n` calls of `createUuid`. -/
def ruleEntries (createUuid : Nat → QUuid) (tables : List TableType) (n : Nat) :
    List ((QString × QString) × (RuleOperation × RuleAction)) :=
  (createNotificationRuleStatements createUuid tables n).map RuleStatement.entry

/-- **What a run leaves**: the rules that it creates are written over those before. -/
theorem rules_run {s s' : SchemaState} {env : SchemaEnv}
    (h : createRulesPermissionsAndTriggers createUuid tables s env = .ok s') :
    s'.catalog.rules = Store.writes s.catalog.rules (ruleEntries createUuid tables s.uuids) ∧
      s'.uuids = s.uuids + (notifyColumns tables).length := by
  rw [createRulesPermissionsAndTriggers] at h
  split at h
  case h_2 => cases h
  case h_1 c'' hrun =>
    obtain rfl := Except.ok.inj h
    obtain ⟨c, hrules, hrun⟩ := Runs.bind_eq_ok hrun
    obtain ⟨c', hpermissions, htriggers⟩ := Runs.bind_eq_ok hrun
    have hrules := Catalog.execStatements_eq_ok hrules
    have hpermissions := Catalog.execStatements_eq_ok hpermissions
    have htriggers := Catalog.execStatements_eq_ok htriggers
    refine ⟨?_, rfl⟩
    show c''.rules = _
    rw [htriggers, rules_foldl_exec not_rule_of_mem_triggers, hpermissions,
      rules_foldl_exec not_rule_of_mem_permissions, hrules, rules_createRules]
    rfl

/-! ### Several runs -/

/-- Rules for tables, and rules for columns under new names. -/
theorem mem_ruleEntries {n : Nat} {e : (QString × QString) × (RuleOperation × RuleAction)} :
    e ∈ ruleEntries createUuid tables n ↔
      (∃ t ∈ tables, t.isAnnounced = true ∧ ∃ op, e = (tableRule t op).entry) ∨
      ∃ x i, (x, i) ∈ (notifyColumns tables).zipIdx n ∧
        e = (columnNotificationRule x (createUuid i)).entry := by
  rw [ruleEntries, createNotificationRuleStatements, List.map_append, List.mem_append]
  refine or_congr ?_ ?_
  · simp only [List.mem_map, List.mem_flatMap, mem_notificationRules]
    constructor
    · rintro ⟨r, ⟨t, ht, hannounced, op, rfl⟩, rfl⟩
      exact ⟨t, ht, hannounced, op, rfl⟩
    · rintro ⟨t, ht, hannounced, op, rfl⟩
      exact ⟨_, ⟨t, ht, hannounced, op, rfl⟩, rfl⟩
  · constructor
    · intro h
      obtain ⟨r, hr, rfl⟩ := List.mem_map.1 h
      obtain ⟨⟨x, i⟩, hx, rfl⟩ := List.mem_map.1 hr
      exact ⟨x, i, hx, rfl⟩
    · rintro ⟨x, i, hx, rfl⟩
      exact List.mem_map.2 ⟨_, List.mem_map.2 ⟨(x, i), hx, rfl⟩, rfl⟩

/-- Without Notify, every run creates the same rules. -/
theorem ruleEntries_of_nil (h : notifyColumns tables = []) (m n : Nat) :
    ruleEntries createUuid tables m = ruleEntries createUuid tables n := by
  rw [ruleEntries, ruleEntries, createNotificationRuleStatements, createNotificationRuleStatements, h]
  rfl

/-- A rule for a column is named by a UUID of its run. -/
theorem uuid_of_mem_ruleEntries {n : Nat} {table name column identifier : QString} {op : RuleOperation}
    (h : ((table, name), (op, RuleAction.pgNotify column identifier)) ∈ ruleEntries createUuid tables n) :
    ∃ i ∈ Set.Ico n (n + (notifyColumns tables).length),
      name = serverName (ruleID (createUuid i)) := by
  obtain ⟨r, hr, hentry⟩ := List.mem_map.1 h
  rw [createNotificationRuleStatements, List.mem_append] at hr
  rcases hr with hr | hr
  · obtain ⟨channel, haction⟩ := action_of_mem_notificationRules hr
    rw [RuleStatement.entry, haction] at hentry
    cases hentry
  · obtain ⟨⟨c, i⟩, hc, rfl⟩ := List.mem_map.1 hr
    obtain ⟨hn, hi, -⟩ := List.mem_zipIdx hc
    exact ⟨i, ⟨hn, hi⟩, (congrArg (fun e => e.1.2) hentry).symm⟩

omit [CaseFolding] [HashFunction] in
/-- One run has one column at each position. -/
theorem eq_of_mem_zipIdx {x y : TableType × ColumnType} {n i : Nat}
    (hx : (x, i) ∈ (notifyColumns tables).zipIdx n) (hy : (y, i) ∈ (notifyColumns tables).zipIdx n) :
    x = y := by
  obtain ⟨-, hx⟩ := List.mem_zipIdx_iff_le_and_getElem?_sub.1 hx
  obtain ⟨-, hy⟩ := List.mem_zipIdx_iff_le_and_getElem?_sub.1 hy
  exact Option.some.inj (hx.symm.trans hy)

/-- The last rule of a run is named by its last UUID. -/
theorem exists_ruleEntries_eq (createUuid : Nat → QUuid) (h : notifyColumns tables ≠ []) (n : Nat) :
    ∃ front table column identifier,
      ruleEntries createUuid tables n = front ++
        [((table, serverName (ruleID (createUuid (n + (notifyColumns tables).length - 1)))),
          (RuleOperation.update, RuleAction.pgNotify column identifier))] := by
  obtain ⟨cols, c, hcols⟩ := (List.eq_nil_or_concat' (notifyColumns tables)).resolve_left h
  have hlast : n + (cols ++ [c]).length - 1 = n + cols.length := by simp
  rw [ruleEntries, createNotificationRuleStatements, hcols, hlast, List.zipIdx_append, List.map_append,
    List.map_append, List.map_append, ← List.append_assoc]
  exact ⟨_, _, _, _, rfl⟩

/-- Calls `m` to `n` of `createUuid` return new values: different ones, and none that
names a rule already, or is the name of one for a table. -/
structure NewUuids (createUuid : Nat → QUuid) (tables : List TableType) (c : Catalog) (m n : Nat) :
    Prop where
  injOn : Set.InjOn createUuid (Set.Ico m n)
  unused : ∀ i ∈ Set.Ico m n, ∀ table, c.rules (table, serverName (ruleID (createUuid i))) = none
  unnamed : ∀ i ∈ Set.Ico m n, ∀ t ∈ tables, ∀ op,
    serverName (tableRule t op).name ≠ serverName (ruleID (createUuid i))

omit [HashFunction] in
theorem NewUuids.mono {c : Catalog} {m n n' : Nat} (h : NewUuids createUuid tables c m n')
    (hn : n ≤ n') : NewUuids createUuid tables c m n :=
  ⟨h.injOn.mono (Set.Ico_subset_Ico_right hn), fun i hi => h.unused i (Set.Ico_subset_Ico_right hn hi),
    fun i hi => h.unnamed i (Set.Ico_subset_Ico_right hn hi)⟩

variable {s t : SchemaState} {env : SchemaEnv} {envs : List SchemaEnv}

theorem uuids_runs (h : envs.foldlM (createRulesPermissionsAndTriggers createUuid tables) s = .ok t) :
    s.uuids ≤ t.uuids := by
  induction envs generalizing s with
  | nil => rw [Except.ok.inj h]
  | cons env envs ih =>
      rw [List.foldlM_cons] at h
      obtain ⟨u, hu, h⟩ := Runs.bind_eq_ok h
      have hstep := (rules_run hu).2
      have hrest := ih h
      omega

/-- Rules that a run does not change stay as they are. -/
theorem rules_runs (hsame : ∀ n, Store.writes s.catalog.rules (ruleEntries createUuid tables n) =
      s.catalog.rules)
    (h : envs.foldlM (createRulesPermissionsAndTriggers createUuid tables) s = .ok t) :
    t.catalog.rules = s.catalog.rules := by
  induction envs generalizing s with
  | nil => rw [Except.ok.inj h]
  | cons env envs ih =>
      rw [List.foldlM_cons] at h
      obtain ⟨u, hu, h⟩ := Runs.bind_eq_ok h
      have hrules : u.catalog.rules = s.catalog.rules := (rules_run hu).1.trans (hsame _)
      rw [ih (by rwa [hrules]) h, hrules]

/-- A later run leaves a rule that the first one did not. -/
theorem rules_runs_ne {s₁ : SchemaState} (hnew : NewUuids createUuid tables s.catalog s.uuids t.uuids)
    (hfirst : createRulesPermissionsAndTriggers createUuid tables s env = .ok s₁)
    (hruns : envs.foldlM (createRulesPermissionsAndTriggers createUuid tables) s₁ = .ok t)
    (henvs : envs ≠ []) (hnotify : notifyColumns tables ≠ []) :
    t.catalog.rules ≠ s₁.catalog.rules := by
  obtain ⟨envs, last, rfl⟩ := (List.eq_nil_or_concat' envs).resolve_left henvs
  rw [List.foldlM_append] at hruns
  obtain ⟨u, hbefore, hruns⟩ := Runs.bind_eq_ok hruns
  rw [List.foldlM_cons] at hruns
  obtain ⟨v, hlast, hruns⟩ := Runs.bind_eq_ok hruns
  obtain rfl : v = t := Except.ok.inj hruns
  have hpos : 0 < (notifyColumns tables).length := List.length_pos_iff.2 hnotify
  have hbetween := uuids_runs hbefore
  have hafterFirst := (rules_run hfirst).2
  have hafterLast := (rules_run hlast).2
  obtain ⟨front, table, column, identifier, hentries⟩ :=
    exists_ruleEntries_eq createUuid hnotify u.uuids
  -- the name of the last rule of the last run
  let i := u.uuids + (notifyColumns tables).length - 1
  have hi : i ∈ Set.Ico s.uuids v.uuids := ⟨by omega, by omega⟩
  let name := serverName (ruleID (createUuid i))
  have hwritten : v.catalog.rules (table, name) = some (.update, .pgNotify column identifier) := by
    rw [(rules_run hlast).1, hentries, Store.writes_concat]
    exact Function.update_self ..
  intro hsame
  rw [hsame, (rules_run hfirst).1] at hwritten
  by_cases hmem : (table, name) ∈ (ruleEntries createUuid tables s.uuids).map Prod.fst
  · obtain ⟨v, hv, hwrites⟩ := Store.writes_of_mem hmem
    rw [hwrites] at hwritten
    obtain rfl := Option.some.inj hwritten
    obtain ⟨j, hj, hname⟩ := uuid_of_mem_ruleEntries hv
    have hj' : j ∈ Set.Ico s.uuids v.uuids := ⟨hj.1, by have := hj.2; omega⟩
    have hij : i = j := hnew.injOn hi hj' (serverName_ruleID_injective hname)
    have := hj.2
    omega
  · rw [Store.writes_of_not_mem hmem, hnew.unused i hi] at hwritten
    cases hwritten

/-! ### The rules of one run -/

/-- Over the rules before, there is one for every operation on every table that is
neither lookup table nor relation, and one more, under a new name, for every column with
Notify. -/
structure LeavesRules (tables : List TableType) (names : List QString) (c c' : Catalog) : Prop where
  length : names.length = ((columnsOf tables).filter fun x => x.2.notify).length
  nodup : names.Nodup
  new : ∀ name ∈ names, ∀ table, c.rules (table, name) = none
  operations : ∀ t ∈ tables, t.isLookupTable = false → t.isRelation = false → ∀ op,
    c'.rules (serverName t.sqlName, serverName (tableRule t op).name) =
      some (op, .notify (t.sqlName ++ latin1 "Changed"))
  columns : ∀ e ∈ ((columnsOf tables).filter fun x => x.2.notify).zip names,
    c'.rules (serverName e.1.1.sqlName, e.2) = some (columnRule e.1)
  others : ∀ k,
    (∀ t ∈ tables, t.isLookupTable = false → t.isRelation = false → ∀ op,
      k ≠ (serverName t.sqlName, serverName (tableRule t op).name)) →
    (∀ e ∈ ((columnsOf tables).filter fun x => x.2.notify).zip names, k ≠ (serverName e.1.1.sqlName, e.2)) →
      c'.rules k = c.rules k

def LeavesOne (tables : List TableType) (c c' : Catalog) : Prop :=
  ∃ names, LeavesRules tables names c c'

/-- Running again leaves the same rules as the first run, which are one for each. -/
structure RulesAsOnce (tables : List TableType) (c c₁ c' : Catalog) : Prop where
  one : LeavesOne tables c c₁
  same : c'.rules = c₁.rules

/-- No two of the rules for tables have one name on one table of the server. -/
def RuleNamesDiffer (tables : List TableType) : Prop :=
  ∀ t ∈ tables, ∀ t' ∈ tables, t.isAnnounced = true → t'.isAnnounced = true → ∀ op op',
    serverName t.sqlName = serverName t'.sqlName →
      serverName (tableRule t op).name = serverName (tableRule t' op').name →
        op = op' ∧ t.sqlName = t'.sqlName

omit [CaseFolding] [HashFunction] in
theorem TableType.isAnnounced_iff (t : TableType) :
    t.isAnnounced = true ↔ t.isLookupTable = false ∧ t.isRelation = false := by
  simp [isAnnounced]

/-- Rules of one name are one rule. -/
theorem LeavesOne.ruleNamesDiffer {c c' : Catalog} (h : LeavesOne tables c c') :
    RuleNamesDiffer tables := by
  obtain ⟨names, h⟩ := h
  intro t ht t' ht' hannounced hannounced' op op' htable hname
  obtain ⟨hlookup, hrelation⟩ := t.isAnnounced_iff.1 hannounced
  obtain ⟨hlookup', hrelation'⟩ := t'.isAnnounced_iff.1 hannounced'
  have hrule := h.operations t ht hlookup hrelation op
  have hrule' := h.operations t' ht' hlookup' hrelation' op'
  rw [htable, hname, hrule'] at hrule
  obtain ⟨rfl, haction⟩ := Prod.mk.inj (Option.some.inj hrule)
  exact ⟨rfl, (List.append_cancel_right (RuleAction.notify.inj haction)).symm⟩

/-- The new names of the rules for columns. -/
def uuidNames (createUuid : Nat → QUuid) (tables : List TableType) (n : Nat) : List QString :=
  (List.range' n (notifyColumns tables).length).map fun i => serverName (ruleID (createUuid i))

omit [HashFunction] in
theorem mem_zip_uuidNames {n : Nat} {e : (TableType × ColumnType) × QString} :
    e ∈ (notifyColumns tables).zip (uuidNames createUuid tables n) ↔
      ∃ i, (e.1, i) ∈ (notifyColumns tables).zipIdx n ∧ e.2 = serverName (ruleID (createUuid i)) := by
  rw [uuidNames, List.zip_map_right, ← List.zipIdx_eq_zip_range', List.mem_map]
  constructor
  · rintro ⟨⟨x, i⟩, hx, rfl⟩
    exact ⟨i, hx, rfl⟩
  · rintro ⟨i, hx, hname⟩
    exact ⟨(e.1, i), hx, Prod.ext rfl hname.symm⟩

theorem leavesOne_run (hnew : NewUuids createUuid tables s.catalog s.uuids t.uuids)
    (hdiffer : RuleNamesDiffer tables)
    (h : createRulesPermissionsAndTriggers createUuid tables s env = .ok t) :
    LeavesOne tables s.catalog t.catalog := by
  obtain ⟨hrules, hlength⟩ := rules_run h
  have hmem : ∀ {x i}, (x, i) ∈ (notifyColumns tables).zipIdx s.uuids → i ∈ Set.Ico s.uuids t.uuids := by
    intro x i hx
    obtain ⟨hs, ht, -⟩ := List.mem_zipIdx hx
    exact ⟨hs, by omega⟩
  refine ⟨uuidNames createUuid tables s.uuids, ?_⟩
  constructor
  case length =>
    rw [uuidNames, List.length_map, List.length_range', notifyColumns_eq]
  case nodup =>
    refine List.Nodup.map_on ?_ List.nodup_range'
    intro i hi j hj hname
    rw [List.mem_range'_1, ← hlength] at hi hj
    exact hnew.injOn hi hj (serverName_ruleID_injective hname)
  case new =>
    rw [uuidNames, List.forall_mem_map]
    intro i hi table
    rw [List.mem_range'_1, ← hlength] at hi
    exact hnew.unused i hi table
  case operations =>
    intro u hu hlookup hrelation op
    have hannounced := u.isAnnounced_iff.2 ⟨hlookup, hrelation⟩
    rw [hrules]
    apply Store.writes_eq_of_mem (mem_ruleEntries.2 (.inl ⟨u, hu, hannounced, op, rfl⟩))
    intro v hv
    rcases mem_ruleEntries.1 hv with ⟨u', hu', hannounced', op', heq⟩ | ⟨x, i, hx, heq⟩
    · obtain ⟨hkey, rfl⟩ := Prod.mk.inj heq
      obtain ⟨htable, hname⟩ := Prod.mk.inj hkey
      obtain ⟨rfl, hsql⟩ := hdiffer u hu u' hu' hannounced hannounced' op op' htable hname
      show (op, RuleAction.notify (u'.sqlName ++ _)) = (op, RuleAction.notify (u.sqlName ++ _))
      rw [hsql]
    · exact absurd (Prod.mk.inj (Prod.mk.inj heq).1).2 (hnew.unnamed i (hmem hx) u hu op)
  case columns =>
    rw [← notifyColumns_eq]
    intro e he
    obtain ⟨i, hi, hname⟩ := mem_zip_uuidNames.1 he
    rw [hrules, hname]
    apply Store.writes_eq_of_mem (mem_ruleEntries.2 (.inr ⟨e.1, i, hi, rfl⟩))
    intro v hv
    rcases mem_ruleEntries.1 hv with ⟨u, hu, -, op, heq⟩ | ⟨x, j, hx, heq⟩
    · exact absurd (Prod.mk.inj (Prod.mk.inj heq).1).2.symm (hnew.unnamed i (hmem hi) u hu op)
    · obtain ⟨hkey, rfl⟩ := Prod.mk.inj heq
      obtain rfl : i = j :=
        hnew.injOn (hmem hi) (hmem hx) (serverName_ruleID_injective (Prod.mk.inj hkey).2)
      obtain rfl := eq_of_mem_zipIdx hi hx
      rfl
  case others =>
    rw [← notifyColumns_eq]
    intro k htables hcolumns
    rw [hrules]
    apply Store.writes_of_not_mem
    rw [List.mem_map]
    rintro ⟨e, he, rfl⟩
    rcases mem_ruleEntries.1 he with ⟨u, hu, hannounced, op, rfl⟩ | ⟨x, i, hx, rfl⟩
    · obtain ⟨hlookup, hrelation⟩ := u.isAnnounced_iff.1 hannounced
      exact htables u hu hlookup hrelation op rfl
    · exact hcolumns (x, _) (mem_zip_uuidNames.2 ⟨i, hx, rfl⟩) rfl

end

/-! ### Two runs -/

/-- A table with a column that has Notify. -/
def watchedTable : TableType where
  sqlName := latin1 "t"
  isLookupTable := false
  isRelation := false
  isRestricted := false
  deleteRows := true
  updateRows := true
  insertRows := true
  adminGroup := latin1 "admins"
  userGroup := latin1 "users"
  columns := [⟨latin1 "c", ColumnProperties.notify⟩]

def countedUuid (n : Nat) : QUuid := ⟨BitVec.ofNat 128 n⟩

/-- A new database. -/
def SchemaState.new : SchemaState := ⟨⟨fun _ => none, fun _ _ _ => false, fun _ => none⟩, 0⟩

def SchemaEnv.noFailure : SchemaEnv := ⟨fun _ => none, fun _ => none, fun _ => none⟩

theorem newUuids_countedUuid :
    let _ : CaseFolding := .ascii
    NewUuids countedUuid [watchedTable] SchemaState.new.catalog 0 2 := by
  intro _
  refine ⟨?_, fun _ _ _ => rfl, ?_⟩
  · intro i hi j hj h
    have hbits : i % 2 ^ 128 = j % 2 ^ 128 := congrArg (fun u : QUuid => u.bits.toNat) h
    have := hi.2
    have := hj.2
    omega
  · intro i _ t ht op heq
    obtain rfl := List.mem_singleton.1 ht
    rw [serverName_ruleID] at heq
    -- the names do not have the same length
    have hlength := congrArg List.length heq
    rw [QUuid.length_withoutBraces] at hlength
    cases op <;> exact absurd hlength (by decide)

end Sqlate
