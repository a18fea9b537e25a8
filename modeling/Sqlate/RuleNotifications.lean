/-
Sqlate/RuleNotifications.lean

What the notification rules in a database do.

A statement that changes rows of a table makes the server notify on the channels of the
rules for this table (`Catalog.Notifies`).  The rules are created by any number of runs
of `createRulesPermissionsAndTriggers`, of which any but the first may end early, and
which leave more and more rules behind.  All the same the channels are those that the
schema announces, in every state (`notifies_iff`): the rules of later runs say what is
said already.

The server folds names without quotes, and cuts long ones: the names of the tables have to
leave room for those of their rules (`PlainNames`, `ruleNamesDiffer_iff`).  A column with
Notify has a value in every row.
-/
import Sqlate.ColumnIdentifiers
import Sqlate.NotificationRules

namespace Sqlate

/-! ### Changes -/

/-- A statement that changes rows, and that the server carries out.  (It refuses one that
would notify on a channel of more than 63 bytes.)  `table` is the name that the server has
for the table, `rows` are the rows that are concerned, as they were before. -/
structure Change where
  operation : RuleOperation
  table : QString
  rows : List (QString → MonitoredValue)

section
variable [CaseFolding]

/-- NOTIFY is done once for a statement, and a SELECT for every row. -/
def RuleAction.channels (rows : List (QString → MonitoredValue)) : RuleAction → List QString
  | notify channel => [serverName channel]
  | pgNotify column identifier =>
      rows.map fun old => (pgNotify column identifier).channel CaseFolding.toLower old

/-- There is a rule that notifies on the channel. -/
def Catalog.Notifies (c : Catalog) (change : Change) (channel : QString) : Prop :=
  ∃ name action, c.rules (change.table, name) = some (change.operation, action) ∧
    channel ∈ action.channels change.rows

end

section
variable [CaseFolding]

/-- The tables whose changes are announced. -/
def AnnouncesTable (tables : List TableType) (table : QString) : Prop :=
  ∃ t ∈ tables, t.isAnnounced = true ∧ serverName t.sqlName = table

variable [HashFunction]

/-- The column and its old value that a channel stands for. -/
def AnnouncesValue (tables : List TableType) (change : Change) (x : TableType × ColumnType)
    (old : QString → MonitoredValue) : Prop :=
  change.operation = .update ∧ x ∈ notifyColumns tables ∧
    serverName x.1.sqlName = change.table ∧ old ∈ change.rows

/-- The channels of a change, by the schema. -/
def Announces (tables : List TableType) (change : Change) (channel : QString) : Prop :=
  (AnnouncesTable tables change.table ∧ channel = change.table ++ latin1 "changed") ∨
    ∃ x old, AnnouncesValue tables change x old ∧
      channel = (old x.2.sqlName).castText ++ latin1 "_" ++ columnIdentifier x

end

/-! ### Names of tables -/

/-- The names of the tables are written without quotes. -/
def Unquoted (tables : List TableType) : Prop :=
  ∀ t ∈ tables, t.sqlName.head? ≠ some (QChar.ofChar '"')

/-- The room for the name of a table, if the rules for it shall have names of their own:
behind it comes `Notification` and the operation, of which one letter is enough. -/
def maxTableNameSize : Nat := 50

/-- What stands behind the name of the table in the name of a rule. -/
def ruleSuffix (op : RuleOperation) : QString :=
  CaseFolding.ascii.toLower (latin1 "Notification" ++ op.name ++ latin1 "Rule")

/-- As much of it as is always left. -/
def ruleSuffixFront (op : RuleOperation) : QString := (ruleSuffix op).take 13

theorem ruleSuffixFront_injective : Function.Injective ruleSuffixFront := by
  intro op op' h
  cases op <;> cases op' <;> first | rfl | exact absurd h (by decide)

theorem utf8Length_ruleSuffixFront (op : RuleOperation) : utf8Length (ruleSuffixFront op) = 13 := by
  cases op <;> decide

/-- In less room no operation has a letter. -/
theorem cut_ruleSuffix {n : Nat} (hn : n < 13) (op op' : RuleOperation) :
    SizeLimit.cut utf8Size n (ruleSuffix op) = SizeLimit.cut utf8Size n (ruleSuffix op') := by
  have hall : ∀ n < 13, ∀ op ∈ [RuleOperation.insert, .update, .delete],
      SizeLimit.cut utf8Size n (ruleSuffix op) = SizeLimit.cut utf8Size n (latin1 "notification") := by
    decide
  have hmem : ∀ op, op ∈ [RuleOperation.insert, .update, .delete] := by
    intro op
    cases op <;> decide
  rw [hall n hn op (hmem op), hall n hn op' (hmem op')]

section
variable [CaseFolding]

/-- The names of the tables are without quotes, and those of tables that are announced
have room. -/
structure PlainNames (tables : List TableType) : Prop where
  unquoted : Unquoted tables
  short : ∀ t ∈ tables, t.isAnnounced = true →
    utf8Length (CaseFolding.toLower t.sqlName) ≤ maxTableNameSize

variable (hfolds : FoldsNames CaseFolding.toLower) {t t' : TableType}
include hfolds

/-- The name of a rule for a table, in lower case. -/
theorem serverName_tableRule (h : t.sqlName.head? ≠ some (QChar.ofChar '"')) (op : RuleOperation) :
    serverName (tableRule t op).name = cutName (CaseFolding.toLower t.sqlName ++ ruleSuffix op) := by
  have hname : (tableRule t op).name
      = t.sqlName ++ (latin1 "Notification" ++ op.name ++ latin1 "Rule") := by
    show t.sqlName ++ _ ++ _ ++ _ = _
    simp only [List.append_assoc]
  have hhead : (tableRule t op).name.head? ≠ some (QChar.ofChar '"') := by
    rw [hname]
    cases hsql : t.sqlName with
    | nil => cases op <;> decide
    | cons c s => rwa [hsql] at h
  rw [serverName_of_unquoted hhead, hname, hfolds.toLower_append]
  · rfl
  · cases op <;> decide

/-- If there is room, it tells the table and the operation. -/
theorem exists_serverName_tableRule (h : t.sqlName.head? ≠ some (QChar.ofChar '"'))
    (hshort : utf8Length (CaseFolding.toLower t.sqlName) ≤ maxTableNameSize) (op : RuleOperation) :
    ∃ rest, serverName (tableRule t op).name
      = CaseFolding.toLower t.sqlName ++ (ruleSuffixFront op ++ rest) := by
  have hshort : utf8Length (CaseFolding.toLower t.sqlName) ≤ 50 := hshort
  have hroom : utf8Length (CaseFolding.toLower t.sqlName ++ ruleSuffixFront op) ≤ maxNameSize := by
    rw [utf8Length_append, utf8Length_ruleSuffixFront]
    show _ ≤ 63
    omega
  have hsuffix : ruleSuffix op = ruleSuffixFront op ++ (ruleSuffix op).drop 13 :=
    (List.take_append_drop 13 _).symm
  rw [serverName_tableRule hfolds h, cutName, hsuffix, ← List.append_assoc,
    SizeLimit.cut_append_of_le hroom]
  exact ⟨_, List.append_assoc _ _ _⟩

/-- Without room, it does not tell the operation. -/
theorem serverName_tableRule_eq_of_lt (h : t.sqlName.head? ≠ some (QChar.ofChar '"'))
    (hlong : maxTableNameSize < utf8Length (CaseFolding.toLower t.sqlName)) (op op' : RuleOperation) :
    serverName (tableRule t op).name = serverName (tableRule t op').name := by
  have hlong : 50 < utf8Length (CaseFolding.toLower t.sqlName) := hlong
  rw [serverName_tableRule hfolds h, serverName_tableRule hfolds h, cutName, cutName]
  by_cases hroom : utf8Length (CaseFolding.toLower t.sqlName) ≤ maxNameSize
  · have hrest : maxNameSize - utf8Length (CaseFolding.toLower t.sqlName) < 13 := by
      show 63 - _ < 13
      omega
    rw [SizeLimit.cut_append_of_le hroom, SizeLimit.cut_append_of_le hroom]
    exact congrArg _ (cut_ruleSuffix hrest op op')
  · rw [SizeLimit.cut_append_of_lt (Nat.lt_of_not_le hroom),
      SizeLimit.cut_append_of_lt (Nat.lt_of_not_le hroom)]

/-- A UUID is not the name of a rule for a table. -/
theorem serverName_tableRule_ne (h : t.sqlName.head? ≠ some (QChar.ofChar '"'))
    (hshort : utf8Length (CaseFolding.toLower t.sqlName) ≤ maxTableNameSize) (op : RuleOperation)
    (u : QUuid) : serverName (tableRule t op).name ≠ serverName (ruleID u) := by
  obtain ⟨rest, hname⟩ := exists_serverName_tableRule hfolds h hshort op
  rw [hname, serverName_ruleID]
  intro heq
  have hmem : QChar.ofChar 'n' ∈ u.withoutBraces := by
    rw [← heq]
    apply List.mem_append_right
    apply List.mem_append_left
    cases op <;> decide
  rcases QUuid.mem_withoutBraces hmem with hdigit | hhyphen
  · exact absurd hdigit (by decide)
  · exact absurd hhyphen (by decide)

omit hfolds in
/-- The name of a table that has room. -/
theorem serverName_of_maxTableNameSize (h : t.sqlName.head? ≠ some (QChar.ofChar '"'))
    (hshort : utf8Length (CaseFolding.toLower t.sqlName) ≤ maxTableNameSize) :
    serverName t.sqlName = CaseFolding.toLower t.sqlName :=
  serverName_of_short h (hshort.trans (by decide))

/-- The channel of a table that has room. -/
theorem serverName_changed (h : t.sqlName.head? ≠ some (QChar.ofChar '"'))
    (hshort : utf8Length (CaseFolding.toLower t.sqlName) ≤ maxTableNameSize) :
    serverName (t.sqlName ++ latin1 "Changed") = serverName t.sqlName ++ latin1 "changed" := by
  have hhead : (t.sqlName ++ latin1 "Changed").head? ≠ some (QChar.ofChar '"') := by
    cases hsql : t.sqlName with
    | nil => decide
    | cons c s => rwa [hsql] at h
  have hchannel : CaseFolding.toLower (t.sqlName ++ latin1 "Changed")
      = CaseFolding.toLower t.sqlName ++ latin1 "changed" :=
    hfolds.toLower_append _ _ (by decide)
  have hroom : utf8Length (CaseFolding.toLower (t.sqlName ++ latin1 "Changed")) ≤ maxNameSize := by
    have hshort : utf8Length (CaseFolding.toLower t.sqlName) ≤ 50 := hshort
    have hseven : utf8Length (latin1 "changed") = 7 := by decide
    rw [hchannel, utf8Length_append, hseven]
    show _ ≤ 63
    omega
  rw [serverName_of_short hhead hroom, hchannel, serverName_of_maxTableNameSize h hshort]

/-- Rules of the same name for one table are about the same operation. -/
theorem operation_eq_of_serverName_eq (ht : t.sqlName.head? ≠ some (QChar.ofChar '"'))
    (ht' : t'.sqlName.head? ≠ some (QChar.ofChar '"'))
    (hshort : utf8Length (CaseFolding.toLower t.sqlName) ≤ maxTableNameSize)
    (hshort' : utf8Length (CaseFolding.toLower t'.sqlName) ≤ maxTableNameSize)
    {op op' : RuleOperation} (htable : serverName t.sqlName = serverName t'.sqlName)
    (hname : serverName (tableRule t op).name = serverName (tableRule t' op').name) : op = op' := by
  rw [serverName_of_maxTableNameSize ht hshort, serverName_of_maxTableNameSize ht' hshort'] at htable
  obtain ⟨rest, hrule⟩ := exists_serverName_tableRule hfolds ht hshort op
  obtain ⟨rest', hrule'⟩ := exists_serverName_tableRule hfolds ht' hshort' op'
  rw [hrule, hrule', htable] at hname
  apply ruleSuffixFront_injective
  have hlength : (ruleSuffixFront op).length = (ruleSuffixFront op').length := by
    cases op <;> cases op' <;> decide
  exact (List.append_inj (List.append_cancel_left hname) hlength).1

/-- **When the names of the rules for tables differ**: there is room behind every name of
a table that is announced, and no two of them are one table on the server. -/
theorem ruleNamesDiffer_iff {tables : List TableType} (hplain : Unquoted tables) :
    RuleNamesDiffer tables ↔ ∀ t ∈ tables, t.isAnnounced = true →
      utf8Length (CaseFolding.toLower t.sqlName) ≤ maxTableNameSize ∧
        ∀ t' ∈ tables, t'.isAnnounced = true → serverName t.sqlName = serverName t'.sqlName →
          t.sqlName = t'.sqlName := by
  constructor
  · intro hdiffer t ht hannounced
    have hshort : utf8Length (CaseFolding.toLower t.sqlName) ≤ maxTableNameSize := by
      by_contra hlong
      have hname := serverName_tableRule_eq_of_lt hfolds (hplain t ht) (Nat.lt_of_not_le hlong)
        .insert .delete
      exact absurd (hdiffer t ht t ht hannounced hannounced _ _ rfl hname).1 (by decide)
    refine ⟨hshort, fun t' ht' hannounced' htable => ?_⟩
    by_cases hshort' : utf8Length (CaseFolding.toLower t'.sqlName) ≤ maxTableNameSize
    · have hname : serverName (tableRule t .insert).name = serverName (tableRule t' .insert).name := by
        rw [serverName_tableRule hfolds (hplain t ht), serverName_tableRule hfolds (hplain t' ht'),
          ← serverName_of_maxTableNameSize (hplain t ht) hshort, htable,
          serverName_of_maxTableNameSize (hplain t' ht') hshort']
      exact (hdiffer t ht t' ht' hannounced hannounced' _ _ htable hname).2
    · have hname := serverName_tableRule_eq_of_lt hfolds (hplain t' ht') (Nat.lt_of_not_le hshort')
        .insert .delete
      exact absurd (hdiffer t' ht' t' ht' hannounced' hannounced' _ _ rfl hname).1 (by decide)
  · intro h t ht t' ht' hannounced hannounced' op op' htable hname
    obtain ⟨hshort, hsame⟩ := h t ht hannounced
    obtain ⟨hshort', -⟩ := h t' ht' hannounced'
    refine ⟨?_, hsame t' ht' hannounced' htable⟩
    exact operation_eq_of_serverName_eq hfolds (hplain t ht) (hplain t' ht') hshort hshort' htable hname

end

/-! ### The entries of a run -/

section
variable [CaseFolding] [HashFunction] {createUuid : Nat → QUuid} {tables : List TableType}

omit [CaseFolding] [HashFunction] in
/-- Every column with Notify has got a rule. -/
theorem exists_mem_zipIdx {x : TableType × ColumnType} (hx : x ∈ notifyColumns tables) (n : Nat) :
    ∃ i, (x, i) ∈ (notifyColumns tables).zipIdx n := by
  obtain ⟨i, hi, rfl⟩ := List.getElem_of_mem hx
  exact ⟨n + i, List.mem_zipIdx_iff_le_and_getElem?_sub.2 ⟨Nat.le_add_right n i, by simp [hi]⟩⟩

/-! ### Entries under one key -/

/-- Rules that do the same, as far as anyone can hear. -/
structure SoundsAs (v v' : RuleOperation × RuleAction) : Prop where
  operation : v'.1 = v.1
  channels : ∀ rows, v'.2.channels rows = v.2.channels rows

/-- What is written under a key of an earlier run does the same. -/
theorem soundsAs_of_mem_ruleEntries (hfolds : FoldsNames CaseFolding.toLower) (hplain : PlainNames tables)
    {m n bound : Nat} (hnew : Set.InjOn createUuid (Set.Iio bound))
    (hm : m = n ∨ n + (notifyColumns tables).length ≤ m)
    (hbound : m + (notifyColumns tables).length ≤ bound) {k : QString × QString}
    {v v' : RuleOperation × RuleAction} (hv : (k, v) ∈ ruleEntries createUuid tables n)
    (hv' : (k, v') ∈ ruleEntries createUuid tables m) : SoundsAs v v' := by
  rcases mem_ruleEntries.1 hv with ⟨t, ht, hannounced, op, heq⟩ | ⟨x, i, hx, heq⟩
  · obtain ⟨rfl, rfl⟩ := Prod.mk.inj heq
    have hshort := hplain.short t ht hannounced
    rcases mem_ruleEntries.1 hv' with ⟨t', ht', hannounced', op', heq'⟩ | ⟨x', j, -, heq'⟩
    · obtain ⟨hkey, rfl⟩ := Prod.mk.inj heq'
      obtain ⟨htable, hname⟩ := Prod.mk.inj hkey
      have hshort' := hplain.short t' ht' hannounced'
      obtain rfl := operation_eq_of_serverName_eq hfolds (hplain.unquoted t ht)
        (hplain.unquoted t' ht') hshort hshort' htable hname
      refine ⟨rfl, fun rows => ?_⟩
      -- the channel does not depend on the case of the name
      have htable : serverName t.sqlName = serverName t'.sqlName := htable
      show [serverName (t'.sqlName ++ latin1 "Changed")] = [serverName (t.sqlName ++ latin1 "Changed")]
      rw [serverName_changed hfolds (hplain.unquoted t ht) hshort,
        serverName_changed hfolds (hplain.unquoted t' ht') hshort', htable]
    · obtain ⟨hkey, -⟩ := Prod.mk.inj heq'
      exact absurd (Prod.mk.inj hkey).2
        (serverName_tableRule_ne hfolds (hplain.unquoted t ht) hshort op _)
  · obtain ⟨rfl, rfl⟩ := Prod.mk.inj heq
    rcases mem_ruleEntries.1 hv' with ⟨t', ht', hannounced', op', heq'⟩ | ⟨x', j, hx', heq'⟩
    · obtain ⟨hkey, -⟩ := Prod.mk.inj heq'
      exact absurd (Prod.mk.inj hkey).2.symm (serverName_tableRule_ne hfolds
        (hplain.unquoted t' ht') (hplain.short t' ht' hannounced') op' _)
    · obtain ⟨hkey, rfl⟩ := Prod.mk.inj heq'
      obtain ⟨-, hi, -⟩ := List.mem_zipIdx hx
      obtain ⟨hjm, hj, -⟩ := List.mem_zipIdx hx'
      have hij : i = j := by
        apply hnew
        · show i < bound
          omega
        · show j < bound
          omega
        · exact serverName_ruleID_injective (Prod.mk.inj hkey).2
      obtain rfl : m = n := by omega
      subst hij
      rw [eq_of_mem_zipIdx hx hx']
      exact ⟨rfl, fun _ => rfl⟩

end

/-! ### Runs -/

section
variable [CaseFolding] [HashFunction] (createUuid : Nat → QUuid) (tables : List TableType)

/-- The database after one more run, to its end or not. -/
def updateSchema (s : SchemaState) (env : SchemaEnv) : SchemaState :=
  match createRulesPermissionsAndTriggers createUuid tables s env with
  | .ok s' => s'
  | .error (_, s') => s'

/-- All rules are of the schema. -/
def OnlyRulesOf (s : SchemaState) : Prop :=
  ∀ k v, s.catalog.rules k = some v → ∃ n, (k, v) ∈ ruleEntries createUuid tables n

/-- For every rule of some run there is one that does the same. -/
def AllRulesOf (s : SchemaState) : Prop :=
  ∃ n, n + (notifyColumns tables).length ≤ s.uuids ∧
    ∀ k v, (k, v) ∈ ruleEntries createUuid tables n →
      ∃ v', s.catalog.rules k = some v' ∧ SoundsAs v v'

variable {createUuid tables} {s : SchemaState} {env : SchemaEnv}

omit [HashFunction] in
/-- What the statements keep holds wherever their execution ends. -/
theorem ends_execStatements {I : Catalog → Prop} {statements : List SchemaStatement}
    (hexec : ∀ stmt ∈ statements, ∀ c, I c → I (c.exec stmt)) (fails : Nat → Option QString)
    {c : Catalog}
    (hc : I c) : Runs.Ends I (fun x => I x.2) (c.execStatements fails statements) := by
  apply Runs.Ends.foldlM_mem _ hc
  intro c stmt hstmt hc
  cases hfails : fails stmt.2 with
  | none => exact hexec stmt.1 (List.fst_mem_of_mem_zipIdx hstmt) c hc
  | some text => exact hc

variable (createUuid tables) in
/-- **One more run**, wherever it ends, has written some of its rules. -/
theorem rules_updateSchema (s : SchemaState) (env : SchemaEnv) :
    (∃ es, es ⊆ ruleEntries createUuid tables s.uuids ∧
      (updateSchema createUuid tables s env).catalog.rules = Store.writes s.catalog.rules es) ∧
    (updateSchema createUuid tables s env).uuids = s.uuids + (notifyColumns tables).length := by
  let I : Catalog → Prop := fun c => ∃ es, es ⊆ ruleEntries createUuid tables s.uuids ∧
    c.rules = Store.writes s.catalog.rules es
  have hother : ∀ statements : List SchemaStatement,
      (∀ stmt ∈ statements, ∀ rule, stmt ≠ .createRule rule) →
        ∀ stmt ∈ statements, ∀ c, I c → I (c.exec stmt) := by
    rintro statements hnone stmt hstmt c ⟨es, hes, hrules⟩
    refine ⟨es, hes, ?_⟩
    cases stmt with
    | createRule rule => exact absurd rfl (hnone _ hstmt rule)
    | _ => exact hrules
  have hrules : ∀ stmt ∈ (createNotificationRuleStatements createUuid tables s.uuids).map
      SchemaStatement.createRule, ∀ c, I c → I (c.exec stmt) := by
    rintro stmt hstmt c ⟨es, hes, hrules⟩
    obtain ⟨rule, hrule, rfl⟩ := List.mem_map.1 hstmt
    refine ⟨es ++ [rule.entry], List.append_subset.2 ⟨hes, ?_⟩, ?_⟩
    · exact List.cons_subset.2 ⟨List.mem_map_of_mem hrule, List.nil_subset _⟩
    · rw [Store.writes_append, ← hrules]
      rfl
  have hall : Runs.Ends
      (fun s' : SchemaState => I s'.catalog ∧ s'.uuids = s.uuids + (notifyColumns tables).length)
      (fun x => I x.2.catalog ∧ x.2.uuids = s.uuids + (notifyColumns tables).length)
      (createRulesPermissionsAndTriggers createUuid tables s env) := by
    have hrun : Runs.Ends I (fun x => I x.2) (do
        let c ← s.catalog.execStatements env.rules
          ((createNotificationRuleStatements createUuid tables s.uuids).map .createRule)
        let c ← grantPermissions env.permissions tables c
        c.execStatements env.triggers (createTableTriggers tables)) := by
      refine (ends_execStatements hrules _ ⟨[], List.nil_subset _, rfl⟩).bind fun c hc => ?_
      refine (ends_execStatements (hother _ not_rule_of_mem_permissions) _ hc).bind fun c' hc' => ?_
      exact ends_execStatements (hother _ not_rule_of_mem_triggers) _ hc'
    rw [createRulesPermissionsAndTriggers]
    split
    · next c hc =>
        rw [hc] at hrun
        exact ⟨hrun, rfl⟩
    · next text c hc =>
        rw [hc] at hrun
        exact ⟨hrun, rfl⟩
  rw [updateSchema]
  cases hend : createRulesPermissionsAndTriggers createUuid tables s env with
  | ok s' =>
      rw [hend] at hall
      exact hall
  | error x =>
      rw [hend] at hall
      exact hall

theorem OnlyRulesOf.step (honly : OnlyRulesOf createUuid tables s) (env : SchemaEnv) :
    OnlyRulesOf createUuid tables (updateSchema createUuid tables s env) := by
  obtain ⟨⟨es, hes, hrules⟩, -⟩ := rules_updateSchema createUuid tables s env
  intro k v hv
  rw [hrules] at hv
  rcases Store.mem_or_eq_of_writes hv with hmem | hbefore
  · exact ⟨s.uuids, hes hmem⟩
  · exact honly k v hbefore

variable (hfolds : FoldsNames CaseFolding.toLower) (hplain : PlainNames tables)
include hfolds hplain

/-- A run that comes to its end has written all rules. -/
theorem allRulesOf_of_ok {s' : SchemaState} (hnew : Set.InjOn createUuid (Set.Iio s'.uuids))
    (hok : createRulesPermissionsAndTriggers createUuid tables s env = .ok s') :
    AllRulesOf createUuid tables s' := by
  obtain ⟨hrules, huuids⟩ := rules_run hok
  refine ⟨s.uuids, Nat.le_of_eq huuids.symm, fun k v hv => ?_⟩
  obtain ⟨v', hv', hwrites⟩ := Store.writes_of_mem (List.mem_map_of_mem hv)
  refine ⟨v', by rw [hrules]; exact hwrites _, ?_⟩
  exact soundsAs_of_mem_ruleEntries hfolds hplain hnew (.inl rfl) (Nat.le_of_eq huuids.symm) hv hv'

/-- Later runs leave what does the same. -/
theorem AllRulesOf.step (hall : AllRulesOf createUuid tables s) (env : SchemaEnv)
    (hnew : Set.InjOn createUuid (Set.Iio (updateSchema createUuid tables s env).uuids)) :
    AllRulesOf createUuid tables (updateSchema createUuid tables s env) := by
  obtain ⟨⟨es, hes, hrules⟩, huuids⟩ :=
    rules_updateSchema createUuid tables s env
  obtain ⟨n, hn, hthere⟩ := hall
  refine ⟨n, by omega, fun k v hv => ?_⟩
  rw [hrules]
  apply Store.exists_writes (hthere k v hv)
  intro v' hv'
  exact soundsAs_of_mem_ruleEntries hfolds hplain hnew (.inr hn) (Nat.le_of_eq huuids.symm) hv (hes hv')

omit hfolds hplain in
theorem uuids_run (s : SchemaState) (envs : List SchemaEnv) :
    s.uuids ≤ (Runs.run (updateSchema createUuid tables) s envs).uuids := by
  induction envs generalizing s with
  | nil => exact Nat.le_refl _
  | cons env envs ih =>
      have hstep := (rules_updateSchema createUuid tables s env).2
      have hrest := ih (updateSchema createUuid tables s env)
      rw [Runs.run_cons]
      omega

theorem AllRulesOf.run (hall : AllRulesOf createUuid tables s) (envs : List SchemaEnv)
    (hnew : Set.InjOn createUuid (Set.Iio (Runs.run (updateSchema createUuid tables) s envs).uuids)) :
    AllRulesOf createUuid tables (Runs.run (updateSchema createUuid tables) s envs) := by
  induction envs generalizing s with
  | nil => exact hall
  | cons env envs ih =>
      rw [Runs.run_cons] at hnew ⊢
      refine ih (hall.step hfolds hplain env (hnew.mono ?_)) hnew
      exact Set.Iio_subset_Iio (uuids_run _ envs)

/-- The channels are those of the schema when all its rules are there, and no others. -/
theorem notifies_iff_of_rules (honly : OnlyRulesOf createUuid tables s)
    (hall : AllRulesOf createUuid tables s) (change : Change) (channel : QString) :
    s.catalog.Notifies change channel ↔ Announces tables change channel := by
  have hchanged : ∀ t ∈ tables, t.isAnnounced = true →
      serverName (t.sqlName ++ latin1 "Changed") = serverName t.sqlName ++ latin1 "changed" :=
    fun t ht hannounced => serverName_changed hfolds (hplain.unquoted t ht) (hplain.short t ht hannounced)
  constructor
  · rintro ⟨name, action, hrule, hchannel⟩
    obtain ⟨n, hn⟩ := honly _ _ hrule
    rcases mem_ruleEntries.1 hn with ⟨t, ht, hannounced, op, heq⟩ | ⟨x, i, hx, heq⟩
    · obtain ⟨hkey, hvalue⟩ := Prod.mk.inj heq
      obtain ⟨htable, -⟩ := Prod.mk.inj hkey
      obtain ⟨-, rfl⟩ := Prod.mk.inj hvalue
      have htable : change.table = serverName t.sqlName := htable
      obtain rfl : channel = serverName (t.sqlName ++ latin1 "Changed") :=
        List.mem_singleton.1 hchannel
      refine .inl ⟨⟨t, ht, hannounced, htable.symm⟩, ?_⟩
      rw [htable]
      exact hchanged t ht hannounced
    · obtain ⟨hkey, hvalue⟩ := Prod.mk.inj heq
      obtain ⟨htable, -⟩ := Prod.mk.inj hkey
      obtain ⟨hop, rfl⟩ := Prod.mk.inj hvalue
      have htable : change.table = serverName x.1.sqlName := htable
      obtain ⟨old, hold, rfl⟩ := List.mem_map.1 hchannel
      have hx : x ∈ notifyColumns tables := List.fst_mem_of_mem_zipIdx hx
      exact .inr ⟨x, old, ⟨hop, hx, htable.symm, hold⟩, rfl⟩
  · obtain ⟨n, -, hthere⟩ := hall
    rintro (⟨⟨t, ht, hannounced, htable⟩, rfl⟩ | ⟨x, old, ⟨hop, hx, htable, hold⟩, rfl⟩)
    · obtain ⟨v, hv, hsounds⟩ := hthere _ _
        (mem_ruleEntries.2 (.inl ⟨t, ht, hannounced, change.operation, rfl⟩))
      refine ⟨serverName (tableRule t change.operation).name, v.2, ?_, ?_⟩
      · have hvalue : v = (change.operation, v.2) := Prod.ext hsounds.operation rfl
        rw [← htable, ← hvalue]
        exact hv
      · rw [hsounds.channels]
        show _ ∈ [serverName (t.sqlName ++ latin1 "Changed")]
        rw [hchanged t ht hannounced, htable]
        exact List.mem_singleton_self _
    · obtain ⟨i, hi⟩ := exists_mem_zipIdx hx n
      obtain ⟨v, hv, hsounds⟩ := hthere _ _ (mem_ruleEntries.2 (.inr ⟨x, i, hi, rfl⟩))
      refine ⟨serverName (ruleID (createUuid i)), v.2, ?_, ?_⟩
      · have hvalue : v = (change.operation, v.2) := Prod.ext (hsounds.operation.trans hop.symm) rfl
        rw [← htable, ← hvalue]
        exact hv
      · rw [hsounds.channels]
        exact List.mem_map.2 ⟨old, hold, rfl⟩

omit hfolds hplain in
/-- A run that comes to its end, among others. -/
theorem run_of_ok {s₀ : SchemaState} {before after : List SchemaEnv}
    (hok : createRulesPermissionsAndTriggers createUuid tables
      (Runs.run (updateSchema createUuid tables) s₀ before) env = .ok s) :
    Runs.run (updateSchema createUuid tables) s₀ (before ++ env :: after)
      = Runs.run (updateSchema createUuid tables) s after := by
  have hend : updateSchema createUuid tables
      (Runs.run (updateSchema createUuid tables) s₀ before) env = s := by
    rw [updateSchema, hok]
  show List.foldl _ _ _ = _
  rw [List.foldl_append, List.foldl_cons]
  exact congrArg (Runs.run (updateSchema createUuid tables) · after) hend

/-- A new database in which some run of the schema has come to its end has all the rules, and
no others, whatever runs there have been before, and wherever later ones end. -/
theorem onlyRulesOf_and_allRulesOf_run {before after : List SchemaEnv}
    (hok : createRulesPermissionsAndTriggers createUuid tables
      (Runs.run (updateSchema createUuid tables) .new before) env = .ok s)
    (hnew : Set.InjOn createUuid
      (Set.Iio (Runs.run (updateSchema createUuid tables) .new (before ++ env :: after)).uuids)) :
    OnlyRulesOf createUuid tables
        (Runs.run (updateSchema createUuid tables) .new (before ++ env :: after)) ∧
      AllRulesOf createUuid tables
        (Runs.run (updateSchema createUuid tables) .new (before ++ env :: after)) := by
  have honly : OnlyRulesOf createUuid tables
      (Runs.run (updateSchema createUuid tables) .new (before ++ env :: after)) :=
    Runs.run_invariant_of_forall (fun s env h => h.step env) (fun k v hv => by cases hv) _
  refine ⟨honly, ?_⟩
  rw [run_of_ok hok] at hnew ⊢
  have hfirst : AllRulesOf createUuid tables s :=
    allRulesOf_of_ok hfolds hplain (hnew.mono (Set.Iio_subset_Iio (uuids_run s after))) hok
  exact hfirst.run hfolds hplain after hnew

/-- **What a database notifies on.**  A new database in which some run of the schema has come
to its end notifies on the channels that the schema announces, and on no others. -/
theorem notifies_iff {before after : List SchemaEnv}
    (hok : createRulesPermissionsAndTriggers createUuid tables
      (Runs.run (updateSchema createUuid tables) .new before) env = .ok s)
    (hnew : Set.InjOn createUuid
      (Set.Iio (Runs.run (updateSchema createUuid tables) .new (before ++ env :: after)).uuids))
    (change : Change) (channel : QString) :
    (Runs.run (updateSchema createUuid tables) .new (before ++ env :: after)).catalog.Notifies change
      channel ↔ Announces tables change channel := by
  obtain ⟨honly, hall⟩ := onlyRulesOf_and_allRulesOf_run hfolds hplain hok hnew
  exact notifies_iff_of_rules hfolds hplain honly hall change channel

end

theorem plainNames_watchedTable :
    let _ : CaseFolding := .ascii
    PlainNames [watchedTable] := by
  intro _
  constructor
  · intro t ht
    obtain rfl := List.mem_singleton.1 ht
    decide
  · intro t ht _
    obtain rfl := List.mem_singleton.1 ht
    decide

/-- A run that ends before the first statement, one that comes to its end, and another one.
A row is updated whose column with Notify has been `v`. -/
theorem notifies_iff_watchedTable :
    let _ : CaseFolding := .ascii
    let _ : HashFunction := ⟨fun _ => 0⟩
    let lost : SchemaEnv := ⟨fun _ => some (latin1 "lost"), fun _ => none, fun _ => none⟩
    let change : Change := ⟨.update, latin1 "t", [fun _ => .string (latin1 "v")]⟩
    (Runs.run (updateSchema countedUuid [watchedTable]) .new
      ([lost] ++ .noFailure :: [.noFailure])).catalog.Notifies change (latin1 "v_0") ↔
        Announces [watchedTable] change (latin1 "v_0") := by
  intro _ _ lost change
  have hinj : Set.InjOn countedUuid (Set.Iio (Runs.run (updateSchema countedUuid [watchedTable]) .new
      ([lost] ++ .noFailure :: [.noFailure])).uuids) := by
    intro i hi j hj h
    have hi : i < 3 := hi
    have hj : j < 3 := hj
    have hbits : i % 2 ^ 128 = j % 2 ^ 128 := congrArg (fun u : QUuid => u.bits.toNat) h
    omega
  have hok : createRulesPermissionsAndTriggers countedUuid [watchedTable]
      (Runs.run (updateSchema countedUuid [watchedTable]) .new [lost]) .noFailure = .ok _ := rfl
  exact notifies_iff foldsNames_ascii plainNames_watchedTable hok hinj change (latin1 "v_0")

end Sqlate
