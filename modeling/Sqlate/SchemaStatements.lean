/-
Sqlate/SchemaStatements.lean

`createRulesPermissionsAndTriggers`: the statements and what they do.

A table of a schema is a type with flags (`TableType`), and so is a column.
Notification rules, permissions and triggers are generated from them in three
lists of statements, which are executed one after the other; the first that
fails ends the call.  `Catalog` is what the server keeps of them.

Names stand for those that the server makes of them (`serverName`).  `createUuid n`
is the result of the `n`-th call of `QUuid::createUuid`.
-/
import Sqlate.Base.Writes
import Sqlate.Qt.QVariant
import Sqlate.QueryManager
import Sqlate.ServerNames

namespace Sqlate

/-! ### Table types -/

namespace ColumnProperties

def notNull : Nat := 1
def unique : Nat := 2
def primaryKey : Nat := 4 ||| notNull ||| unique
def onUserUpdateRestrict : Nat := 64
def notify : Nat := 128

end ColumnProperties

/-- A column; `properties` are its flags. -/
structure ColumnType where
  sqlName : QString
  properties : Nat
  deriving DecidableEq, Repr

structure TableType where
  sqlName : QString
  isLookupTable : Bool
  isRelation : Bool
  isRestricted : Bool
  deleteRows : Bool
  updateRows : Bool
  insertRows : Bool
  adminGroup : QString
  userGroup : QString
  columns : List ColumnType
  deriving DecidableEq, Repr

namespace ColumnType

def notify (c : ColumnType) : Bool := c.properties &&& ColumnProperties.notify ≠ 0

def primaryKey (c : ColumnType) : Bool :=
  c.properties &&& ColumnProperties.primaryKey = ColumnProperties.primaryKey

def onUserUpdateRestrict (c : ColumnType) : Bool :=
  c.properties &&& ColumnProperties.onUserUpdateRestrict ≠ 0

end ColumnType

/-! ### Statements -/

/-- The privileges on tables. -/
inductive Privilege
  | select | insert | update | delete | truncate | references | trigger
  deriving DecidableEq, Repr

def Privilege.text : Privilege → QString
  | select => latin1 "SELECT"
  | insert => latin1 "INSERT"
  | update => latin1 "UPDATE"
  | delete => latin1 "DELETE"
  | truncate => latin1 "TRUNCATE"
  | references => latin1 "REFERENCES"
  | trigger => latin1 "TRIGGER"

inductive RuleOperation
  | insert | update | delete
  deriving DecidableEq, Repr

/-- As it stands in the name of a rule. -/
def RuleOperation.name : RuleOperation → QString
  | insert => latin1 "Insert"
  | update => latin1 "Update"
  | delete => latin1 "Delete"

def RuleOperation.toUpper : RuleOperation → QString
  | insert => latin1 "INSERT"
  | update => latin1 "UPDATE"
  | delete => latin1 "DELETE"

/-- What a rule does also. -/
inductive RuleAction
  | notify (channel : QString)
  | pgNotify (column identifier : QString)
  deriving DecidableEq, Repr

def RuleAction.text : RuleAction → QString
  | notify channel => latin1 "NOTIFY " ++ channel
  | pgNotify column identifier =>
      latin1 "SELECT pg_notify(CAST (OLD." ++ column ++ latin1 " AS text) || '_" ++ identifier
        ++ latin1 "','')"

/-- CREATE OR REPLACE RULE. -/
structure RuleStatement where
  name : QString
  operation : RuleOperation
  table : QString
  action : RuleAction
  deriving DecidableEq, Repr

inductive SchemaStatement
  | createRule (rule : RuleStatement)
  | grant (operations : List Privilege) (table group : QString)
  | dropTrigger (name table : QString)
  | createTrigger (name table column : QString)
  deriving DecidableEq, Repr

/-- The text that is executed. -/
def SchemaStatement.text : SchemaStatement → QString
  | createRule rule =>
      latin1 "CREATE OR REPLACE RULE " ++ rule.name ++ latin1 " AS ON " ++ rule.operation.toUpper
        ++ latin1 " TO " ++ rule.table ++ latin1 " DO ALSO " ++ rule.action.text
  | grant operations table group =>
      latin1 "GRANT " ++ (latin1 ", ").intercalate (operations.map Privilege.text) ++ latin1 " ON "
        ++ table ++ latin1 " TO GROUP " ++ group
  | dropTrigger name table =>
      latin1 "DROP TRIGGER IF EXISTS " ++ name ++ latin1 " on " ++ table
  | createTrigger name table column =>
      latin1 "CREATE TRIGGER " ++ name ++ latin1 " BEFORE UPDATE on " ++ table
        ++ latin1 " FOR EACH ROW WHEN (OLD." ++ column ++ latin1 " IS DISTINCT FROM NEW." ++ column
        ++ latin1 " ) EXECUTE PROCEDURE is_administrator()"

/-! ### The generators -/

/-- `notification_rule_creator`. -/
def notificationRules (t : TableType) : List RuleStatement :=
  if t.isLookupTable || t.isRelation then []
  else [RuleOperation.insert, .update, .delete].map fun op =>
    { name := t.sqlName ++ latin1 "Notification" ++ op.name ++ latin1 "Rule"
      operation := op
      table := t.sqlName
      action := .notify (t.sqlName ++ latin1 "Changed") }

/-- The name of a rule for a column: the braces become quotes. -/
def ruleID (u : QUuid) : QString :=
  u.toString.map fun c =>
    if c = QChar.ofChar '\x7b' ∨ c = QChar.ofChar '\x7d' then QChar.ofChar '"' else c

/-- `column_notification_rule_creator`, for a column with Notify. -/
def columnNotificationRule [HashFunction] (c : TableType × ColumnType) (u : QUuid) : RuleStatement where
  name := ruleID u
  operation := .update
  table := c.1.sqlName
  action := .pgNotify c.2.sqlName
    (Process.createIdentifier (c.1.sqlName ++ latin1 "_" ++ c.2.sqlName))

/-- The columns with Notify, in the order of the schema. -/
def notifyColumns (tables : List TableType) : List (TableType × ColumnType) :=
  tables.flatMap fun t => (t.columns.filter ColumnType.notify).map fun c => (t, c)

/-- `createNotificationRuleStatements`, after `n` calls of `createUuid`. -/
def createNotificationRuleStatements [HashFunction] (createUuid : Nat → QUuid)
    (tables : List TableType) (n : Nat) : List RuleStatement :=
  tables.flatMap notificationRules
    ++ ((notifyColumns tables).zipIdx n).map fun c => columnNotificationRule c.1 (createUuid c.2)

namespace TableType

/-- What the user group may do, in the order of `permission_statement_creator`. -/
def allowedOperations (t : TableType) : List Privilege :=
  [Privilege.select]
    ++ if !t.isRestricted then
        (if t.deleteRows then [Privilege.delete] else [])
          ++ (if t.updateRows then [Privilege.update] else [])
          ++ (if t.insertRows then [Privilege.insert] else [])
      else []

/-- `permission_statement_creator`. -/
def permissionStatements (t : TableType) : List SchemaStatement :=
  [.grant [.select, .insert, .update, .delete] t.sqlName t.adminGroup,
    .grant t.allowedOperations t.sqlName t.userGroup]

/-- `column_trigger_creator`. -/
def triggerStatements (t : TableType) (c : ColumnType) : List SchemaStatement :=
  if c.onUserUpdateRestrict || c.primaryKey then
    let triggerName := (t.sqlName ++ latin1 "." ++ c.sqlName).map fun x =>
      if x = QChar.ofChar '.' then QChar.ofChar '_' else x
    [.dropTrigger (latin1 "no_column_update_" ++ triggerName) t.sqlName,
      .createTrigger (latin1 "no_column_update_" ++ triggerName) t.sqlName c.sqlName]
  else []

/-- `createTableTriggerStatements`. -/
def createTableTriggerStatements (t : TableType) : List SchemaStatement :=
  t.columns.flatMap t.triggerStatements

end TableType

def createPermissionStatements (tables : List TableType) : List SchemaStatement :=
  tables.flatMap TableType.permissionStatements

def createTableTriggers (tables : List TableType) : List SchemaStatement :=
  tables.flatMap TableType.createTableTriggerStatements

/-! ### The server -/

/-- Rules and triggers by table and name, and the privileges of a group on a table. -/
structure Catalog where
  rules : QString × QString → Option (RuleOperation × RuleAction)
  privileges : QString → QString → Privilege → Bool
  /-- The column that a trigger looks at. -/
  triggers : QString × QString → Option QString

section
variable [CaseFolding]

/-- Where a rule is kept, and what is kept of it. -/
def RuleStatement.entry (r : RuleStatement) : (QString × QString) × (RuleOperation × RuleAction) :=
  ((serverName r.table, serverName r.name), (r.operation, r.action))

def Catalog.exec (c : Catalog) : SchemaStatement → Catalog
  | .createRule rule => { c with rules := Store.writes c.rules [rule.entry] }
  | .grant operations table group =>
      { c with
        privileges := fun t g p =>
          c.privileges t g p
            || (t = serverName table && g = serverName group && operations.contains p) }
  | .dropTrigger name table =>
      { c with triggers := Function.update c.triggers (serverName table, serverName name) none }
  | .createTrigger name table column =>
      { c with
        triggers := Function.update c.triggers (serverName table, serverName name) (some column) }

/-- A list of statements; `fails i` is the error of the `i`-th one, if it fails. -/
def Catalog.execStatements (fails : Nat → Option QString) (c : Catalog)
    (statements : List SchemaStatement) : Except (QString × Catalog) Catalog :=
  statements.zipIdx.foldlM
    (fun c s =>
      match fails s.2 with
      | none => .ok (c.exec s.1)
      | some text => .error (text, c)) c

/-- `grantPermissions`. -/
def grantPermissions (fails : Nat → Option QString) (tables : List TableType) (c : Catalog) :
    Except (QString × Catalog) Catalog :=
  c.execStatements fails (createPermissionStatements tables)

/-- The catalog, and how often `createUuid` was called. -/
structure SchemaState where
  catalog : Catalog
  uuids : Nat

/-- Which statements of a call fail. -/
structure SchemaEnv where
  rules : Nat → Option QString
  permissions : Nat → Option QString
  triggers : Nat → Option QString

/-- `createRulesPermissionsAndTriggers`; the first list is complete before anything is
executed. -/
def createRulesPermissionsAndTriggers [HashFunction] (createUuid : Nat → QUuid)
    (tables : List TableType) (s : SchemaState) (env : SchemaEnv) :
    Except (QString × SchemaState) SchemaState :=
  let rules := createNotificationRuleStatements createUuid tables s.uuids
  let uuids := s.uuids + (notifyColumns tables).length
  let run : Except (QString × Catalog) Catalog := do
    let c ← s.catalog.execStatements env.rules (rules.map .createRule)
    let c ← grantPermissions env.permissions tables c
    c.execStatements env.triggers (createTableTriggers tables)
  match run with
  | .ok c => .ok ⟨c, uuids⟩
  | .error (text, c) => .error (text, ⟨c, uuids⟩)

/-- Statements that do not fail are all executed. -/
theorem Catalog.execStatements_eq_ok {fails : Nat → Option QString} {c c' : Catalog}
    {statements : List SchemaStatement} (h : c.execStatements fails statements = .ok c') :
    c' = statements.foldl Catalog.exec c := by
  rw [execStatements] at h
  -- the index of the first statement does not matter
  generalize 0 = n at h
  induction statements generalizing c n with
  | nil =>
      rw [List.zipIdx_nil, List.foldlM_nil] at h
      exact (Except.ok.inj h).symm
  | cons stmt statements ih =>
      rw [List.zipIdx_cons, List.foldlM_cons] at h
      cases hfails : fails n with
      | none =>
          simp only [hfails] at h
          exact ih (n + 1) h
      | some text =>
          simp only [hfails] at h
          cases h

end

end Sqlate
