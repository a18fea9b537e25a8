/-
Sqlate/SchemaUpdater.lean

`SchemaUpdater`: bringing a database to the version of a schema.

The progress of an update is kept twice, in the version table and in the
member `m_currentVersion`.  `Updates` is the state around an updater: the
database, the members, the flag of the query cache, and what the last call
has asked the server, told the user and told the application.

Every request to the server may fail with an `SqlException`: `fails n` is the
error text of the `n`-th request of a call, if it fails.  A request that fails
changes nothing; a transaction that is not committed is undone.  `past` lists
the durable states of the database before the present one.

The script files are resources of the program.  The server folds the names of
tables and columns to lower case.  A script is its statements; that it leaves
the version table and the transaction alone is taken for granted.  Version
numbers are integers without bound; the source has `int`, and its loop over the
versions overflows if the target is the greatest one.
-/
import Sqlate.QueryCache
import Sqlate.SqlUtils

namespace Sqlate

/-! ### Schemas and databases -/

/-- A table type: its name, the name and definition of its columns, and the
definitions of its constraints. -/
structure SchemaTable where
  tableName : QString
  columns : List (QString × QString)
  constraints : List QString
  deriving DecidableEq, Repr

/-- The tables, and the statements of `createRulesPermissionsAndTriggers`. -/
structure Schema where
  tables : List SchemaTable
  rulesPermissionsAndTriggers : List QString
  deriving DecidableEq, Repr

/-- A database: the row of the version table, the versions of the scripts that
were applied, and the tables with their columns. -/
structure Database where
  version : Int
  applied : List Int
  tables : List (QString × List QString)
  deriving DecidableEq, Repr

/-- What an updater asks the server. -/
inductive UpdateRequest
  | readVersion
  | createTable (statement : QString)
  | readColumns (table : QString)
  | addColumn (statement : QString)
  | begin
  | script (statement : QString)
  | setVersion (version : Int)
  | commit
  | rule (statement : QString)
  deriving DecidableEq, Repr

/-- The signals `infoMessage`, `successMessage` and `errorMessage`. -/
inductive Message
  | info (text : QString)
  | success (text : QString)
  | error (text : QString)
  deriving DecidableEq, Repr

/-- The answer of the user, and the requests of the call that fail. -/
structure UpdateEnv where
  applies : Bool
  fails : Nat → Option QString

structure Updates where
  db : Database
  past : List Database
  schema : Schema
  currentVersion : Int
  targetVersion : Int
  queryCache : SqlQueryCache
  requests : List UpdateRequest
  messages : List Message
  /-- The argument of `QApplication::exit`. -/
  exitCode : Option Nat

/-- The end of a function that may throw: the state, with the text of the error
when it throws. -/
abbrev Thrown := Except (QString × Updates) Updates

namespace SchemaTable

/-- `createTableStatement`. -/
def createTableStatement (t : SchemaTable) : QString :=
  latin1 "CREATE TABLE " ++ t.tableName ++ latin1 " (\n"
    ++ (latin1 ",\n").intercalate (t.columns.map Prod.snd ++ t.constraints) ++ latin1 "\n)"

def alterStatement (t : SchemaTable) (column : QString × QString) : QString :=
  latin1 "ALTER TABLE " ++ t.tableName ++ latin1 " ADD COLUMN " ++ column.2

end SchemaTable

namespace Database

variable [CaseFolding]

/-- The server creates a table. -/
def createTable (db : Database) (t : SchemaTable) : Database :=
  { db with
    tables := db.tables ++
      [(CaseFolding.toLower t.tableName, t.columns.map fun c => CaseFolding.toLower c.1)] }

/-- The server adds a column. -/
def addColumn (db : Database) (t : SchemaTable) (column : QString × QString) : Database :=
  { db with
    tables := db.tables.map fun e =>
      if e.1 = CaseFolding.toLower t.tableName then
        (e.1, e.2 ++ [CaseFolding.toLower column.1])
      else e }

/-- The columns of a table. -/
def columnsOfTable (db : Database) (t : SchemaTable) : List QString :=
  ((db.tables.find? fun e => e.1 = CaseFolding.toLower t.tableName).map Prod.snd).getD []

/-- Is a table of the schema missing? -/
def lacksTable (db : Database) (t : SchemaTable) : Bool :=
  !(db.tables.map fun e => CaseFolding.toLower e.1).contains (CaseFolding.toLower t.tableName)

/-- Is a column of a table missing? -/
def lacksColumn (db : Database) (t : SchemaTable) (column : QString × QString) : Bool :=
  !(db.columnsOfTable t).any fun existing =>
    CaseFolding.toLower existing = CaseFolding.toLower column.1

end Database

namespace Updates

/-! ### Requests and messages -/

def emit (m : Message) (s : Updates) : Updates := { s with messages := s.messages ++ [m] }

/-- `QApplication::exit`, which returns. -/
def exit (code : Nat) (s : Updates) : Updates := { s with exitCode := some code }

/-- The database is durably in another state. -/
def commitTo (db : Database) (s : Updates) : Updates :=
  { s with db := db, past := s.past ++ [s.db] }

def setCacheEnabled (enable : Bool) (s : Updates) : Updates :=
  { s with queryCache := s.queryCache.setEnabled enable }

def request (env : UpdateEnv) (r : UpdateRequest) (s : Updates) : Thrown :=
  let t := { s with requests := s.requests ++ [r] }
  match env.fails s.requests.length with
  | none => .ok t
  | some text => .error (text, t)

/-- `try` and `catch`: a message, and the application is told to exit. -/
def guarded (body : Updates → Thrown) (message : QString → QString) (s : Updates) :
    Except Updates Updates :=
  match body s with
  | .ok s => .ok s
  | .error (text, s) => .error ((s.emit (.error (message text))).exit 1)

/-! ### The version -/

def checkFailedText (error : QString) : QString :=
  (latin1 ("<html>There was an error while checking the database version. This is a critical "
    ++ "error, the application will terminate.<br/>                                 "
    ++ "The error was: <b>%1</b>.</html>")).arg error

def needsUpdate (env : UpdateEnv) (s : Updates) : Bool × Updates :=
  if 0 ≤ s.currentVersion then (s.currentVersion < s.targetVersion, s)
  else
    match s.request env .readVersion with
    | .ok s => (s.db.version < s.targetVersion, { s with currentVersion := s.db.version })
    | .error (text, s) => (false, (s.emit (.error (checkFailedText text))).exit 1)

/-! ### Tables and columns -/

section
variable [CaseFolding]

/-- One round of `createMissingTables`; `existing` is the database before. -/
def createMissingTable (env : UpdateEnv) (existing : Database) (s : Updates) (t : SchemaTable) :
    Thrown :=
  if existing.lacksTable t then do
    let s ← s.request env (.createTable t.createTableStatement)
    return s.commitTo (s.db.createTable t)
  else return s

def createMissingTables (env : UpdateEnv) (s : Updates) : Thrown :=
  s.schema.tables.foldlM (createMissingTable env s.db) s

/-- One round of `missing_column_creator`. -/
def createMissingColumn (env : UpdateEnv) (existing : Database) (t : SchemaTable) (s : Updates)
    (column : QString × QString) : Thrown :=
  if existing.lacksColumn t column then do
    let s ← s.request env (.addColumn (t.alterStatement column))
    return s.commitTo (s.db.addColumn t column)
  else return s

/-- `missing_column_creator`. -/
def createColumnsOf (env : UpdateEnv) (s : Updates) (t : SchemaTable) : Thrown := do
  let s ← s.request env (.readColumns t.tableName)
  t.columns.foldlM (createMissingColumn env s.db t) s

def createMissingColumns (env : UpdateEnv) (s : Updates) : Thrown :=
  s.schema.tables.foldlM (createColumnsOf env) s

end

/-! ### Scripts -/

/-- The files of the program, and the name of the plugin, if it is one. -/
structure Program where
  files : QString → Option QString
  pluginName : Option QString

namespace Program

/-- `QDir( ":/%1schemaUpdates/" )`. -/
def dir (p : Program) : QString :=
  (latin1 ":/%1schemaUpdates/").arg (p.pluginName.getD [])

def schemaName (p : Program) : QString := p.pluginName.getD (latin1 "Main application")

/-- The path of the script for a version. -/
def updateFile (p : Program) (version : Int) : QString :=
  p.dir ++ (latin1 "%1.sql").arg (QString.numberInt version)

end Program

/-- A script that is there. -/
structure UpdateInfo (p : Program) where
  version : Int
  content : QString
  readable : p.files (p.updateFile version) = some content

/-- The script for version `i`, if there is one. -/
def updateInfo (p : Program) (i : Int) : Option (UpdateInfo p) :=
  match h : p.files (p.updateFile i) with
  | none => none
  | some content => some ⟨i, content, h⟩

/-- The versions above `low`, up to `high`. -/
def versionsBetween (low high : Int) : List Int :=
  (List.range (high - low).toNat).map fun k : Nat => low + 1 + (k : Int)

def pendingUpdates (p : Program) (s : Updates) : List (UpdateInfo p) :=
  (versionsBetween s.currentVersion s.targetVersion).filterMap (updateInfo p)

/-- One round of `execUpdate`. -/
def execScriptStatement (env : UpdateEnv) (s : Updates) (statement : QString) : Thrown :=
  let statement := SqlUtils.stripComments statement
  if statement.isEmpty then .ok s else s.request env (.script statement)

def execUpdate {p : Program} (env : UpdateEnv) (update : UpdateInfo p) (s : Updates) : Thrown :=
  (SqlUtils.splitQueries update.content).foldlM (execScriptStatement env) s

/-- The transaction of a script. -/
def applyScript {p : Program} (env : UpdateEnv) (update : UpdateInfo p) (s : Updates) : Thrown := do
  let s ← s.request env .begin
  let s ← s.execUpdate env update
  let s ← s.request env (.setVersion update.version)
  let s ← s.request env .commit
  return s.commitTo
    { s.db with version := update.version, applied := s.db.applied ++ [update.version] }

def updateFailedText (version : Int) (error : QString) : QString :=
  ((latin1 "Schema update failed to version %1. The error was '%2'.").arg
    (QString.numberInt version)).arg error

/-- One round of the loop over the scripts. -/
def runUpdate {p : Program} (env : UpdateEnv) (s : Updates) (update : UpdateInfo p) :
    Except Updates Updates := do
  let number := QString.numberInt update.version
  let s := s.emit (.info ((latin1 "Upgrading schema to version %1...").arg number))
  let s ← s.guarded (applyScript env update) (updateFailedText update.version)
  return { s with currentVersion := update.version }.emit
    (.success ((latin1 "Schema successfully upgraded to version %1").arg number))

/-! ### Rules and the version number -/

def createRulesPermissionsAndTriggers (env : UpdateEnv) (s : Updates) : Thrown :=
  s.schema.rulesPermissionsAndTriggers.foldlM (fun s statement => s.request env (.rule statement)) s

/-- The version number of the target, when the last scripts are below it. -/
def raiseVersion (env : UpdateEnv) (s : Updates) : Thrown := do
  let s ← s.request env (.setVersion s.targetVersion)
  return { s.commitTo { s.db with version := s.targetVersion } with
    currentVersion := s.targetVersion }

/-! ### Updates -/

def tablesFailedText (error : QString) : QString :=
  (latin1 "Database schema update failed during creation of new tables: %1.").arg error

def columnsFailedText (error : QString) : QString :=
  (latin1 "Database schema update failed during creation of new columns: %1.").arg error

/-- Without the period at the end. -/
def rulesFailedText (error : QString) : QString :=
  (latin1 "Database schema update failed during creation of new columns: %1").arg error

def versionFailedText (error : QString) : QString :=
  (latin1 "The database schema version number could not be updated: %1.").arg error

def outdatedText (p : Program) : QString :=
  (latin1 "schema is outdated for %1.").arg p.schemaName

def upToDateText (p : Program) : QString :=
  (latin1 "schema is up-to-date for %1.").arg p.schemaName

section
variable [CaseFolding]

/-- The steps of an update; the first one that fails ends it. -/
def updateSteps (p : Program) (env : UpdateEnv) (s : Updates) : Except Updates Updates := do
  let s ← s.guarded (createMissingTables env) tablesFailedText
  let s ← s.guarded (createMissingColumns env) columnsFailedText
  let s ← (s.pendingUpdates p).foldlM (runUpdate env) s
  let s ← s.guarded (createRulesPermissionsAndTriggers env) rulesFailedText
  if s.currentVersion < s.targetVersion then s.guarded (raiseVersion env) versionFailedText
  else return s

def execUpdates (p : Program) (interactive : Bool) (env : UpdateEnv) (s : Updates) : Updates :=
  let s := s.setCacheEnabled false
  let r := s.needsUpdate env
  if !r.1 then r.2.emit (.success (upToDateText p))
  else
    let s := r.2.emit (.error (outdatedText p))
    -- the dialog is `QMessageBox::warning`, and the exit `QApplication::quit`
    if interactive && !env.applies then s.exit 0
    else
      match s.updateSteps p env with
      | .error s => s
      | .ok s => s.setCacheEnabled true

/-! ### Programs -/

/-- The calls of a program, and of the next ones after a restart.  A new updater
takes the place of the one before it, which is not called again. -/
inductive Event
  | construct (schema : Schema) (targetVersion : Int)
  | needsUpdate (env : UpdateEnv)
  | execUpdates (interactive : Bool) (env : UpdateEnv)

/-- A call begins. -/
def newCall (s : Updates) : Updates :=
  { s with requests := [], messages := [], exitCode := none }

def step (p : Program) (s : Updates) : Event → Updates
  | .construct schema targetVersion =>
      { s.newCall with schema := schema, currentVersion := -1, targetVersion := targetVersion }
  | .needsUpdate env => (s.newCall.needsUpdate env).2
  | .execUpdates interactive env => s.newCall.execUpdates p interactive env

end

end Updates

end Sqlate
