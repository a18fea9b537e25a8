/-
Sqlate/QueryManager.lean

`SqlQueryManager`, and the objects that are registered with it.

A `Process` is what one thread of a program sees: the connections with their
sessions and the notifications their drivers are subscribed to, the query
objects and the monitors by address, the entries of the query cache, and the
two lists of the manager with the mutexes that guard them.  An object is there
from its constructor to its destructor; the memory of one that is gone can be
used again, while the lists keep whatever pointers they hold.

An operation may not come back (`Stop`): the thread tries to acquire a mutex
that it already holds, `exit(1)` is called, or a pointer to no object is
dereferenced, after which nothing is determined.

The query cache owns query objects too: an entry is a copy, made and destroyed
like any other, under an address of its own.
-/
import Sqlate.Base.Runs
import Sqlate.QueryCache
import Sqlate.Session

namespace Sqlate

/-- The non-recursive mutexes of the manager. -/
inductive Mutex
  | queryMutex | monitorMutex
  deriving DecidableEq, Repr

/-- Why an operation does not come back. -/
inductive Stop
  | blocked (m : Mutex)
  | exited
  | dangling (address : Nat)
  deriving DecidableEq, Repr

/-- A query object: its result object, which copies share, and its connection,
which is both `m_db` and `m_connectionName`. -/
structure SqlQuery where
  connectionName : QString
  result : Nat
  deriving DecidableEq, Repr

structure SqlMonitor where
  connectionName : QString
  tables : List QString
  monitoredValues : List QString
  deriving DecidableEq, Repr

structure Process where
  session : QString → Session
  /-- The notifications a driver is subscribed to. -/
  subscribed : QString → List QString
  /-- The mutexes this thread holds. -/
  held : List Mutex
  query : Nat → Option SqlQuery
  result : Nat → QSqlResult
  resultCount : Nat
  /-- `m_queries` -/
  queries : List Nat
  /-- Connection name, text and address of the entries of `g_queryCache`. -/
  cached : List (QString × QString × Nat)
  queryCacheEnabled : Bool
  monitor : Nat → Option SqlMonitor
  /-- `m_monitors` -/
  monitors : List Nat

def openBrace : QChar := QChar.ofChar '\x7b'

def closeBrace : QChar := QChar.ofChar '\x7d'

namespace Process

/-- A program starts with its connections open. -/
def start : Process where
  session := fun _ => .new
  subscribed := fun _ => []
  held := []
  query := fun _ => none
  result := fun _ => .prepared []
  resultCount := 0
  queries := []
  cached := []
  queryCacheEnabled := true
  monitor := fun _ => none
  monitors := []

/-! ### Mutexes -/

def lock (m : Mutex) (w : Process) : Except Stop Process :=
  if m ∈ w.held then .error (.blocked m) else .ok { w with held := m :: w.held }

def unlock (m : Mutex) (w : Process) : Process := { w with held := w.held.erase m }

/-- A change under a `QMutexLocker`. -/
def guarded (m : Mutex) (change : Process → Process) (w : Process) : Except Stop Process := do
  let w ← w.lock m
  return (change w).unlock m

/-! ### The lists of the manager -/

def registerQuery (a : Nat) : Process → Except Stop Process :=
  guarded .queryMutex fun w => { w with queries := w.queries ++ [a] }

def unregisterQuery (a : Nat) : Process → Except Stop Process :=
  guarded .queryMutex fun w => { w with queries := w.queries.filter (· ≠ a) }

def registerMonitor (m : Nat) : Process → Except Stop Process :=
  guarded .monitorMutex fun w => { w with monitors := w.monitors ++ [m] }

def unregisterMonitor (m : Nat) : Process → Except Stop Process :=
  guarded .monitorMutex fun w => { w with monitors := w.monitors.filter (· ≠ m) }

/-- Follow a pointer to a query object. -/
def queryAt (w : Process) (a : Nat) : Except Stop SqlQuery :=
  match w.query a with
  | none => .error (.dangling a)
  | some q => .ok q

def monitorAt (w : Process) (m : Nat) : Except Stop SqlMonitor :=
  match w.monitor m with
  | none => .error (.dangling m)
  | some mon => .ok mon

/-! ### Query objects -/

/-- The members of a query object at an address. -/
def putQuery (a : Nat) (q : SqlQuery) (w : Process) : Process :=
  { w with query := Function.update w.query a (some q) }

/-- `SqlQuery::SqlQuery( db )`. -/
def newQuery (a : Nat) (connectionName : QString) (w : Process) : Except Stop Process :=
  registerQuery a
    { w.putQuery a ⟨connectionName, w.resultCount⟩ with
      result := Function.update w.result w.resultCount (.prepared [])
      resultCount := w.resultCount + 1 }

/-- `SqlQuery::SqlQuery( other )`. -/
def copyQuery (a : Nat) (other : SqlQuery) (w : Process) : Except Stop Process :=
  registerQuery a (w.putQuery a other)

/-- `SqlQuery::~SqlQuery`. -/
def destroyQuery (a : Nat) (w : Process) : Except Stop Process := do
  let w ← w.unregisterQuery a
  return { w with query := Function.update w.query a none }

/-- The values bound to the named placeholders, `QSqlQuery::boundValues`. -/
def boundValues [SqlDriver] (q : SqlQuery) (w : Process) : List (QString × QVariant) :=
  let r := w.result q.result
  (SqlDriver.placeholders r.lastQuery).filterMap fun n => (r.boundValue n).map fun v => (n, v)

/-- `QSqlQuery::bindValue`; copies that share the result object see it. -/
def bindValue (q : SqlQuery) (w : Process) (call : QString × QVariant) : Process :=
  { w with
    result := Function.update w.result q.result ((w.result q.result).bindValue call.1 call.2) }

/-- The object gets a result object of its own, for `text`. -/
def detach (a : Nat) (q : SqlQuery) (text : QString) (w : Process) : Process :=
  { w.putQuery a { q with result := w.resultCount } with
    result := Function.update w.result w.resultCount (.prepared text)
    resultCount := w.resultCount + 1 }

/-! ### Notifications of the driver -/

def subscribeToNotification (connectionName notification : QString) (w : Process) : Process :=
  if notification ∈ w.subscribed connectionName then w
  else
    { w with
      subscribed := Function.update w.subscribed connectionName
        (w.subscribed connectionName ++ [notification]) }

def unsubscribeFromNotification (connectionName notification : QString) (w : Process) : Process :=
  { w with
    subscribed := Function.update w.subscribed connectionName
      ((w.subscribed connectionName).filter (· ≠ notification)) }

/-- The subscriptions of `SqlMonitor::resubscribe`. -/
def resubscribe (mon : SqlMonitor) (w : Process) : Process :=
  (mon.tables ++ mon.monitoredValues).foldl
    (fun w n => w.subscribeToNotification mon.connectionName n) w

/-! ### The query cache -/

/-- The destructors that run when `g_queryCache` is cleared. -/
def destroyCached (w : Process) : Except Stop Process :=
  w.cached.foldlM (fun w entry => w.destroyQuery entry.2.2) w

/-- `SqlQueryCache::clear`. -/
def clearCache (w : Process) : Except Stop Process := do
  let w ← w.destroyCached
  return { w with cached := [] }

/-- `SqlQueryCache::setEnabled`. -/
def setCacheEnabled (enable : Bool) (w : Process) : Except Stop Process :=
  { w with queryCacheEnabled := enable }.clearCache

def findCached (connectionName text : QString) (w : Process) : Option Nat :=
  (w.cached.find? fun entry => entry.1 = connectionName ∧ entry.2.1 = text).map (·.2.2)

/-- `SqlQueryCache::insert`: an entry that is there is assigned to, else there
is a new one at address `a`. -/
def insertCached (a : Nat) (connectionName text : QString) (query : SqlQuery) (w : Process) :
    Except Stop Process :=
  if w.queryCacheEnabled then
    match w.findCached connectionName text with
    | some b => .ok (w.putQuery b query)
    | none => do
        let w ← w.copyQuery a query
        return { w with cached := w.cached ++ [(connectionName, text, a)] }
  else .ok w

/-! ### Reconnecting -/

section
variable [SqlDriver]

/-- One round of the loop that stores the bound values. -/
def saveBoundValues (connectionName : QString) (w : Process)
    (all : Nat → List (QString × QVariant)) (a : Nat) :
    Except Stop (Nat → List (QString × QVariant)) := do
  let q ← w.queryAt a
  if q.connectionName ≠ connectionName then return all
  else return Function.update all a (w.boundValues q)

omit [SqlDriver] in
/-- One round of the loop that prepares the queries again. -/
def prepareAgain (connectionName : QString) (all : Nat → List (QString × QVariant)) (w : Process)
    (a : Nat) : Except Stop Process := do
  let q ← w.queryAt a
  let str := (w.result q.result).lastQuery
  if q.connectionName ≠ connectionName then return w
  else if str.isEmpty then return w
  else
    -- `prepareWithoutCheck`; whether it succeeds is not looked at
    return (all a).foldl (bindValue { q with result := w.resultCount }) (w.detach a q str)

omit [SqlDriver] in
/-- One round of the loop over the monitors. -/
def resubscribeMonitor (connectionName : QString) (w : Process) (m : Nat) :
    Except Stop Process := do
  let mon ← w.monitorAt m
  if mon.connectionName ≠ connectionName then return w
  else return w.resubscribe mon

omit [SqlDriver] in
/-- What follows a successful `open`. -/
def reconnect (connectionName : QString) (all : Nat → List (QString × QVariant)) (w : Process) :
    Except Stop Process := do
  let w := { w with
    session := Function.update w.session connectionName (w.session connectionName).reopen }
  let w ← w.clearCache
  let w ← w.queries.foldlM (prepareAgain connectionName all) w
  let w := (w.subscribed connectionName).foldl
    (fun w n => w.unsubscribeFromNotification connectionName n) w
  w.monitors.foldlM (resubscribeMonitor connectionName) w

omit [SqlDriver] in
/-- The loop of `checkDbIsAlive`; `retries` attempts to open are left. -/
def reopenLoop (connectionName : QString) (all : Nat → List (QString × QVariant))
    (onMainThread : Bool) : Nat → List Bool → Process → Except Stop Process
  | 0, _, w =>
      if (w.session connectionName).isOpen then .ok w
      else if onMainThread then .error .exited
      else .ok w
  | retries + 1, opens, w =>
      if (w.session connectionName).isOpen then .ok w
      else if onMainThread then .error .exited
      else if opens.headD false then
        (w.reconnect connectionName all).bind
          (reopenLoop connectionName all onMainThread retries opens.tail)
      else reopenLoop connectionName all onMainThread retries opens.tail w

def checkDbIsAlive (connectionName : QString) (onMainThread : Bool) (opens : List Bool)
    (w : Process) : Except Stop Process := do
  let w ← w.lock .queryMutex
  let w ← w.lock .monitorMutex
  let allBoundValues ← w.queries.foldlM (saveBoundValues connectionName w) fun _ => []
  let w ← reopenLoop connectionName allBoundValues onMainThread 10 opens w
  return (w.unlock .monitorMutex).unlock .queryMutex

/-! ### Requests -/

/-- What the server makes of a request; `request` is the session's part. -/
def serve (connectionName : QString) (request : Session → Bool × Session) (w : Process) :
    Bool × Process :=
  let r := request (w.session connectionName)
  (r.1, { w with session := Function.update w.session connectionName r.2 })

/-- The request is made between checks of the connection, the second time as
`again`; the result tells whether the call returns or throws. -/
def checked (connectionName : QString) (env : CallEnv)
    (first again : DriverOutcome → Process → Bool × Process) (w : Process) :
    Except Stop (Bool × Process) := do
  let w ← w.checkDbIsAlive connectionName env.onMainThread env.opens1
  let r := first env.call1 w
  if r.1 then return (true, r.2)
  else if (r.2.session connectionName).isOpen then return (false, r.2)
  else
    let w ← r.2.checkDbIsAlive connectionName env.onMainThread env.opens2
    return again env.call2 w

omit [SqlDriver] in
/-- `QSqlQuery::exec()`; `id` is the number of the execution. -/
def request (connectionName : QString) (id : Nat) (o : DriverOutcome) (w : Process) :
    Bool × Process :=
  w.serve connectionName (Session.execStatement id o)

omit [SqlDriver] in
/-- `QSqlQuery::prepare`, which executes nothing; on a connection known to be
closed it gives up at once. -/
def requestPrepare (a : Nat) (q : SqlQuery) (text : QString) (o : DriverOutcome) (w : Process) :
    Bool × Process :=
  if (w.session q.connectionName).isOpen then
    (w.detach a q text).serve q.connectionName (Session.request (fun s => s) (fun s => s) o)
  else (false, w)

/-- `SqlQuery::exec()`. -/
def exec (q : SqlQuery) (id : Nat) (env : CallEnv) : Process → Except Stop (Bool × Process) :=
  checked q.connectionName env (request q.connectionName id) (request q.connectionName id)

/-- `SqlQuery::exec( query )`. -/
def execText (a : Nat) (q : SqlQuery) (text : QString) (id : Nat) (env : CallEnv) :
    Process → Except Stop (Bool × Process) :=
  checked q.connectionName env
    (fun o w => (w.detach a q text.trimmed).request q.connectionName id o)
    (request q.connectionName id)

/-- `SqlQuery::prepare( query )`. -/
def prepare (a : Nat) (q : SqlQuery) (text : QString) (env : CallEnv) :
    Process → Except Stop (Bool × Process) :=
  checked q.connectionName env (requestPrepare a q text) (requestPrepare a q text)

/-- `SqlQuery::SqlQuery( query, db )`.  When the statement throws, the object
is gone, but its destructor does not run. -/
def newQueryFromText (a : Nat) (connectionName text : QString) (id : Nat) (env : CallEnv)
    (w : Process) : Except Stop Process := do
  let q : SqlQuery := ⟨connectionName, w.resultCount⟩
  let w ← w.newQuery a connectionName
  if text.isEmpty then return w
  else
    let r ← w.execText a q text id env
    if r.1 then return r.2
    else return { r.2 with query := Function.update r.2.query a none }

end

/-! ### Monitors -/

def putMonitor (m : Nat) (mon : SqlMonitor) (w : Process) : Process :=
  { w with monitor := Function.update w.monitor m (some mon) }

/-- `SqlMonitor::SqlMonitor`. -/
def newMonitor (m : Nat) (connectionName : QString) (w : Process) : Except Stop Process :=
  registerMonitor m (w.putMonitor m ⟨connectionName, [], []⟩)

/-- `SqlMonitor::~SqlMonitor`; the driver keeps the subscriptions. -/
def destroyMonitor (m : Nat) (w : Process) : Except Stop Process := do
  let w ← w.unregisterMonitor m
  return { w with monitor := Function.update w.monitor m none }

/-- The notification for a table. -/
def tableNotification [CaseFolding] (table : QString) : QString :=
  CaseFolding.toLower table ++ latin1 "changed"

/-- `SqlUtils::createIdentifier`. -/
def createIdentifier [HashFunction] (text : QString) : QString :=
  QString.numberHex (HashFunction.qHash text).toNat

/-- The text of a value; braces are removed when there are both kinds. -/
def processedValue (value : QString) : QString :=
  if openBrace ∈ value ∧ closeBrace ∈ value then
    value.filter fun c => c ≠ openBrace ∧ c ≠ closeBrace
  else value

/-- The notification for a value of a column. -/
def valueNotification [HashFunction] (table column value : QString) : QString :=
  ((latin1 "%1_%2").arg (processedValue value)).arg
    (createIdentifier (table ++ latin1 "_" ++ column))

/-- `SqlMonitor::subscribe`. -/
def subscribe (mon : SqlMonitor) (notification : QString) (w : Process) : Process :=
  if notification ∈ w.subscribed mon.connectionName then w
  else w.subscribeToNotification mon.connectionName notification

/-- One round of the loop of `setMonitorTables`. -/
def setMonitorTable [CaseFolding] (m : Nat) (acc : SqlMonitor × Process) (table : QString) :
    SqlMonitor × Process :=
  let notification := tableNotification table
  if notification ∈ acc.1.tables then acc
  else
    let mon := { acc.1 with tables := acc.1.tables ++ [notification] }
    (mon, (acc.2.putMonitor m mon).subscribe mon notification)

def setMonitorTables [CaseFolding] (m : Nat) (mon : SqlMonitor) (tables : List QString)
    (w : Process) : Process :=
  (tables.foldl (setMonitorTable m) (mon, w)).2

def addValueMonitor [HashFunction] (m : Nat) (mon : SqlMonitor) (table column value : QString)
    (w : Process) : Process :=
  let notification := valueNotification table column value
  let mon := { mon with monitoredValues := mon.monitoredValues ++ [notification] }
  (w.putMonitor m mon).subscribe mon notification

def unsubscribeValuesNotifications (m : Nat) (mon : SqlMonitor) (w : Process) : Process :=
  (mon.monitoredValues.foldl (fun w n => w.unsubscribeFromNotification mon.connectionName n) w)
    |>.putMonitor m { mon with monitoredValues := [] }

/-! ### Programs -/

/-- The operations of a program, with what the environment does in them.  New
objects come with their address. -/
inductive Event
  | newQuery (a : Nat) (connectionName : QString)
  | newQueryFromText (a : Nat) (connectionName text : QString) (id : Nat) (env : CallEnv)
  | copyQuery (a b : Nat)
  | assignQuery (a b : Nat)
  | destroyQuery (a : Nat)
  | exec (a id : Nat) (env : CallEnv)
  | execText (a : Nat) (text : QString) (id : Nat) (env : CallEnv)
  | prepare (a : Nat) (text : QString) (env : CallEnv)
  | bindValue (a : Nat) (placeholder : QString) (value : QVariant)
  | insertCached (a : Nat) (connectionName text : QString) (b : Nat)
  | queryCached (a : Nat) (connectionName text : QString)
  | setCacheEnabled (enable : Bool)
  | clearCache
  | newMonitor (m : Nat) (connectionName : QString)
  | setMonitorTables (m : Nat) (tables : List QString)
  | addValueMonitor (m : Nat) (table column value : QString)
  | unsubscribeValuesNotifications (m : Nat)
  | destroyMonitor (m : Nat)
  | loseConnection (connectionName : QString)
  | checkDbIsAlive (connectionName : QString) (onMainThread : Bool) (opens : List Bool)

/-- The query objects the program may name: those of the cache it only sees
through copies. -/
def named (w : Process) (a : Nat) : Option SqlQuery :=
  if w.cached.any fun entry => entry.2.2 = a then none else w.query a

variable [CaseFolding] [HashFunction] [SqlDriver]

/-- One operation.  One that names an object which is not there, or puts a new
one over another, is no operation of a program and does nothing. -/
def step (w : Process) : Event → Except Stop Process
  | .newQuery a c => if (w.query a).isSome then .ok w else w.newQuery a c
  | .newQueryFromText a c text id env =>
      if (w.query a).isSome then .ok w else w.newQueryFromText a c text id env
  | .copyQuery a b =>
      match w.query a, w.named b with
      | none, some q => w.copyQuery a q
      | _, _ => .ok w
  | .assignQuery a b =>
      match w.named a, w.named b with
      | some _, some q => .ok (w.putQuery a q)
      | _, _ => .ok w
  | .destroyQuery a => if (w.named a).isSome then w.destroyQuery a else .ok w
  | .exec a id env =>
      match w.named a with
      | some q => (w.exec q id env).map Prod.snd
      | none => .ok w
  | .execText a text id env =>
      match w.named a with
      | some q => (w.execText a q text id env).map Prod.snd
      | none => .ok w
  | .prepare a text env =>
      match w.named a with
      | some q => (w.prepare a q text env).map Prod.snd
      | none => .ok w
  | .bindValue a placeholder value =>
      match w.named a with
      | some q => .ok (bindValue q w (placeholder, value))
      | none => .ok w
  | .insertCached a c text b =>
      match w.query a, w.named b with
      | none, some q => w.insertCached a c text q
      | _, _ => .ok w
  | .queryCached a c text =>
      if (w.query a).isSome then .ok w
      else
        match (w.findCached c text).bind w.query with
        | some q => w.copyQuery a q
        -- a query object that is made by default, on the default connection
        | none => w.newQuery a (latin1 "qt_sql_default_connection")
  | .setCacheEnabled enable => w.setCacheEnabled enable
  | .clearCache => w.clearCache
  | .newMonitor m c => if (w.monitor m).isSome then .ok w else w.newMonitor m c
  | .setMonitorTables m tables =>
      match w.monitor m with
      | some mon => .ok (w.setMonitorTables m mon tables)
      | none => .ok w
  | .addValueMonitor m table column value =>
      match w.monitor m with
      | some mon => .ok (w.addValueMonitor m mon table column value)
      | none => .ok w
  | .unsubscribeValuesNotifications m =>
      match w.monitor m with
      | some mon => .ok (w.unsubscribeValuesNotifications m mon)
      | none => .ok w
  | .destroyMonitor m => if (w.monitor m).isSome then w.destroyMonitor m else .ok w
  | .loseConnection c =>
      .ok { w with session := Function.update w.session c ((w.session c).lose.notice true) }
  | .checkDbIsAlive c onMainThread opens => w.checkDbIsAlive c onMainThread opens

/-- The state of the program after one more operation; nothing follows one that
does not come back. -/
def next (s : Except Stop Process) (e : Event) : Except Stop Process := s.bind (step · e)

end Process

end Sqlate
