/-
Sqlate/QueryCache.lean

The cache of prepared queries, and what programs do with prepared queries.

A `Client` is everything that happens on one connection: the cache, the result
objects, the builders with their `m_query`, and the query objects that callers
hold.  Copies of a query object share one result object, so that a query
object is just the number of its result object; before the first assembly
there is none.

`driver` records what reaches the driver: the text of every execution, and the
values of the placeholders in it.  `lastBinder` is a history variable: for a
text and a placeholder, the object in which the placeholder was bound last.
Nothing reads it but the condition under which the cache is not noticed.
-/
import Sqlate.PreparedQuery
import Sqlate.QueryBuilders

namespace Sqlate

/-- What Qt and the database make of a statement text: the named placeholders
that Qt finds in it, and whether it can be prepared. -/
class SqlDriver where
  placeholders : QString → List QString
  prepares : QString → Bool

/-! ### The cache -/

/-- `g_queryCache`, by connection name and text, and `g_queryCacheEnabled`. -/
structure SqlQueryCache where
  queryCache : QString → QString → Option Nat
  queryCacheEnabled : Bool

namespace SqlQueryCache

def contains (c : SqlQueryCache) (dbConnectionName queryStatement : QString) : Bool :=
  if !c.queryCacheEnabled then false
  else (c.queryCache dbConnectionName queryStatement).isSome

def query (c : SqlQueryCache) (dbConnectionName queryStatement : QString) : Option Nat :=
  c.queryCache dbConnectionName queryStatement

def insert (c : SqlQueryCache) (dbConnectionName queryStatement : QString) (query : Nat) :
    SqlQueryCache :=
  if c.queryCacheEnabled then
    { c with
      queryCache := Function.update c.queryCache dbConnectionName
        (Function.update (c.queryCache dbConnectionName) queryStatement (some query)) }
  else c

def clear (c : SqlQueryCache) : SqlQueryCache := { c with queryCache := fun _ _ => none }

def setEnabled (c : SqlQueryCache) (enable : Bool) : SqlQueryCache :=
  { c with queryCacheEnabled := enable }.clear

end SqlQueryCache

/-! ### Binding the values of an assembly -/

/-- The calls of `QSqlQuery::bindValue` in the loop of `query()`.  The loop of
the delete builder has no case for `SqlNow`. -/
def Builder.bindCalls : {k : Kind} → Builder k → List (QString × QVariant)
  | .delete, (b : SqlDeleteQueryBuilder) =>
      b.bindValues.zipIdx.map fun v => (placeholderName v.2, v.1.bindForm)
  | _, b => QSqlResult.bindCalls b.bindList

/-! ### Clients -/

/-- An execution as the driver sees it. -/
structure Execution where
  text : QString
  values : List (QString × Option QVariant)
  deriving DecidableEq

/-- A query object in the program: the `m_query` of a builder, to which
`query()` returns a reference, or a copy a caller has made. -/
inductive QueryObject
  | builder (i : Nat)
  | copy (j : Nat)
  deriving DecidableEq

structure Client (kinds : Nat → Kind) where
  db : QString
  cache : SqlQueryCache
  count : Nat
  result : Nat → QSqlResult
  builder : (i : Nat) → Builder (kinds i)
  object : QueryObject → Option Nat
  driver : List Execution
  lastBinder : QString → QString → Option Nat

inductive Event (kinds : Nat → Kind)
  | modify (i : Nat) (c : Call (kinds i))
  | invalidateQuery (i : Nat)
  | query (i : Nat)
  | exec (i : Nat)
  | copyQuery (j : Nat) (q : QueryObject)
  | bindValue (q : QueryObject) (placeholder : QString) (value : QVariant)
  | execQuery (q : QueryObject)

namespace Client

variable {kinds : Nat → Kind}

/-- A program starts, with the cache enabled or not. -/
def start (kinds : Nat → Kind) (db : QString) (cacheEnabled : Bool) : Client kinds where
  db := db
  cache := SqlQueryCache.setEnabled ⟨fun _ _ => none, true⟩ cacheEnabled
  count := 0
  result := fun _ => .prepared []
  builder := fun i => .new db (kinds i)
  object := fun _ => none
  driver := []
  lastBinder := fun _ _ => none

/-- `QSqlQuery::bindValue` on result object `o`. -/
def bind (w : Client kinds) (o : Nat) (placeholder : QString) (value : QVariant) : Client kinds :=
  { w with
    result := Function.update w.result o ((w.result o).bindValue placeholder value)
    lastBinder := Function.update w.lastBinder (w.result o).lastQuery
      (Function.update (w.lastBinder (w.result o).lastQuery) placeholder (some o)) }

/-! What binding does to the other objects, names and texts. -/

@[simp] theorem lastQuery_bind (w : Client kinds) (o : Nat) (n : QString) (v : QVariant) (p : Nat) :
    ((w.bind o n v).result p).lastQuery = (w.result p).lastQuery := by
  by_cases hp : p = o
  · subst hp
    simp [bind, QSqlResult.bindValue]
  · simp [bind, hp]

theorem boundValue_bind (w : Client kinds) (o : Nat) (n : QString) (v : QVariant) (p : Nat)
    (m : QString) :
    ((w.bind o n v).result p).boundValue m
      = if p = o ∧ m = n then some v else (w.result p).boundValue m := by
  by_cases hp : p = o
  · subst hp
    by_cases hm : m = n
    · subst hm
      simp [bind, QSqlResult.bindValue]
    · simp [bind, QSqlResult.bindValue, hm]
  · simp [bind, hp]

theorem lastBinder_bind (w : Client kinds) (o : Nat) (n : QString) (v : QVariant) (text m : QString) :
    (w.bind o n v).lastBinder text m
      = if text = (w.result o).lastQuery ∧ m = n then some o else w.lastBinder text m := by
  by_cases htext : text = (w.result o).lastQuery
  · subst htext
    by_cases hm : m = n
    · subst hm
      simp [bind]
    · simp [bind, hm]
  · simp [bind, htext]

def bindAll (w : Client kinds) (o : Nat) (calls : List (QString × QVariant)) : Client kinds :=
  calls.foldl (fun w call => w.bind o call.1 call.2) w

@[simp] theorem driver_bindAll (w : Client kinds) (o : Nat) (calls : List (QString × QVariant)) :
    (w.bindAll o calls).driver = w.driver := by
  induction calls generalizing w with
  | nil => rfl
  | cons call calls ih => exact ih _

def assign (w : Client kinds) (q : QueryObject) (o : Option Nat) : Client kinds :=
  { w with object := Function.update w.object q o }

section
variable [SqlDriver]

omit [SqlDriver] in
/-- A new result object for a statement, which the cache is told about. -/
def prepareNew (w : Client kinds) (sqlStatement : QString) : Client kinds :=
  { w with
    result := Function.update w.result w.count (.prepared sqlStatement)
    count := w.count + 1
    cache := w.cache.insert w.db sqlStatement w.count }

omit [SqlDriver] in
theorem result_prepareNew_self (w : Client kinds) (text : QString) :
    (w.prepareNew text).result w.count = .prepared text := by
  simp [prepareNew]

omit [SqlDriver] in
/-- Preparing leaves the objects there are alone. -/
theorem result_prepareNew_of_lt (w : Client kinds) (text : QString) {o : Nat} (ho : o < w.count) :
    (w.prepareNew text).result o = w.result o := by
  simp [prepareNew, Nat.ne_of_lt ho]

/-- `SqlQueryBuilderBase::prepareQuery`; `none` is the exception of a statement
that cannot be prepared. -/
def prepareQuery (w : Client kinds) (sqlStatement : QString) : Option (Nat × Client kinds) :=
  if w.cache.contains w.db sqlStatement then
    (w.cache.query w.db sqlStatement).map fun o => (o, w)
  else if SqlDriver.prepares sqlStatement then
    some (w.count, w.prepareNew sqlStatement)
  else none

/-- `query()` of builder `i`, and whether it returns; the members of the
builder are written before the statement is prepared. -/
def query (w : Client kinds) (i : Nat) : Client kinds × Bool :=
  if (w.builder i).assembled then (w, true)
  else
    let b := (w.builder i).assemble
    -- text and flag stay written when the statement cannot be prepared
    let w := { w with builder := Function.update w.builder i b }
    match w.prepareQuery (SqlText.toQString b.queryString) with
    | none => (w, false)
    | some (o, w) => ((w.assign (.builder i) (some o)).bindAll o b.bindCalls, true)

theorem driver_prepareQuery {w w' : Client kinds} {text : QString} {o : Nat}
    (h : w.prepareQuery text = some (o, w')) : w'.driver = w.driver := by
  simp only [prepareQuery] at h
  split_ifs at h
  · obtain ⟨p, -, heq⟩ := Option.map_eq_some_iff.mp h
    obtain ⟨rfl, rfl⟩ := Prod.mk.inj heq
    rfl
  · obtain ⟨rfl, rfl⟩ := Prod.mk.inj (Option.some.inj h)
    rfl

@[simp] theorem driver_query (w : Client kinds) (i : Nat) : (w.query i).1.driver = w.driver := by
  simp only [query]
  split
  · rfl
  · split
    · rfl
    · next o w' h =>
        rw [driver_bindAll]
        have hdriver := driver_prepareQuery h
        exact hdriver

/-- `SqlQuery::exec` on result object `o`. -/
def execute (w : Client kinds) (o : Nat) : Client kinds :=
  let r := w.result o
  { w with
    driver := w.driver ++
      [⟨r.lastQuery, (SqlDriver.placeholders r.lastQuery).map fun n => (n, r.boundValue n)⟩] }

/-- `SqlQuery::exec` on a query object; one that was never prepared does not
reach the driver. -/
def execObject (w : Client kinds) (q : QueryObject) : Client kinds :=
  match w.object q with
  | none => w
  | some o => w.execute o

def step [CaseFolding] (w : Client kinds) : Event kinds → Client kinds
  | .modify i c => { w with builder := Function.update w.builder i ((w.builder i).apply c) }
  | .invalidateQuery i =>
      { w with builder := Function.update w.builder i (w.builder i).invalidateQuery }
  | .query i => (w.query i).1
  -- `query().exec()`: an exception of `query()` ends the call
  | .exec i => if (w.query i).2 then (w.query i).1.execObject (.builder i) else (w.query i).1
  | .copyQuery j q => w.assign (.copy j) (w.object q)
  | .bindValue q placeholder value =>
      match w.object q with
      | none => w
      | some o => w.bind o placeholder value
  | .execQuery q => w.execObject q

end

end Client

end Sqlate
