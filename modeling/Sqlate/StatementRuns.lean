/-
Sqlate/StatementRuns.lean

Programs with any number of builders, and the rows of the server.

What a client executes reaches the driver, goes through the server's reader and changes
the rows.  `Wishes` are the same program as it is meant: requests instead of builders,
and statement objects that are a frozen request with what has been bound since; no text
and no placeholder occurs there.  Under the same events, in any order and with any
number of builders, statement objects and copies of them, both have the same rows, with
and without the query cache (`rows_run`).
-/
import Sqlate.Base.Runs
import Sqlate.CacheTransparency
import Sqlate.InsertEffects
import Sqlate.Reassembly
import Sqlate.StatementParameters

namespace Sqlate

/-! ### Requests that can be executed -/

def InsertRequest.Plain (q : InsertRequest) : Prop :=
  ∃ table : PlainName, q.table = table.text ∧
    ∃ names : List PlainName, q.calls.map InsertCall.columnName = names.map PlainName.text ∧
      distinctNames (names.map PlainName.folded) ∧ InPlace q.calls

section
variable [CaseFolding]

/-- The condition compares columns of the table. -/
def RowRequest.PlainWhere (q : RowRequest) : Prop :=
  ∃ table : PlainName, q.table = table.text ∧ NamedCalls (.table table.text) true q.calls

/-- At least one column is set, and none twice. -/
def RowRequest.PlainSet (q : RowRequest) : Prop :=
  ∃ cols : List (PlainName × QVariant), q.columns = writtenColumns cols ∧ cols ≠ [] ∧
    distinctNames (cols.map fun col => col.1.folded)

def Request.Plain : {k : Kind} → Request k → Prop
  | .select, _ => True
  | .insert, (q : InsertRequest) => q.Plain
  | .update, (q : RowRequest) => q.PlainWhere ∧ q.PlainSet
  | .delete, (q : RowRequest) => q.PlainWhere

end

/-- A statement object as it is meant. -/
structure Meant where
  kind : Kind
  request : Request kind
  /-- What the program has bound since the statement was prepared. -/
  binds : List (QString × QVariant)

def Meant.Plain [CaseFolding] (m : Meant) : Prop := m.request.Plain ∧ NoneGenerated m.binds

/-- The statement object comes from a builder with the request. -/
def Meant.Is [CaseFolding] (m : Meant) (r : QSqlResult) : Prop :=
  ∃ b : Builder m.kind, b.Asks m.request ∧ b.assembled = false ∧ r = b.assemble.statement m.binds

/-! ### The machines -/

section
variable {kinds : Nat → Kind}

/-- The program as it is meant. -/
structure Wishes (kinds : Nat → Kind) where
  request : (i : Nat) → Request (kinds i)
  assembled : Nat → Bool
  count : Nat
  meant : Nat → Meant
  object : QueryObject → Option Nat
  rows : Rows

namespace Client

variable [SqlDriver] (w : Client kinds)

/-- The server accepts the text of an assembly. -/
def Prepares : Event kinds → Prop
  | .query i | .exec i =>
      (w.builder i).assembled = false →
        SqlDriver.prepares (SqlText.toQString (w.builder i).assemble.queryString) = true
  | _ => True

end Client

namespace Wishes

variable [CaseFolding] (S : Server)

def query (w : Wishes kinds) (i : Nat) : Wishes kinds :=
  if w.assembled i then w
  else
    { w with
      assembled := Function.update w.assembled i true
      count := w.count + 1
      meant := Function.update w.meant w.count ⟨kinds i, w.request i, []⟩
      object := Function.update w.object (.builder i) (some w.count) }

def execObject (w : Wishes kinds) (q : QueryObject) : Wishes kinds :=
  match w.object q with
  | none => w
  | some o =>
      { w with rows := (w.meant o).request.execute S (givenBy (w.meant o).binds) w.rows }

def bind (w : Wishes kinds) (o : Nat) (placeholder : QString) (value : QVariant) : Wishes kinds :=
  { w with
    meant := Function.update w.meant o
      { w.meant o with binds := (w.meant o).binds ++ [(placeholder, value)] } }

def step (w : Wishes kinds) : Event kinds → Wishes kinds
  | .modify i c => { w with request := Function.update w.request i ((w.request i).add c) }
  | .invalidateQuery i => { w with assembled := Function.update w.assembled i false }
  | .query i => w.query i
  | .exec i => (w.query i).execObject S (.builder i)
  | .copyQuery j q => { w with object := Function.update w.object (.copy j) (w.object q) }
  | .bindValue q placeholder value =>
      match w.object q with
      | none => w
      | some o => w.bind o placeholder value
  | .execQuery q => w.execObject S q

/-- What is executed is a request that can be. -/
def Plain (w : Wishes kinds) : Event kinds → Prop
  | .exec i => ∀ o ∈ (w.query i).object (.builder i), ((w.query i).meant o).Plain
  | .execQuery q => ∀ o ∈ w.object q, (w.meant o).Plain
  | _ => True

def start (kinds : Nat → Kind) (rows : Rows) : Wishes kinds where
  request := fun i => .new (kinds i)
  assembled := fun _ => false
  count := 0
  meant := fun _ => ⟨.select, (), []⟩
  object := fun _ => none
  rows := rows

end Wishes

/-! ### The statement objects -/

section
variable [CaseFolding] (S : Server)

omit [CaseFolding] in
/-- A SELECT is no statement that changes rows. -/
theorem read_select (b : SqlSelectQueryBuilder) (n : Nat) :
    Modification.read (words (b.textFrom n).toQString) = none := by
  have hselect : words (latin1 "SELECT ") = kw "SELECT" := by decide
  have hwords : ∀ t : QString, Modification.read (words (latin1 "SELECT " ++ t)) = none := by
    intro t
    rw [words_piece rfl separates_space hselect]
    rfl
  rw [SqlSelectQueryBuilder.textFrom, SqlSelectQueryBuilder.selectClause]
  simp only [SqlText.toQString_append, SqlText.toQString_sql, List.append_assoc]
  exact hwords _

/-- **A statement object does to the rows what it is meant to do.** -/
theorem Meant.Is.exec {m : Meant} {r : QSqlResult} (h : m.Is r) (hm : m.Plain) (rows : Rows) :
    (S.exec r rows).getD rows = m.request.execute S (givenBy m.binds) rows := by
  obtain ⟨kind, request, binds⟩ := m
  obtain ⟨b, hasks, hb, rfl⟩ := h
  obtain ⟨hplain, hbinds⟩ := hm
  show (S.exec (b.assemble.statement binds) rows).getD rows = _
  cases kind with
  | select =>
      have htext : Builder.queryString (k := .select) b.assemble
          = SqlSelectQueryBuilder.textFrom b.nextNumber b := by
        rw [Builder.assemble, SqlSelectQueryBuilder.assemble_eq b hb]
        rfl
      have hnone : S.exec (b.assemble.statement binds) rows = none := by
        rw [Server.exec, lastQuery_statement, htext, read_select]
        rfl
      rw [hnone]
      rfl
  | insert =>
      obtain ⟨table, htable, names, hnames, hdistinct, hplace⟩ := hplain
      have hexec := SqlInsertQueryBuilder.Asks.exec S hasks hb htable hnames hdistinct hplace hbinds rows
      show Option.getD (S.exec _ rows) rows = rows ++ [(lower request.table, request.row S)]
      rw [Builder.assemble, hexec, htable]
      rfl
  | update =>
      obtain ⟨⟨table, htable, hnamed⟩, cols, hcols, hne, hdistinct⟩ := hplain
      rw [Builder.assemble,
        SqlUpdateQueryBuilder.Asks.exec S hasks hb htable hcols hne hdistinct hnamed hbinds rows]
      rfl
  | delete =>
      obtain ⟨table, htable, hnamed⟩ := hplain
      rw [Builder.assemble, SqlDeleteQueryBuilder.Asks.exec S hasks hb htable hnamed hbinds rows]
      rfl

theorem Meant.Is.bind {m : Meant} {r : QSqlResult} (h : m.Is r) (placeholder : QString)
    (value : QVariant) :
    Meant.Is { m with binds := m.binds ++ [(placeholder, value)] } (r.bindValue placeholder value) := by
  obtain ⟨b, hasks, hb, rfl⟩ := h
  refine ⟨b, hasks, hb, ?_⟩
  show _ = b.assemble.statement (m.binds ++ [(placeholder, value)])
  rw [Builder.statement, Builder.statement, ← List.append_assoc, List.foldl_concat]

end

/-! ### The simulation -/

section
variable [CaseFolding] [SqlDriver]

/-- A client without the query cache, and what it is meant to do. -/
structure Client.Keeps (S : Server) (rows : Rows) (c : Client kinds) (w : Wishes kinds) : Prop where
  disabled : c.cache.queryCacheEnabled = false
  asks : ∀ i, (c.builder i).Asks (w.request i)
  assembled : ∀ i, (c.builder i).assembled = w.assembled i
  count : c.count = w.count
  object : c.object = w.object
  known : ∀ q, ∀ o ∈ w.object q, o < w.count
  meant : ∀ o < w.count, (w.meant o).Is (c.result o)
  rows : c.driver.foldl S.perform rows = w.rows

variable {S : Server} {rows : Rows} {c : Client kinds} {w : Wishes kinds}

omit [CaseFolding] in
/-- An assembly makes a new statement object. -/
theorem Client.query_of_prepares {i : Nat}
    (hdisabled : c.cache.queryCacheEnabled = false) (hb : (c.builder i).assembled = false)
    (hprepares : SqlDriver.prepares (SqlText.toQString (c.builder i).assemble.queryString) = true) :
    (c.query i).2 = true ∧ (c.query i).1.cache = c.cache
      ∧ (c.query i).1.builder = Function.update c.builder i (c.builder i).assemble
      ∧ (c.query i).1.count = c.count + 1
      ∧ (c.query i).1.object = Function.update c.object (.builder i) (some c.count)
      ∧ (c.query i).1.result
          = Function.update c.result c.count ((c.builder i).assemble.statement []) := by
  have hall : ∀ (calls : List (QString × QVariant)) (c : Client kinds) (o : Nat),
      ∃ binder, c.bindAll o calls = { c with
        result := Function.update c.result o
          (calls.foldl (fun r call => r.bindValue call.1 call.2) (c.result o))
        lastBinder := binder } := by
    intro calls
    induction calls with
    | nil =>
        intro c o
        refine ⟨c.lastBinder, ?_⟩
        rw [List.foldl_nil, Function.update_eq_self]
        rfl
    | cons call calls ih =>
        intro c o
        obtain ⟨binder, hbinder⟩ := ih (c.bind o call.1 call.2) o
        refine ⟨binder, ?_⟩
        show (c.bind o call.1 call.2).bindAll o calls = _
        rw [hbinder]
        simp [bind]
  have hcache : ∀ text n, c.cache.insert c.db text n = c.cache := by
    intro text n
    rw [SqlQueryCache.insert, hdisabled, if_neg Bool.false_ne_true]
  have hquery : c.query i = (((Client.prepareNew
      { c with builder := Function.update c.builder i (c.builder i).assemble }
      (SqlText.toQString (c.builder i).assemble.queryString)).assign (.builder i)
        (some c.count)).bindAll c.count (c.builder i).assemble.bindCalls, true) := by
    simp [query, hb, prepareQuery, SqlQueryCache.contains, hdisabled, hprepares]
  obtain ⟨binder, hbinder⟩ := hall (c.builder i).assemble.bindCalls
    ((Client.prepareNew { c with builder := Function.update c.builder i (c.builder i).assemble }
      (SqlText.toQString (c.builder i).assemble.queryString)).assign (.builder i) (some c.count)) c.count
  rw [hquery, hbinder]
  refine ⟨rfl, hcache _ _, rfl, rfl, rfl, ?_⟩
  show Function.update (Function.update c.result c.count _) c.count _ = _
  rw [Function.update_idem]
  congr 1
  rw [Builder.statement, List.append_nil]
  congr 1
  exact result_prepareNew_self _ _

/-- An assembly freezes the request. -/
theorem Client.Keeps.query (h : c.Keeps S rows w) {i : Nat} (hprepares : c.Prepares (.query i)) :
    (c.query i).2 = true ∧ (c.query i).1.Keeps S rows (w.query i) := by
  cases hb : (c.builder i).assembled with
  | true =>
      have hquery : c.query i = (c, true) := if_pos hb
      have hwish : w.query i = w := if_pos ((h.assembled i).symm.trans hb)
      rw [hquery, hwish]
      exact ⟨rfl, h⟩
  | false =>
      obtain ⟨hreturns, hcache, hbuilder, hcount, hobject, hresult⟩ :=
        Client.query_of_prepares h.disabled hb (hprepares hb)
      have hwish : w.query i = { w with
          assembled := Function.update w.assembled i true
          count := w.count + 1
          meant := Function.update w.meant w.count ⟨kinds i, w.request i, []⟩
          object := Function.update w.object (.builder i) (some w.count) } :=
        if_neg (by rw [← h.assembled i, hb]; exact Bool.false_ne_true)
      refine ⟨hreturns, ?_⟩
      rw [hwish]
      constructor
      case disabled => exact (congrArg _ hcache).trans h.disabled
      case asks =>
        intro j
        show ((c.query i).1.builder j).Asks (w.request j)
        rw [hbuilder]
        by_cases hj : j = i
        · subst hj
          rw [Function.update_self]
          exact (h.asks j).assemble hb
        · rw [Function.update_of_ne hj]
          exact h.asks j
      case assembled =>
        intro j
        show ((c.query i).1.builder j).assembled = Function.update w.assembled i true j
        rw [hbuilder]
        by_cases hj : j = i
        · subst hj
          rw [Function.update_self, Function.update_self]
          exact Builder.assembled_assemble _
        · rw [Function.update_of_ne hj, Function.update_of_ne hj]
          exact h.assembled j
      case count => exact hcount.trans (congrArg (· + 1) h.count)
      case object =>
        show (c.query i).1.object = _
        rw [hobject, h.object, h.count]
      case known =>
        intro q o ho
        show o < w.count + 1
        have hlast : Function.update w.object (.builder i) (some w.count) q = some o := ho
        by_cases hq : q = .builder i
        · subst hq
          rw [Function.update_self] at hlast
          obtain rfl := Option.some.inj hlast
          exact Nat.lt_succ_self _
        · rw [Function.update_of_ne hq] at hlast
          exact Nat.lt_succ_of_lt (h.known q o hlast)
      case meant =>
        intro o ho
        show Meant.Is (Function.update w.meant w.count _ o) ((c.query i).1.result o)
        rw [hresult, h.count]
        by_cases hnew : o = w.count
        · subst hnew
          rw [Function.update_self, Function.update_self]
          exact ⟨c.builder i, h.asks i, hb, rfl⟩
        · rw [Function.update_of_ne hnew, Function.update_of_ne hnew]
          exact h.meant o (Nat.lt_of_le_of_ne (Nat.le_of_lt_succ ho) hnew)
      case rows =>
        rw [c.driver_query i]
        exact h.rows

omit [SqlDriver] in
/-- A program binds a value. -/
theorem Client.Keeps.bind (h : c.Keeps S rows w) (o : Nat) (placeholder : QString) (value : QVariant) :
    (c.bind o placeholder value).Keeps S rows (w.bind o placeholder value) where
  disabled := h.disabled
  asks := h.asks
  assembled := h.assembled
  count := h.count
  object := h.object
  known := h.known
  rows := h.rows
  meant p hp := by
    show Meant.Is (Function.update w.meant o _ p)
      (Function.update c.result o ((c.result o).bindValue placeholder value) p)
    by_cases hpo : p = o
    · subst hpo
      rw [Function.update_self, Function.update_self]
      exact (h.meant p hp).bind placeholder value
    · rw [Function.update_of_ne hpo, Function.update_of_ne hpo]
      exact h.meant p hp

/-- A statement object is executed. -/
theorem Client.Keeps.execObject (hfinds : FindsPlaceholders) (h : c.Keeps S rows w) (q : QueryObject)
    (hplain : ∀ o ∈ w.object q, (w.meant o).Plain) :
    (c.execObject q).Keeps S rows (w.execObject S q) := by
  have hobject : c.object q = w.object q := congrFun h.object q
  rw [Client.execObject, Wishes.execObject, hobject]
  cases ho : w.object q with
  | none => exact h
  | some o =>
      have hmeant := h.meant o (h.known q o ho)
      have hexec := hmeant.exec S (hplain o ho) w.rows
      refine { h with rows := ?_ }
      show (c.driver ++ [(c.result o).execution]).foldl S.perform rows = _
      rw [List.foldl_concat, h.rows, perform_execution hfinds, hexec]

/-- **A step does to the rows what it is meant to do.** -/
theorem Client.Keeps.step (hfinds : FindsPlaceholders) (h : c.Keeps S rows w) (e : Event kinds)
    (hprepares : c.Prepares e) (hplain : w.Plain e) : (c.step e).Keeps S rows (w.step S e) := by
  cases e with
  | modify i call =>
      have hrequest : ∀ j, (Function.update c.builder i ((c.builder i).apply call) j).Asks
          (Function.update w.request i ((w.request i).add call) j) := by
        intro j
        by_cases hj : j = i
        · subst hj
          rw [Function.update_self, Function.update_self]
          exact (h.asks j).call call
        · rw [Function.update_of_ne hj, Function.update_of_ne hj]
          exact h.asks j
      have hassembled : ∀ j, (Function.update c.builder i
          ((c.builder i).apply call) j).assembled = w.assembled j := by
        intro j
        by_cases hj : j = i
        · subst hj
          rw [Function.update_self]
          exact (Builder.assembled_apply _ call).trans (h.assembled j)
        · rw [Function.update_of_ne hj]
          exact h.assembled j
      exact { h with asks := hrequest, assembled := hassembled }
  | invalidateQuery i =>
      have hrequest : ∀ j, (Function.update c.builder i
          (c.builder i).invalidateQuery j).Asks (w.request j) := by
        intro j
        by_cases hj : j = i
        · subst hj
          rw [Function.update_self]
          exact (h.asks j).invalidateQuery
        · rw [Function.update_of_ne hj]
          exact h.asks j
      have hassembled : ∀ j, (Function.update c.builder i
          (c.builder i).invalidateQuery j).assembled = Function.update w.assembled i false j := by
        intro j
        by_cases hj : j = i
        · subst hj
          rw [Function.update_self, Function.update_self]
          exact Builder.assembled_invalidateQuery _
        · rw [Function.update_of_ne hj, Function.update_of_ne hj]
          exact h.assembled j
      exact { h with asks := hrequest, assembled := hassembled }
  | query i => exact (h.query hprepares).2
  | exec i =>
      obtain ⟨hreturns, hquery⟩ := h.query hprepares
      show (if (c.query i).2 then _ else _ : Client kinds).Keeps S rows _
      rw [if_pos hreturns]
      exact hquery.execObject hfinds (.builder i) hplain
  | copyQuery j q =>
      have hobject : Function.update c.object (.copy j) (c.object q)
          = Function.update w.object (.copy j) (w.object q) := by
        rw [h.object]
      have hknown : ∀ p, ∀ o ∈ Function.update w.object (.copy j) (w.object q) p, o < w.count := by
        intro p o ho
        by_cases hp : p = .copy j
        · subst hp
          rw [Function.update_self] at ho
          exact h.known q o ho
        · rw [Function.update_of_ne hp] at ho
          exact h.known p o ho
      exact { h with object := hobject, known := hknown }
  | bindValue q placeholder value =>
      have hobject : c.object q = w.object q := congrFun h.object q
      show (match c.object q with | none => _ | some o => _ : Client kinds).Keeps S rows
        (match w.object q with | none => _ | some o => _)
      rw [hobject]
      cases w.object q with
      | none => exact h
      | some o => exact h.bind o placeholder value
  | execQuery q => exact h.execObject hfinds q hplain

omit [SqlDriver] in
theorem Client.keeps_start (db : QString) :
    (Client.start kinds db false).Keeps S rows (.start kinds rows) where
  disabled := rfl
  asks i := Builder.asks_new db (kinds i)
  assembled i := by
    show (Builder.new db (kinds i)).assembled = false
    cases kinds i <;> rfl
  count := rfl
  object := rfl
  known _ _ ho := by cases ho
  meant o ho := absurd ho (Nat.not_lt_zero o)
  rows := rfl

/-- **What a program executes does to the rows what it is meant to do**: after any
events, as long as the server accepts the texts of the assemblies and what is executed
are plain requests; with the query cache, as long as it is not noticed. -/
theorem rows_run (S : Server) (hfinds : FindsPlaceholders) (db : QString) (cacheEnabled : Bool)
    (rows : Rows) (events : List (Event kinds))
    (hcache : cacheEnabled →
      Runs.Along Client.step Client.StepUndisturbed (.start kinds db false) events)
    (hprepares : Runs.Along Client.step Client.Prepares (.start kinds db false) events)
    (hplain : Runs.Along (Wishes.step S) Wishes.Plain (.start kinds rows) events) :
    (Runs.run Client.step (.start kinds db cacheEnabled) events).driver.foldl S.perform rows
      = (Runs.run (Wishes.step S) (.start kinds rows) events).rows := by
  have hkeeps : (Runs.run Client.step (.start kinds db false) events).Keeps S rows
      (Runs.run (Wishes.step S) (.start kinds rows) events) :=
    Runs.run_related_along (fun c w e h hp hq => h.step hfinds e hp hq) (Client.keeps_start db)
      hprepares hplain
  have hdriver : (Runs.run Client.step (.start kinds db cacheEnabled) events).driver
      = (Runs.run Client.step (.start kinds db false) events).driver := by
    cases cacheEnabled with
    | false => rfl
    | true =>
        exact (((Client.simulates_start db).driver_run_eq_iff events).2 ⟨rfl, hcache rfl⟩).symm
  rw [hdriver]
  exact hkeeps.rows

end

end

/-- A server that tells equal values from others. -/
def plainServer : Server where
  compare op v w := if op = .equals then (if v = w then .true else .false) else .unknown
  toLower v := v
  now := .other 16 [0]
  subTables _ := []
  default _ _ := .invalid

def personTable : PlainName := ⟨latin1 "person", rfl⟩

def personName : PlainName := ⟨latin1 "name", rfl⟩

/-- An INSERT, an UPDATE, and any number of DELETE builders. -/
@[reducible] def changingKinds : Nat → Kind
  | 0 => .insert
  | 1 => .update
  | _ => .delete

/-- `person.name` is compared. -/
def personNamed (name : QVariant) : ConditionalCall :=
  .whereCondition (.addValueCondition ⟨latin1 "person.name", List.cons_ne_nil _ _⟩ .equals name)

/-- Two persons are added, the second one by a copy of the statement object, and both
get another name; the builders take turns. -/
def personEvents : List (Event changingKinds) :=
  [.modify 0 (.setTable (latin1 "person")),
   .modify 1 (.conditional (.setTable (latin1 "person"))),
   .modify 0 (.column (.addColumnValue (latin1 "name") (.string (latin1 "a")))),
   .exec 0,
   .copyQuery 0 (.builder 0),
   .modify 1 (.conditional (personNamed (.string (latin1 "a")))),
   .invalidateQuery 0,
   .modify 0 .setToDefaultValues,
   .modify 1 (.addColumnValue (latin1 "name") (.string (latin1 "c"))),
   .execQuery (.copy 0),
   .exec 1]

def personStart : Wishes changingKinds := .start changingKinds []

theorem rows_run_personEvents :
    let _ : CaseFolding := .ascii
    let _ : SqlDriver := Client.wordDriver
    (Runs.run Client.step (.start changingKinds [] true) personEvents).driver.foldl plainServer.perform []
      = (Runs.run (Wishes.step plainServer) personStart personEvents).rows := by
  intro _ _
  have hfinds : FindsPlaceholders := by
    intro text _ w hw hplaceholder
    have hhead : w.head? = some (QChar.ofChar ':') := by
      cases w with
      | nil => cases hplaceholder
      | cons c s =>
          simp only [isPlaceholder, Bool.and_eq_true, decide_eq_true_eq] at hplaceholder
          rw [hplaceholder.1.1]
          rfl
    exact List.mem_filter.2 ⟨hw, decide_eq_true hhead⟩
  have hundisturbed : ∀ (u : Client changingKinds) (q : QueryObject),
      ((u.object q).all fun o => (SqlDriver.placeholders (u.result o).lastQuery).all fun n =>
        (u.lastBinder (u.result o).lastQuery n).all fun p =>
          (u.result p).boundValue n = (u.result o).boundValue n) = true → u.ObjectUndisturbed q := by
    intro u q hall o ho n hn p hp
    rw [ho] at hall
    have hvalues := List.all_eq_true.1 hall n hn
    rw [hp] at hvalues
    exact of_decide_eq_true hvalues
  have hcache : Runs.Along Client.step Client.StepUndisturbed (.start changingKinds [] false)
      personEvents := by
    refine ⟨trivial, trivial, trivial, ?_, trivial, trivial, trivial, trivial, trivial, ?_, ?_, trivial⟩
    · exact fun _ => hundisturbed _ _ (by decide)
    · exact hundisturbed _ _ (by decide)
    · exact fun _ => hundisturbed _ _ (by decide)
  have hprepares : Runs.Along Client.step Client.Prepares (.start changingKinds [] false)
      personEvents := by
    apply Runs.along_iff.2
    intro _ e _ _
    cases e <;> first | trivial | exact fun _ => rfl
  have hplain : Runs.Along (Wishes.step plainServer) Wishes.Plain personStart personEvents := by
    have hinsert : ∀ m : Meant, m = ⟨.insert, ⟨latin1 "person",
        [.addColumnValue (latin1 "name") (.string (latin1 "a"))]⟩, []⟩ → m.Plain := by
      rintro _ rfl
      refine ⟨⟨personTable, rfl, [personName], rfl, rfl, ?_⟩, fun _ hcall => by cases hcall⟩
      intro i column value hcall _
      cases i with
      | zero =>
          obtain ⟨rfl, rfl⟩ := InsertCall.addColumnValue.inj (Option.some.inj hcall)
          exact ⟨_, _, List.mem_singleton_self _, rfl, by decide⟩
      | succ i => cases hcall
    refine ⟨trivial, trivial, trivial, ?_, trivial, trivial, trivial, trivial, trivial, ?_, ?_, trivial⟩
    · intro o ho
      obtain rfl : 0 = o := Option.some.inj ho
      exact hinsert _ rfl
    · intro o ho
      obtain rfl : 0 = o := Option.some.inj ho
      exact hinsert _ rfl
    · intro o ho
      obtain rfl : 1 = o := Option.some.inj ho
      have hset : RowRequest.PlainSet (Request.add (k := .update) (Request.add (k := .update)
          (Request.add (k := .update) (.new .update) (.conditional (.setTable (latin1 "person"))))
          (.conditional (personNamed (.string (latin1 "a")))))
          (.addColumnValue (latin1 "name") (.string (latin1 "c")))) :=
        ⟨[(personName, .string (latin1 "c"))], rfl, List.cons_ne_nil _ _, rfl⟩
      exact ⟨⟨⟨personTable, rfl, rfl, trivial⟩, hset⟩, fun _ hcall => by cases hcall⟩
  exact rows_run plainServer hfinds [] true [] personEvents (fun _ => hcache) hprepares hplain

example :
    let _ : CaseFolding := .ascii
    (Runs.run (Wishes.step plainServer) personStart personEvents).rows.map
        (fun x => x.2 (latin1 "name")) = [.string (latin1 "c"), .string (latin1 "c")] := by
  decide

end Sqlate
