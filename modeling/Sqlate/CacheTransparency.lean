/-
Sqlate/CacheTransparency.lean

When the query cache is not noticed.

The same events are run by two clients, one with the cache and one without.
Without it every assembly has a result object of its own; with it all
assemblies of a text share one.  `Simulates` says how the two states belong
together: the shared object of a text has, for each placeholder, the value
that was bound last in any of the objects with this text.

So an execution reaches the driver in the same way exactly when the object
executed and the object bound last have the same value for every placeholder
of the text (`Undisturbed`).
-/
import Sqlate.Placeholders
import Sqlate.QueryCache
import Sqlate.SqlReader

namespace Sqlate

namespace Client

section
variable {kinds : Nat → Kind} [SqlDriver]

/-- Object `o` of the client without the cache is, in the client with the
cache, the shared object `o'` of its text. -/
def Linked (u c : Client kinds) (o o' : Nat) : Prop :=
  o < u.count ∧ c.cache.queryCache c.db (u.result o).lastQuery = some o'

/-- A client `u` without the cache and a client `c` with it have seen the same
events. -/
structure Simulates (u c : Client kinds) : Prop where
  db : u.db = c.db
  builder : u.builder = c.builder
  disabled : u.cache.queryCacheEnabled = false
  enabled : c.cache.queryCacheEnabled = true
  object : ∀ q, Option.Rel (Linked u c) (u.object q) (c.object q)
  prepared : ∀ o < u.count, (c.cache.queryCache c.db (u.result o).lastQuery).isSome
  entry : ∀ {text o'}, c.cache.queryCache c.db text = some o' →
    o' < c.count ∧ (c.result o').lastQuery = text ∧ SqlDriver.prepares text = true
  binder : ∀ {text n o}, u.lastBinder text n = some o →
    o < u.count ∧ (u.result o).lastQuery = text
  unbound : ∀ {o n}, o < u.count → u.lastBinder (u.result o).lastQuery n = none →
    (u.result o).boundValue n = none
  shared : ∀ {text o'}, c.cache.queryCache c.db text = some o' → ∀ n,
    (c.result o').boundValue n
      = (u.lastBinder text n).bind fun o => (u.result o).boundValue n

/-- In every placeholder of its text, the object has the value of the object
of the same text that was bound last. -/
def Undisturbed (u : Client kinds) (o : Nat) : Prop :=
  ∀ n ∈ SqlDriver.placeholders (u.result o).lastQuery, ∀ o₂,
    u.lastBinder (u.result o).lastQuery n = some o₂ →
      (u.result o₂).boundValue n = (u.result o).boundValue n

variable {u c : Client kinds} {o o' : Nat}

theorem Linked.lastQuery (h : Simulates u c) (ho : Linked u c o o') :
    (c.result o').lastQuery = (u.result o).lastQuery :=
  (h.entry ho.2).2.1

theorem Simulates.object_cases (h : Simulates u c) (q : QueryObject) :
    (u.object q = none ∧ c.object q = none) ∨
    ∃ o o', u.object q = some o ∧ c.object q = some o' ∧ Linked u c o o' := by
  have hobject := h.object q
  generalize u.object q = x, c.object q = y at hobject
  cases hobject with
  | none => exact .inl ⟨rfl, rfl⟩
  | some hlinked => exact .inr ⟨_, _, rfl, rfl, hlinked⟩

omit [SqlDriver] in
theorem rel_imp {α β : Type*} {R S : α → β → Prop} (hRS : ∀ a b, R a b → S a b) {x : Option α}
    {y : Option β} (h : Option.Rel R x y) : Option.Rel S x y := by
  cases h with
  | some h => exact .some (hRS _ _ h)
  | none => exact .none

/-! ### Binding -/

omit [SqlDriver] in
theorem Linked.bind (h : Linked u c o o') (p p' : Nat) (n : QString) (v : QVariant) :
    Linked (u.bind p n v) (c.bind p' n v) o o' := by
  refine ⟨h.1, ?_⟩
  rw [lastQuery_bind]
  exact h.2

omit [SqlDriver] in
theorem Linked.bindAll (h : Linked u c o o') (p p' : Nat) (calls : List (QString × QVariant)) :
    Linked (u.bindAll p calls) (c.bindAll p' calls) o o' := by
  induction calls generalizing u c with
  | nil => exact h
  | cons call calls ih => exact ih (h.bind p p' call.1 call.2)

theorem Simulates.bind (h : Simulates u c) (ho : Linked u c o o') (n : QString) (v : QVariant) :
    Simulates (u.bind o n v) (c.bind o' n v) where
  db := h.db
  builder := h.builder
  disabled := h.disabled
  enabled := h.enabled
  object q := rel_imp (fun p p' hp => hp.bind o o' n v) (h.object q)
  prepared p hp := by
    rw [lastQuery_bind]
    exact h.prepared p hp
  entry htext := by
    rw [lastQuery_bind]
    exact h.entry htext
  binder {text m p} hp := by
    rw [lastQuery_bind]
    rw [lastBinder_bind] at hp
    split at hp
    · next heq =>
        obtain rfl := Option.some.inj hp
        exact ⟨ho.1, heq.1.symm⟩
    · exact h.binder hp
  unbound {p m} hp hnone := by
    rw [lastQuery_bind, lastBinder_bind] at hnone
    split at hnone
    · cases hnone
    · next hne =>
        rw [boundValue_bind, if_neg]
        · exact h.unbound hp hnone
        · rintro ⟨rfl, hm⟩
          exact hne ⟨rfl, hm⟩
  shared {text p'} htext m := by
    -- the placeholder that has just been bound, on both sides, or another one
    have hshared := h.shared htext m
    have hquery := (h.entry htext).2.1
    rw [boundValue_bind, lastBinder_bind]
    by_cases hm : text = (u.result o).lastQuery ∧ m = n
    · obtain ⟨rfl, rfl⟩ := hm
      obtain rfl : o' = p' := Option.some.inj (ho.2.symm.trans htext)
      simp [boundValue_bind]
    · rw [if_neg hm, if_neg, hshared]
      · -- the object bound last has another text or another placeholder
        cases hlast : u.lastBinder text m with
        | none => rfl
        | some q =>
            show _ = ((u.bind o n v).result q).boundValue m
            rw [boundValue_bind, if_neg]
            · rfl
            · rintro ⟨rfl, rfl⟩
              exact hm ⟨(h.binder hlast).2.symm, rfl⟩
      · rintro ⟨rfl, rfl⟩
        exact hm ⟨by rw [← hquery, ho.lastQuery h], rfl⟩

theorem Simulates.bindAll (h : Simulates u c) (ho : Linked u c o o')
    (calls : List (QString × QVariant)) : Simulates (u.bindAll o calls) (c.bindAll o' calls) := by
  induction calls generalizing u c with
  | nil => exact h
  | cons call calls ih => exact ih (h.bind ho call.1 call.2) (ho.bind o o' call.1 call.2)

theorem Simulates.assign (h : Simulates u c) (q : QueryObject) {x x' : Option Nat}
    (hx : Option.Rel (Linked u c) x x') : Simulates (u.assign q x) (c.assign q x') where
  db := h.db
  builder := h.builder
  disabled := h.disabled
  enabled := h.enabled
  object r := by
    by_cases hr : r = q
    · subst hr
      simp only [Client.assign, Function.update_self]
      exact hx
    · simp only [Client.assign, Function.update_of_ne hr]
      exact h.object r
  prepared := h.prepared
  entry := h.entry
  binder := h.binder
  unbound := h.unbound
  shared := h.shared

theorem Simulates.setBuilder (h : Simulates u c) (i : Nat) (b : Builder (kinds i)) :
    Simulates { u with builder := Function.update u.builder i b }
      { c with builder := Function.update c.builder i b } where
  db := h.db
  builder := by rw [h.builder]
  disabled := h.disabled
  enabled := h.enabled
  object := h.object
  prepared := h.prepared
  entry := h.entry
  binder := h.binder
  unbound := h.unbound
  shared := h.shared

/-! ### Preparing -/

/-- The client without the cache makes a new object for a text that has a
shared object in the other. -/
theorem Simulates.prepareNew_left (h : Simulates u c) {text : QString}
    (htext : c.cache.queryCache c.db text = some o') :
    Simulates (u.prepareNew text) c ∧ Linked (u.prepareNew text) c u.count o' := by
  have hnew := result_prepareNew_self u text
  have hold : ∀ o < u.count, (u.prepareNew text).result o = u.result o :=
    fun o ho => result_prepareNew_of_lt u text ho
  have hlinked : ∀ o p', Linked u c o p' → Linked (u.prepareNew text) c o p' := by
    intro o p' ho
    refine ⟨Nat.lt_succ_of_lt ho.1, ?_⟩
    rw [hold o ho.1]
    exact ho.2
  refine ⟨?_, Nat.lt_succ_self _, by rw [hnew]; exact htext⟩
  constructor
  case db => exact h.db
  case builder => exact h.builder
  case disabled =>
    simp only [prepareNew, SqlQueryCache.insert, h.disabled, Bool.false_eq_true, if_false]
  case enabled => exact h.enabled
  case object => exact fun q => rel_imp hlinked (h.object q)
  case prepared =>
    intro o ho
    -- an old object, or the new one
    obtain ho | rfl := Nat.lt_succ_iff_lt_or_eq.mp ho
    · rw [hold o ho]
      exact h.prepared o ho
    · rw [hnew]
      exact Option.isSome_of_mem htext
  case entry => exact h.entry
  case binder =>
    intro text n o ho
    obtain ⟨hlt, hquery⟩ := h.binder ho
    exact ⟨Nat.lt_succ_of_lt hlt, by rw [hold o hlt, hquery]⟩
  case unbound =>
    intro o n ho hnone
    obtain ho | rfl := Nat.lt_succ_iff_lt_or_eq.mp ho
    · rw [hold o ho] at hnone ⊢
      exact h.unbound ho hnone
    · rw [hnew]
      rfl
  case shared =>
    intro text p' hp' n
    rw [h.shared hp' n]
    show _ = (u.lastBinder text n).bind _
    cases hlast : u.lastBinder text n with
    | none => rfl
    | some o =>
        show _ = ((u.prepareNew _).result o).boundValue n
        rw [hold o (h.binder hlast).1]
        rfl

/-- The client with the cache makes the shared object of a text. -/
theorem Simulates.prepareNew_right (h : Simulates u c) {text : QString}
    (htext : c.cache.queryCache c.db text = none) (haccepted : SqlDriver.prepares text = true) :
    Simulates u (c.prepareNew text) := by
  have hentry : ∀ t, (c.prepareNew text).cache.queryCache (c.prepareNew text).db t
      = if t = text then some c.count else c.cache.queryCache c.db t := by
    intro t
    by_cases ht : t = text
    · subst ht
      simp [prepareNew, SqlQueryCache.insert, h.enabled]
    · simp [prepareNew, SqlQueryCache.insert, h.enabled, ht]
  have hnew := result_prepareNew_self c text
  have hold : ∀ o < c.count, (c.prepareNew text).result o = c.result o :=
    fun o ho => result_prepareNew_of_lt c text ho
  -- no object has this text yet
  have hfresh : ∀ {o}, o < u.count → (u.result o).lastQuery ≠ text := by
    rintro o ho rfl
    have hsome := h.prepared o ho
    rw [htext] at hsome
    cases hsome
  have hlinked : ∀ o p', Linked u c o p' → Linked u (c.prepareNew text) o p' := by
    intro o p' ho
    refine ⟨ho.1, ?_⟩
    rw [hentry, if_neg (hfresh ho.1)]
    exact ho.2
  constructor
  case db => exact h.db
  case builder => exact h.builder
  case disabled => exact h.disabled
  case enabled =>
    simp only [prepareNew, SqlQueryCache.insert, h.enabled, if_true]
  case object => exact fun q => rel_imp hlinked (h.object q)
  case prepared =>
    intro o ho
    rw [hentry, if_neg (hfresh ho)]
    exact h.prepared o ho
  case entry =>
    intro t p' hp'
    rw [hentry] at hp'
    split at hp'
    · next heq =>
        obtain rfl := Option.some.inj hp'
        subst heq
        exact ⟨Nat.lt_succ_self _, by rw [hnew]; rfl, haccepted⟩
    · obtain ⟨hlt, hquery, hprepares⟩ := h.entry hp'
      exact ⟨Nat.lt_succ_of_lt hlt, by rw [hold p' hlt, hquery], hprepares⟩
  case binder => exact h.binder
  case unbound => exact h.unbound
  case shared =>
    intro t p' hp' n
    rw [hentry] at hp'
    split at hp'
    · next heq =>
        obtain rfl := Option.some.inj hp'
        subst heq
        rw [hnew]
        -- nobody can have bound a placeholder of a text that is new
        cases hlast : u.lastBinder t n with
        | none => rfl
        | some o => exact absurd (h.binder hlast).2 (hfresh (h.binder hlast).1)
    · rw [hold p' (h.entry hp').1]
      exact h.shared hp' n

/-- **Both clients prepare a text or neither does**, and the objects they get
belong together. -/
theorem Simulates.prepareQuery (h : Simulates u c) (text : QString) :
    (u.prepareQuery text = none ∧ c.prepareQuery text = none) ∨
    ∃ o u' o' c', u.prepareQuery text = some (o, u') ∧ c.prepareQuery text = some (o', c') ∧
      Simulates u' c' ∧ Linked u' c' o o' := by
  have hu : u.prepareQuery text
      = if SqlDriver.prepares text then some (u.count, u.prepareNew text) else none := by
    simp [Client.prepareQuery, SqlQueryCache.contains, h.disabled]
  cases htext : c.cache.queryCache c.db text with
  | some o' =>
      -- a text in the cache has been accepted before
      have hc : c.prepareQuery text = some (o', c) := by
        simp [Client.prepareQuery, SqlQueryCache.contains, SqlQueryCache.query, h.enabled, htext]
      rw [if_pos (h.entry htext).2.2] at hu
      exact .inr ⟨_, _, _, _, hu, hc, h.prepareNew_left htext⟩
  | none =>
      have hc : c.prepareQuery text
          = if SqlDriver.prepares text then some (c.count, c.prepareNew text) else none := by
        simp [Client.prepareQuery, SqlQueryCache.contains, h.enabled, htext]
      cases haccepted : SqlDriver.prepares text with
      | false =>
          left
          simp [hu, hc, haccepted]
      | true =>
          rw [if_pos haccepted] at hu hc
          have hentry : (c.prepareNew text).cache.queryCache (c.prepareNew text).db text
              = some c.count := by
            simp [prepareNew, SqlQueryCache.insert, h.enabled]
          exact .inr ⟨_, _, _, _, hu, hc,
            (h.prepareNew_right htext haccepted).prepareNew_left hentry⟩

theorem Simulates.query (h : Simulates u c) (i : Nat) :
    Simulates (u.query i).1 (c.query i).1 ∧ (u.query i).2 = (c.query i).2 := by
  have hassembled : (u.builder i).assembled = (c.builder i).assembled := by rw [h.builder]
  simp only [Client.query]
  split
  · next hu =>
      rw [if_pos (hassembled ▸ hu)]
      exact ⟨h, rfl⟩
  · next hu =>
      rw [if_neg (hassembled ▸ hu), h.builder]
      have hset := h.setBuilder i (c.builder i).assemble
      rw [h.builder] at hset
      obtain ⟨hnone, hnone'⟩ | ⟨o, u', o', c', hprep, hprep', hsim, hlinked⟩ :=
        hset.prepareQuery (SqlText.toQString (c.builder i).assemble.queryString)
      · rw [hnone, hnone']
        exact ⟨hset, rfl⟩
      · rw [hprep, hprep']
        have hassign := hsim.assign (.builder i) (.some hlinked)
        exact ⟨hassign.bindAll hlinked _, rfl⟩

/-! ### Executing -/

/-- **An execution reaches the driver in the same way** if and only if the
object is undisturbed. -/
theorem Simulates.driver_execute_eq_iff (h : Simulates u c) (ho : Linked u c o o') :
    (u.execute o).driver = (c.execute o').driver ↔ u.driver = c.driver ∧ u.Undisturbed o := by
  have hquery := ho.lastQuery h
  have hconcat : ∀ {l l' : List Execution} {x y : Execution},
      l ++ [x] = l' ++ [y] ↔ l = l' ∧ x = y := by
    intro l l' x y
    constructor
    · intro heq
      obtain ⟨hl, hx⟩ := List.append_inj' heq rfl
      exact ⟨hl, List.singleton_inj.mp hx⟩
    · rintro ⟨rfl, rfl⟩
      rfl
  simp only [execute, hquery, hconcat, Execution.mk.injEq, true_and, List.map_inj_left,
    Prod.mk.injEq]
  refine and_congr_right fun _ => forall₂_congr fun n _ => ?_
  -- the shared object has the value of the last binder
  rw [h.shared ho.2]
  cases hlast : u.lastBinder (u.result o).lastQuery n with
  | none => simp [h.unbound ho.1 hlast]
  | some o₂ =>
      constructor
      · rintro heq p hp
        obtain rfl := Option.some.inj hp
        exact heq.symm
      · intro hall
        exact (hall o₂ rfl).symm

theorem Simulates.execute (h : Simulates u c) (o o' : Nat) :
    Simulates (u.execute o) (c.execute o') where
  db := h.db
  builder := h.builder
  disabled := h.disabled
  enabled := h.enabled
  object := h.object
  prepared := h.prepared
  entry := h.entry
  binder := h.binder
  unbound := h.unbound
  shared := h.shared

/-- The condition for an execution of a query object. -/
def ObjectUndisturbed (u : Client kinds) (q : QueryObject) : Prop :=
  ∀ o, u.object q = some o → u.Undisturbed o

theorem Simulates.execObject (h : Simulates u c) (q : QueryObject) :
    Simulates (u.execObject q) (c.execObject q) ∧
      ((u.execObject q).driver = (c.execObject q).driver ↔
        u.driver = c.driver ∧ u.ObjectUndisturbed q) := by
  obtain ⟨hu, hc⟩ | ⟨o, o', hu, hc, hlinked⟩ := h.object_cases q
  · simp only [Client.execObject, ObjectUndisturbed, hu, hc]
    exact ⟨h, by simp⟩
  · simp only [Client.execObject, ObjectUndisturbed, hu, hc]
    refine ⟨h.execute o o', ?_⟩
    rw [h.driver_execute_eq_iff hlinked]
    simp

/-! ### Runs -/

section
variable [CaseFolding]

/-- The condition on a step of the client without the cache: what is executed
is undisturbed. -/
def StepUndisturbed (u : Client kinds) : Event kinds → Prop
  | .exec i => (u.query i).2 = true → (u.query i).1.ObjectUndisturbed (.builder i)
  | .execQuery q => u.ObjectUndisturbed q
  | .modify _ _ | .invalidateQuery _ | .query _ | .copyQuery _ _ | .bindValue _ _ _ => True

/-- **One step**: the clients still belong together, and if they had shown the
driver the same, then they do afterwards just if the step is undisturbed. -/
theorem Simulates.step (h : Simulates u c) (e : Event kinds) :
    Simulates (u.step e) (c.step e) ∧
      ((u.step e).driver = (c.step e).driver ↔ u.driver = c.driver ∧ u.StepUndisturbed e) := by
  cases e with
  | modify i call =>
      have happly : (u.builder i).apply call = (c.builder i).apply call := by rw [h.builder]
      have hset := h.setBuilder i ((u.builder i).apply call)
      refine ⟨?_, by rw [StepUndisturbed, and_true]; rfl⟩
      simp only [Client.step, ← happly]
      exact hset
  | invalidateQuery i =>
      have hinvalid : (u.builder i).invalidateQuery = (c.builder i).invalidateQuery := by
        rw [h.builder]
      have hset := h.setBuilder i (u.builder i).invalidateQuery
      refine ⟨?_, by rw [StepUndisturbed, and_true]; rfl⟩
      simp only [Client.step, ← hinvalid]
      exact hset
  | query i =>
      refine ⟨(h.query i).1, ?_⟩
      simp only [Client.step, StepUndisturbed, driver_query, and_true]
  | exec i =>
      obtain ⟨hquery, hreturns⟩ := h.query i
      simp only [Client.step, StepUndisturbed, ← hreturns]
      -- whether `query()` returns is the same for both clients
      cases hu : (u.query i).2 with
      | false =>
          refine ⟨hquery, ?_⟩
          simp
      | true =>
          obtain ⟨hsim, hdriver⟩ := hquery.execObject (.builder i)
          refine ⟨hsim, ?_⟩
          simpa using hdriver
  | copyQuery j q => exact ⟨h.assign (.copy j) (h.object q), by rw [StepUndisturbed, and_true]; rfl⟩
  | bindValue q placeholder value =>
      refine ⟨?_, ?_⟩
      · obtain ⟨hu, hc⟩ | ⟨o, o', hu, hc, hlinked⟩ := h.object_cases q
        · simp only [Client.step, hu, hc]
          exact h
        · simp only [Client.step, hu, hc]
          exact h.bind hlinked placeholder value
      · obtain ⟨hu, hc⟩ | ⟨o, o', hu, hc, -⟩ := h.object_cases q
        · simp only [Client.step, StepUndisturbed, hu, hc, and_true]
        · simp only [Client.step, StepUndisturbed, hu, hc, and_true, Client.bind]
  | execQuery q => exact h.execObject q

omit [CaseFolding] in
theorem simulates_start (db : QString) :
    Simulates (start kinds db false) (start kinds db true) where
  db := rfl
  builder := rfl
  disabled := rfl
  enabled := rfl
  object _ := .none
  prepared _ ho := absurd ho (Nat.not_lt_zero _)
  entry h := by cases h
  binder h := by cases h
  unbound ho := absurd ho (Nat.not_lt_zero _)
  shared h := by cases h

/-- The runs of two clients that belong together. -/
theorem Simulates.driver_run_eq_iff (h : Simulates u c) (es : List (Event kinds)) :
    (Runs.run Client.step u es).driver = (Runs.run Client.step c es).driver ↔
      u.driver = c.driver ∧ Runs.Along Client.step StepUndisturbed u es := by
  induction es generalizing u c with
  | nil => simp [Runs.Along]
  | cons e es ih =>
      obtain ⟨hstep, hdriver⟩ := h.step e
      rw [Runs.run_cons, Runs.run_cons, ih hstep, hdriver, Runs.Along, and_assoc]

/-- **The cache is not noticed by the driver if and only if every execution is
undisturbed**: in no placeholder of its text has an object of the same text
been bound to another value since. -/
theorem driver_cached_eq_iff (db : QString) (es : List (Event kinds)) :
    (Runs.run step (start kinds db true) es).driver
        = (Runs.run step (start kinds db false) es).driver ↔
      Runs.Along step StepUndisturbed (start kinds db false) es := by
  rw [eq_comm, (simulates_start db).driver_run_eq_iff es]
  exact and_iff_right rfl

end

end

/-! ### Two builders of one text -/

/-- The placeholders are the words that start with a colon. -/
@[reducible] def wordDriver : SqlDriver where
  placeholders text := (words text).filter fun w => w.head? = some (QChar.ofChar ':')
  prepares _ := true

/-- `SELECT id FROM t WHERE id = value`, by builder `i`. -/
def selectEvents (i : Nat) (value : QVariant) : List (Event fun _ => .select) :=
  [.modify i (.addColumn (latin1 "id") []),
   .modify i (.conditional (.setTable (latin1 "t"))),
   .modify i (.conditional (.whereCondition (.addValueCondition idColumn .equals value)))]

/-- Two builders are assembled, and the first is executed. -/
def overlappingEvents : List (Event fun _ => .select) :=
  selectEvents 0 (.other 2 [1]) ++ selectEvents 1 (.other 2 [2]) ++ [.query 0, .query 1, .exec 0]

theorem driver_run_ne_overlappingEvents :
    let _ : CaseFolding := .ascii
    let _ : SqlDriver := wordDriver
    (Runs.run step (start _ [] true) overlappingEvents).driver
      ≠ (Runs.run step (start _ [] false) overlappingEvents).driver := by
  decide +kernel

end Client

end Sqlate
