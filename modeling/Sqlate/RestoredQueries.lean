/-
Sqlate/RestoredQueries.lean

What a reconnection makes of the query objects.

`Reopens` is the loop of `checkDbIsAlive` with the counter of the source, and
`Checks` is the function without its two lockers: in `checkDbIsAlive` itself
the cache cannot be cleared while the list is locked (`never_blocks_iff`).

Every object has its bound values saved before the loop; in it the objects of
the cache are destroyed, and of those that are left each one of the connection
gets a result object of its own, the copies one after the other.  `Restoring`
says what there is between two of them; `checks_restore` is about the whole.
That an object without copies would keep its result object is not to be seen
(`seen_detach_of_alone`).
-/
import Sqlate.Base.Writes
import Sqlate.QueryRegistry

namespace Sqlate.Process

open Runs

/-! ### The loop and its counter -/

/-- From `retryCount` on: the attempts to open that are made, and the end. -/
inductive Reopens (connectionName : QString) (all : Nat → List (QString × QVariant))
    (onMainThread : Bool) : Nat → Process → List Bool → Except Stop Process → Prop
  | alive {retryCount w} : (w.session connectionName).isOpen = true →
      Reopens connectionName all onMainThread retryCount w [] (.ok w)
  | exits {retryCount w} : (w.session connectionName).isOpen = false → onMainThread = true →
      Reopens connectionName all onMainThread retryCount w [] (.error .exited)
  | givesUp {retryCount w} : (w.session connectionName).isOpen = false → onMainThread = false →
      retryCount + 1 > 10 → Reopens connectionName all onMainThread retryCount w [] (.ok w)
  | fails {retryCount w opens r} : (w.session connectionName).isOpen = false → onMainThread = false →
      ¬ retryCount + 1 > 10 → Reopens connectionName all onMainThread (retryCount + 1) w opens r →
      Reopens connectionName all onMainThread retryCount w (false :: opens) r
  | succeeds {retryCount w v opens r} : (w.session connectionName).isOpen = false → onMainThread = false →
      ¬ retryCount + 1 > 10 → w.reconnect connectionName all = .ok v →
      Reopens connectionName all onMainThread (retryCount + 1) v opens r →
      Reopens connectionName all onMainThread retryCount w (true :: opens) r
  | stops {retryCount w x} : (w.session connectionName).isOpen = false → onMainThread = false →
      ¬ retryCount + 1 > 10 → w.reconnect connectionName all = .error x →
      Reopens connectionName all onMainThread retryCount w [true] (.error x)

section
variable {c : QString} {all : Nat → List (QString × QVariant)} {onMainThread : Bool}

theorem Reopens.length_le {n : Nat} {w : Process} {opens : List Bool} {r : Except Stop Process}
    (h : Reopens c all onMainThread n w opens r) (hn : n ≤ 10) : n + opens.length ≤ 10 := by
  induction h with
  | alive _ => exact hn
  | exits _ _ => exact hn
  | givesUp _ _ _ => exact hn
  | fails _ _ hretry _ ih =>
      have hrest := ih (by omega)
      rw [List.length_cons]
      omega
  | succeeds _ _ hretry _ _ ih =>
      have hrest := ih (by omega)
      rw [List.length_cons]
      omega
  | stops _ _ hretry _ =>
      show _ + 1 ≤ 10
      omega

/-- The counter goes up to the limit where the fuel goes down. -/
theorem Reopens.reopenLoop_eq {n : Nat} {w : Process} {opens : List Bool} {r : Except Stop Process}
    (h : Reopens c all onMainThread n w opens r) (hn : n ≤ 10) (rest : List Bool) :
    w.reopenLoop c all onMainThread (10 - n) (opens ++ rest) = r := by
  induction h with
  | alive hopen => exact reopenLoop_of_isOpen hopen all onMainThread _ _
  | @exits n w hclosed hmain =>
      cases 10 - n with
      | zero => simp [reopenLoop, hclosed, hmain]
      | succ k => simp [reopenLoop, hclosed, hmain]
  | @givesUp n w hclosed hmain hretry =>
      rw [show 10 - n = 0 by omega]
      simp [reopenLoop, hclosed, hmain]
  | @fails n w opens r hclosed hmain hretry _ ih =>
      rw [show 10 - n = 10 - (n + 1) + 1 by omega, reopenLoop]
      simpa [hclosed, hmain] using ih (by omega)
  | @succeeds n w v opens r hclosed hmain hretry hrec _ ih =>
      rw [show 10 - n = 10 - (n + 1) + 1 by omega, reopenLoop]
      simpa [hclosed, hmain, hrec, Except.bind] using ih (by omega)
  | @stops n w x hclosed hmain hretry hrec =>
      rw [show 10 - n = 10 - (n + 1) + 1 by omega, reopenLoop]
      simp [hclosed, hmain, hrec, Except.bind]

/-- Whatever the attempts would come to, some of them are made. -/
theorem exists_reopens (retries : Nat) (hretries : retries ≤ 10) (opens : List Bool) (w : Process) :
    ∃ made, Reopens c all onMainThread (10 - retries) w made
      (w.reopenLoop c all onMainThread retries opens) := by
  induction retries generalizing opens w with
  | zero =>
      rw [reopenLoop]
      cases hopen : (w.session c).isOpen with
      | true => exact ⟨[], .alive hopen⟩
      | false =>
          cases hmain : onMainThread with
          | true => exact ⟨[], .exits hopen rfl⟩
          | false => exact ⟨[], .givesUp hopen rfl (by omega)⟩
  | succ retries ih =>
      have hnext : 10 - (retries + 1) + 1 = 10 - retries := by omega
      rw [reopenLoop]
      cases hopen : (w.session c).isOpen with
      | true => exact ⟨[], .alive hopen⟩
      | false =>
          cases hmain : onMainThread with
          | true => exact ⟨[], .exits hopen rfl⟩
          | false =>
              rw [hmain] at ih
              cases hfirst : opens.headD false with
              | false =>
                  obtain ⟨made, hmade⟩ := ih (by omega) opens.tail w
                  exact ⟨_, .fails hopen rfl (by omega) (by rw [hnext]; exact hmade)⟩
              | true =>
                  cases hrec : w.reconnect c all with
                  | error x => exact ⟨_, .stops hopen rfl (by omega) hrec⟩
                  | ok v =>
                      obtain ⟨made, hmade⟩ := ih (by omega) opens.tail v
                      exact ⟨_, .succeeds hopen rfl (by omega) hrec (by rw [hnext]; exact hmade)⟩

end

/-! ### Bound values -/

/-- A statement is prepared and values are bound to it. -/
def prepared (text : QString) (values : List (QString × QVariant)) : QSqlResult :=
  values.foldl (fun r call => r.bindValue call.1 call.2) (.prepared text)

theorem foldl_bindValue (values : List (QString × QVariant)) (r : QSqlResult) :
    values.foldl (fun r call => r.bindValue call.1 call.2) r =
      ⟨r.lastQuery, Store.writes r.boundValue values⟩ := by
  induction values generalizing r with
  | nil => rfl
  | cons call values ih =>
      rw [List.foldl_cons, ih]
      rfl

@[simp] theorem lastQuery_prepared (text : QString) (values : List (QString × QVariant)) :
    (prepared text values).lastQuery = text := by
  rw [prepared, foldl_bindValue]
  rfl

/-- The values that were bound are bound again. -/
theorem boundValue_prepared [SqlDriver] (q : SqlQuery) (w : Process) {n : QString}
    (hn : n ∈ SqlDriver.placeholders (w.result q.result).lastQuery) :
    (prepared (w.result q.result).lastQuery (w.boundValues q)).boundValue n =
      (w.result q.result).boundValue n := by
  rw [prepared, foldl_bindValue]
  exact Store.writes_saved hn rfl

/-- The values of the objects that the loop has been at are saved. -/
structure Saving [SqlDriver] (c : QString) (w : Process) (todo : List Nat)
    (all : Nat → List (QString × QVariant)) : Prop where
  ahead : todo ⊆ w.queries
  saved : ∀ a ∈ w.queries, a ∉ todo → ∀ q, w.query a = some q → q.connectionName = c →
    all a = w.boundValues q

theorem foldlM_saveBoundValues [SqlDriver] {w : Process} (h : ∀ a ∈ w.queries, (w.query a).isSome)
    (c : QString) :
    ∃ all, w.queries.foldlM (saveBoundValues c w) (fun _ => []) = .ok all ∧ Saving c w [] all := by
  have hstart : Saving c w w.queries fun _ => [] :=
    ⟨List.Subset.refl _, fun a ha hnot => absurd ha hnot⟩
  have hends : Ends (Saving c w []) (fun _ : Stop => False)
      (w.queries.foldlM (saveBoundValues c w) fun _ => []) := by
    refine Ends.foldlM ?_ hstart
    intro a todo all hall
    have ha : a ∈ w.queries := hall.ahead List.mem_cons_self
    have hahead : todo ⊆ w.queries := fun b hb => hall.ahead (List.mem_cons_of_mem _ hb)
    obtain ⟨q, hq, hat⟩ := queryAt_of_isSome (h a ha)
    rw [saveBoundValues, hat]
    show Ends _ _ (if q.connectionName ≠ c then Except.ok all
      else Except.ok (Function.update all a (w.boundValues q)))
    split
    · next hc =>
        refine ⟨hahead, fun b hb hnot p hp hpc => ?_⟩
        by_cases hba : b = a
        · subst hba
          rw [hq] at hp
          obtain rfl := Option.some.inj hp
          exact absurd hpc hc
        · exact hall.saved b hb (List.not_mem_cons_of_ne_of_not_mem hba hnot) p hp hpc
    · refine ⟨hahead, fun b hb hnot p hp hpc => ?_⟩
      by_cases hba : b = a
      · subst hba
        rw [hq] at hp
        obtain rfl := Option.some.inj hp
        rw [Function.update_self]
      · rw [Function.update_of_ne hba]
        exact hall.saved b hb (List.not_mem_cons_of_ne_of_not_mem hba hnot) p hp hpc
  cases hrun : w.queries.foldlM (saveBoundValues c w) fun _ => [] with
  | ok all =>
      rw [hrun] at hends
      exact ⟨all, rfl, hends⟩
  | error x =>
      rw [hrun] at hends
      exact hends.elim

/-! ### Preparing again -/

/-- The object gets a new result object. -/
def giveResult (a : Nat) (q : SqlQuery) (r : QSqlResult) (w : Process) : Process :=
  { w.putQuery a { q with result := w.resultCount } with
    result := Function.update w.result w.resultCount r
    resultCount := w.resultCount + 1 }

theorem foldl_bindValue_giveResult (a : Nat) (q : SqlQuery) (values : List (QString × QVariant))
    (r : QSqlResult) (w : Process) :
    values.foldl (bindValue { q with result := w.resultCount }) (w.giveResult a q r) =
      w.giveResult a q (values.foldl (fun r call => r.bindValue call.1 call.2) r) := by
  induction values generalizing r with
  | nil => rfl
  | cons call values ih =>
      rw [List.foldl_cons, List.foldl_cons, ← ih]
      congr 1
      simp [bindValue, giveResult]

theorem prepareAgain_eq {w : Process} {a : Nat} {q : SqlQuery} (hq : w.query a = some q) (c : QString)
    (all : Nat → List (QString × QVariant)) :
    w.prepareAgain c all a = .ok
      (if q.connectionName = c ∧ (w.result q.result).lastQuery ≠ [] then
        w.giveResult a q (prepared (w.result q.result).lastQuery (all a))
      else w) := by
  rw [prepareAgain, queryAt, hq]
  show (if q.connectionName ≠ c then Except.ok w
    else if (w.result q.result).lastQuery.isEmpty then Except.ok w else Except.ok _) = _
  by_cases hc : q.connectionName = c
  · by_cases hempty : (w.result q.result).lastQuery = []
    · simp [hc, hempty]
    · rw [if_neg (not_not.2 hc), if_neg (by simpa using hempty), if_pos ⟨hc, hempty⟩, prepared,
        ← foldl_bindValue_giveResult]
      rfl
  · rw [if_pos hc, if_neg fun h => hc h.1]

/-- A number that is in use is below the next one. -/
def Numbered (w : Process) : Prop := ∀ a q, w.query a = some q → q.result < w.resultCount

/-- What an object shows of itself. -/
def seen (w : Process) (a : Nat) : Option (QString × QSqlResult) :=
  (w.query a).map fun q => (q.connectionName, w.result q.result)

/-- An object without copies keeps its result object when it prepares, and nobody can tell. -/
theorem seen_detach_of_alone {w : Process} (hw : w.Numbered) {a : Nat} {q : SqlQuery}
    (hq : w.query a = some q) (halone : ∀ b p, w.query b = some p → p.result = q.result → b = a)
    (text : QString) :
    (w.detach a q text).seen =
      seen { w with result := Function.update w.result q.result (.prepared text) } := by
  funext b
  by_cases hb : b = a
  · subst hb
    simp [seen, detach, putQuery, hq]
  · cases hp : w.query b with
    | none => simp [seen, detach, putQuery, hb, hp]
    | some p =>
        have hnew : p.result ≠ w.resultCount := (hw b p hp).ne
        have hother : p.result ≠ q.result := fun h => hb (halone b p hp h)
        simp [seen, detach, putQuery, hb, hp, hnew, hother]

/-! ### One object after the other -/

/-- An object that has to be prepared again. -/
def Lost (c : QString) (w : Process) (q : SqlQuery) : Prop :=
  q.connectionName = c ∧ (w.result q.result).lastQuery ≠ []

instance (c : QString) (w : Process) (q : SqlQuery) : Decidable (Lost c w q) :=
  inferInstanceAs (Decidable (_ ∧ _))

/-- The object has a new result object, with its statement and its values. -/
def Again (w : Process) (q : SqlQuery) (values : List (QString × QVariant)) (v : Process) (a : Nat) : Prop :=
  ∃ k, w.resultCount ≤ k ∧ k < v.resultCount ∧ v.query a = some { q with result := k } ∧
    v.result k = prepared (w.result q.result).lastQuery values

/-- Between two rounds of the loop over the queries. -/
structure Restoring (c : QString) (all : Nat → List (QString × QVariant)) (w : Process)
    (todo : List Nat) (v : Process) : Prop where
  ahead : todo ⊆ w.queries
  count : w.resultCount ≤ v.resultCount
  old : ∀ k < w.resultCount, v.result k = w.result k
  object : ∀ a q, w.query a = some q →
    (v.query a = some q ∧ (a ∈ w.queries → a ∉ todo → ¬ Lost c w q)) ∨
      (Lost c w q ∧ Again w q (all a) v a)

section
variable {c : QString} {all : Nat → List (QString × QVariant)} {w : Process}

theorem Restoring.start (c : QString) (all : Nat → List (QString × QVariant)) (w : Process) :
    Restoring c all w w.queries w where
  ahead := List.Subset.refl _
  count := le_rfl
  old _ _ := rfl
  object _ _ hq := .inl ⟨hq, fun ha hnot => absurd ha hnot⟩

/-- An object that is left alone. -/
theorem Restoring.skip {v : Process} {a : Nat} {todo : List Nat} {q : SqlQuery}
    (hv : Restoring c all w (a :: todo) v) (hq : w.query a = some q)
    (hnot : ¬ Lost c w q) : Restoring c all w todo v where
  ahead b hb := hv.ahead (List.mem_cons_of_mem _ hb)
  count := hv.count
  old := hv.old
  object b p hp := by
    rcases hv.object b p hp with ⟨hsame, hlost⟩ | hagain
    · refine .inl ⟨hsame, fun hb hbtodo => ?_⟩
      by_cases hba : b = a
      · subst hba
        rw [hq] at hp
        obtain rfl := Option.some.inj hp
        exact hnot
      · exact hlost hb (List.not_mem_cons_of_ne_of_not_mem hba hbtodo)
    · exact .inr hagain

/-- An object gets its new result object; what the others see of theirs stays. -/
theorem Restoring.give {v : Process} {a : Nat} {todo : List Nat} {q p : SqlQuery}
    (hv : Restoring c all w (a :: todo) v) (hq : w.query a = some q) (hlost : Lost c w q)
    (hconnection : p.connectionName = q.connectionName) :
    Restoring c all w todo (v.giveResult a p (prepared (w.result q.result).lastQuery (all a))) where
  ahead b hb := hv.ahead (List.mem_cons_of_mem _ hb)
  count := hv.count.trans (Nat.le_succ _)
  old k hk := by
    show Function.update v.result v.resultCount _ k = _
    rw [Function.update_of_ne (hk.trans_le hv.count).ne, hv.old k hk]
  object b r hr := by
    by_cases hba : b = a
    · subst hba
      rw [hq] at hr
      obtain rfl := Option.some.inj hr
      refine .inr ⟨hlost, v.resultCount, hv.count, Nat.lt_succ_self _, ?_, ?_⟩
      · show Function.update v.query b (some _) b = _
        rw [Function.update_self, hconnection]
      · show Function.update v.result v.resultCount _ v.resultCount = _
        rw [Function.update_self]
    · rcases hv.object b r hr with ⟨hsame, hnot⟩ | ⟨hrlost, k, hk, hkv, hquery, hresult⟩
      · refine .inl ⟨?_, fun hb hbtodo => hnot hb (List.not_mem_cons_of_ne_of_not_mem hba hbtodo)⟩
        show Function.update v.query a (some _) b = _
        rw [Function.update_of_ne hba, hsame]
      · refine .inr ⟨hrlost, k, hk, hkv.trans (Nat.lt_succ_self _), ?_, ?_⟩
        · show Function.update v.query a (some _) b = _
          rw [Function.update_of_ne hba, hquery]
        · show Function.update v.result v.resultCount _ k = _
          rw [Function.update_of_ne hkv.ne, hresult]

theorem foldlM_prepareAgain (halive : ∀ a ∈ w.queries, (w.query a).isSome) (hnumbered : w.Numbered)
    (c : QString) (all : Nat → List (QString × QVariant)) :
    Ends (Restoring c all w []) (fun _ => False) (w.queries.foldlM (prepareAgain c all) w) := by
  refine Ends.foldlM ?_ (Restoring.start c all w)
  intro a todo v hv
  obtain ⟨q, hq⟩ := Option.isSome_iff_exists.1 (halive a (hv.ahead List.mem_cons_self))
  rcases hv.object a q hq with ⟨hsame, -⟩ | ⟨hlost, k, -, -, hquery, hresult⟩
  · -- not prepared yet; its old result object is as it was
    rw [prepareAgain_eq hsame, hv.old _ (hnumbered a q hq)]
    show Restoring c all w todo (if Lost c w q then _ else v)
    split
    · next hlost => exact hv.give hq hlost rfl
    · next hlost => exact hv.skip hq hlost
  · -- registered twice, and prepared before
    rw [prepareAgain_eq hquery, hresult, lastQuery_prepared]
    show Restoring c all w todo (if Lost c w q then _ else v)
    rw [if_pos hlost]
    exact hv.give hq hlost rfl

end

/-! ### A reconnection -/

/-- The cache is cleared, and its objects are gone. -/
def cleared (w : Process) : Process :=
  { w with
    queries := w.queries.filter (· ∉ w.cached.map (·.2.2))
    query := fun a => if a ∈ w.cached.map (·.2.2) then none else w.query a
    cached := [] }

/-- The connection is open again, with nothing in the cache. -/
def reopened (c : QString) (w : Process) : Process :=
  { w.cleared with session := Function.update w.session c (w.session c).reopen }

theorem mem_queries_cleared {w : Process} {a : Nat} :
    a ∈ w.cleared.queries ↔ a ∈ w.queries ∧ a ∉ w.cached.map (·.2.2) := by
  rw [cleared, List.mem_filter, decide_eq_true_eq]

theorem query_cleared {w : Process} {a : Nat} (ha : a ∈ w.cleared.queries) :
    w.cleared.query a = w.query a :=
  if_neg (mem_queries_cleared.1 ha).2

theorem Numbered.cleared {w : Process} (h : w.Numbered) : w.cleared.Numbered := by
  intro a q hq
  have hq : (if a ∈ w.cached.map (·.2.2) then none else w.query a) = some q := hq
  split at hq
  · cases hq
  · exact h a q hq

theorem foldl_of_kept {α β : Type*} (f : Process → α → Process) (g : Process → β)
    (h : ∀ w a, g (f w a) = g w) (as : List α) (w : Process) : g (as.foldl f w) = g w := by
  induction as generalizing w with
  | nil => rfl
  | cons a as ih => rw [List.foldl_cons, ih, h]

theorem result_subscribeToNotification (w : Process) (c n : QString) :
    ((w.subscribeToNotification c n).result, (w.subscribeToNotification c n).resultCount) =
      (w.result, w.resultCount) := by
  rw [subscribeToNotification]
  split <;> rfl

theorem result_resubscribeMonitors (c : QString) (monitors : List Nat) (w : Process) :
    Ends (fun v : Process => (v.result, v.resultCount) = (w.result, w.resultCount)) (fun _ => True)
      (monitors.foldlM (resubscribeMonitor c) w) := by
  refine Ends.foldlM (I := fun (_ : List Nat) (v : Process) => (v.result, v.resultCount) = (w.result, w.resultCount)) ?_ rfl
  intro m _ v hv
  rw [resubscribeMonitor, monitorAt]
  cases v.monitor m with
  | none => trivial
  | some mon =>
      show Ends _ _ (if mon.connectionName ≠ c then Except.ok v else Except.ok (v.resubscribe mon))
      split
      · exact hv
      · show ((v.resubscribe mon).result, (v.resubscribe mon).resultCount) = _
        rw [← hv]
        exact foldl_of_kept _ (fun v : Process => (v.result, v.resultCount))
          (fun v n => result_subscribeToNotification v _ n) _ v

theorem Restoring.of_eq {c : QString} {all : Nat → List (QString × QVariant)} {w v v' : Process}
    {todo : List Nat} (hv : Restoring c all w todo v) (hquery : v'.query = v.query)
    (hresult : (v'.result, v'.resultCount) = (v.result, v.resultCount)) : Restoring c all w todo v' := by
  obtain ⟨hresult, hcount⟩ := Prod.mk.inj hresult
  refine ⟨hv.ahead, by rw [hcount]; exact hv.count, by rw [hresult]; exact hv.old, fun a q hq => ?_⟩
  rw [hquery, Again, hquery, hresult, hcount]
  exact hv.object a q hq

/-- What there is when `open` has succeeded and the rest of the round is done. -/
structure Resumed (c : QString) (all : Nat → List (QString × QVariant)) (w v : Process) : Prop where
  isOpen : (v.session c).isOpen = true
  queries : v.queries = w.cleared.queries
  cached : v.cached = []
  restoring : Restoring c all (w.reopened c) [] v

theorem reconnect_resumed {w : Process} (hheld : Mutex.queryMutex ∉ w.held)
    (halive : ∀ a ∈ w.queries, (w.query a).isSome) (hmonitors : ∀ m ∈ w.monitors, (w.monitor m).isSome)
    (hnumbered : w.Numbered) (c : QString) (all : Nat → List (QString × QVariant)) :
    ∃ v, w.reconnect c all = .ok v ∧ Resumed c all w v := by
  have hlive : ∀ a ∈ (w.reopened c).queries, ((w.reopened c).query a).isSome := by
    intro a ha
    rw [show (w.reopened c).query a = w.query a from query_cleared ha]
    exact halive a (mem_queries_cleared.1 ha).1
  -- the queries are prepared again
  obtain ⟨u, hu, hkept⟩ := kept_foldlM_prepareAgain hlive c all
  have hrestoring := foldlM_prepareAgain hlive (hnumbered.cleared) c all
  rw [hu] at hrestoring
  -- the notifications are given up, and subscribed to again
  have hunsubscribed := foldl_unsubscribeFromNotification c (u.subscribed c) u
  obtain ⟨v, hv, hsubscribes, -⟩ := foldlM_resubscribeMonitor_eq_ok
    (w := { u with subscribed :=
      Function.update u.subscribed c ((u.subscribed c).filter (· ∉ u.subscribed c)) })
    (show ∀ m ∈ u.monitors, (u.monitor m).isSome by rw [hkept.monitor, hkept.monitors]; exact hmonitors) c
  have hresult := result_resubscribeMonitors c u.monitors
    { u with subscribed := Function.update u.subscribed c ((u.subscribed c).filter (· ∉ u.subscribed c)) }
  rw [hv] at hresult
  refine ⟨v, ?_, ?_, ?_, ?_, ?_⟩
  · rw [reconnect]
    show (clearCache _ >>= _) = _
    rw [clearCache_eq (by exact hheld)]
    show ((w.reopened c).queries.foldlM (prepareAgain c all) (w.reopened c) >>= _) = _
    rw [hu]
    show ((u.subscribed c).foldl _ u).monitors.foldlM _ ((u.subscribed c).foldl _ u) = _
    rw [hunsubscribed]
    exact hv
  · rw [hsubscribes.session]
    show (u.session c).isOpen = true
    rw [hkept.session]
    show (Function.update w.session c (w.session c).reopen c).isOpen = true
    rw [Function.update_self]
    rfl
  · exact hsubscribes.queries.trans hkept.queries
  · exact hsubscribes.cached.trans hkept.cached
  · exact hrestoring.of_eq hsubscribes.query hresult

/-! ### The whole check -/

/-- Registered objects and monitors are there, and no mutex is held. -/
structure Intact (w : Process) : Prop where
  free : w.Free
  alive : ∀ a ∈ w.queries, (w.query a).isSome
  monitors : ∀ m ∈ w.monitors, (w.monitor m).isSome
  numbered : w.Numbered

section
variable [SqlDriver]

/-- `checkDbIsAlive` without its lockers: the attempts to open that are made, and the end. -/
def Checks (c : QString) (onMainThread : Bool) (w : Process) (made : List Bool)
    (r : Except Stop Process) : Prop :=
  match w.queries.foldlM (saveBoundValues c w) fun _ => [] with
  | .error x => made = [] ∧ r = .error x
  | .ok all => Reopens c all onMainThread 0 w made r

/-- With the lockers it is the function. -/
theorem checkDbIsAlive_of_checks {w : Process} (hfree : w.Free) {c : QString} {onMainThread : Bool}
    {made : List Bool} {r : Except Stop Process} (h : Checks c onMainThread w.inCheck made r)
    (rest : List Bool) :
    w.checkDbIsAlive c onMainThread (made ++ rest) =
      r.bind fun v => .ok ((v.unlock .monitorMutex).unlock .queryMutex) := by
  rw [checkDbIsAlive_of_free hfree]
  rw [Checks, show w.inCheck.queries = w.queries from rfl] at h
  cases hsaved : w.queries.foldlM (saveBoundValues c w.inCheck) fun _ => [] with
  | error x =>
      rw [hsaved] at h
      obtain ⟨-, rfl⟩ := h
      rfl
  | ok all =>
      rw [hsaved] at h
      show (w.inCheck.reopenLoop c all onMainThread 10 (made ++ rest)).bind _ = _
      rw [h.reopenLoop_eq (by decide)]

theorem Checks.length_le {c : QString} {onMainThread : Bool} {w : Process} {made : List Bool}
    {r : Except Stop Process} (h : Checks c onMainThread w made r) : made.length ≤ 10 := by
  rw [Checks] at h
  cases hsaved : w.queries.foldlM (saveBoundValues c w) fun _ => [] with
  | error x =>
      rw [hsaved] at h
      rw [h.1]
      exact Nat.zero_le _
  | ok all =>
      rw [hsaved] at h
      simpa using Reopens.length_le h (by decide)

/-- What the program sees of its queries after the connection has been opened again. -/
structure Restored (c : QString) (w w' : Process) : Prop where
  isOpen : (w'.session c).isOpen = true
  /-- The objects of the cache are gone. -/
  queries : w'.queries = w.queries.filter (· ∉ w.cached.map (·.2.2))
  /-- An object of the connection is prepared anew: it has a result object that was not there. -/
  prepared : ∀ a ∈ w'.queries, ∀ q, w.query a = some q → Lost c w q →
    ∃ q', w'.query a = some q' ∧ q'.connectionName = c ∧ w.resultCount ≤ q'.result ∧
      (w'.result q'.result).lastQuery = (w.result q.result).lastQuery ∧
      ∀ n ∈ SqlDriver.placeholders (w.result q.result).lastQuery,
        (w'.result q'.result).boundValue n = (w.result q.result).boundValue n
  others : ∀ a ∈ w'.queries, ∀ q, w.query a = some q → ¬ Lost c w q →
    w'.query a = some q ∧ w'.result q.result = w.result q.result
  cache : ∀ connectionName text, w'.findCached connectionName text = none

theorem Resumed.restored {c : QString} {all : Nat → List (QString × QVariant)} {w v : Process}
    (hnumbered : w.Numbered) (hall : Saving c w [] all) (hv : Resumed c all w v) : Restored c w v where
  isOpen := hv.isOpen
  queries := hv.queries
  prepared a ha q hq hlost := by
    rw [hv.queries] at ha
    have hthere : (w.reopened c).query a = some q := (query_cleared ha).trans hq
    rcases hv.restoring.object a q hthere with ⟨-, hnot⟩ | ⟨-, k, hk, -, hquery, hresult⟩
    · exact absurd hlost (hnot ha List.not_mem_nil)
    · have hvalues : all a = w.boundValues q :=
        hall.saved a (mem_queries_cleared.1 ha).1 List.not_mem_nil q hq hlost.1
      have hresult : v.result k = Process.prepared (w.result q.result).lastQuery (w.boundValues q) := by
        rw [hresult, hvalues]
        rfl
      refine ⟨_, hquery, hlost.1, hk, ?_, fun n hn => ?_⟩
      · show (v.result k).lastQuery = _
        rw [hresult, lastQuery_prepared]
      · show (v.result k).boundValue n = _
        rw [hresult, boundValue_prepared q w hn]
  others a ha q hq hnot := by
    rw [hv.queries] at ha
    have hthere : (w.reopened c).query a = some q := (query_cleared ha).trans hq
    rcases hv.restoring.object a q hthere with ⟨hsame, -⟩ | ⟨hlost, -⟩
    · exact ⟨hsame, hv.restoring.old _ (hnumbered a q hq)⟩
    · exact absurd hlost hnot
  cache connectionName text := by
    rw [findCached, hv.cached]
    rfl

omit [SqlDriver] in
theorem Reopens.resumed {c : QString} {all : Nat → List (QString × QVariant)} {onMainThread : Bool}
    {n : Nat} {w : Process} (hw : w.Intact) {made : List Bool} {r : Except Stop Process}
    (h : Reopens c all onMainThread n w made r) (hmade : true ∈ made) :
    ∃ v, r = .ok v ∧ Resumed c all w v := by
  have hreconnect := reconnect_resumed (queryMutex_not_mem hw.free) hw.alive hw.monitors hw.numbered c all
  induction h with
  | alive _ => cases hmade
  | exits _ _ => cases hmade
  | givesUp _ _ _ => cases hmade
  | fails _ _ _ _ ih => exact ih hw (by simpa using hmade) hreconnect
  | succeeds _ _ _ hrec hrest _ =>
      obtain ⟨v, hv, hresumed⟩ := hreconnect
      obtain rfl := Except.ok.inj (hrec.symm.trans hv)
      -- the next round finds the connection open
      cases hrest with
      | alive _ => exact ⟨_, rfl, hresumed⟩
      | exits hclosed _ => rw [hresumed.isOpen] at hclosed; cases hclosed
      | givesUp hclosed _ _ => rw [hresumed.isOpen] at hclosed; cases hclosed
      | fails hclosed _ _ _ => rw [hresumed.isOpen] at hclosed; cases hclosed
      | succeeds hclosed _ _ _ _ => rw [hresumed.isOpen] at hclosed; cases hclosed
      | stops hclosed _ _ _ => rw [hresumed.isOpen] at hclosed; cases hclosed
  | stops _ _ _ hrec =>
      obtain ⟨v, hv, -⟩ := hreconnect
      rw [hrec] at hv
      cases hv

omit [SqlDriver] in
/-- After less than ten attempts that fail there is one that may succeed. -/
theorem exists_reopens_replicate {c : QString} {all : Nat → List (QString × QVariant)} {w v : Process}
    (hclosed : (w.session c).isOpen = false) (hrec : w.reconnect c all = .ok v)
    (hopen : (v.session c).isOpen = true) {n k : Nat} (hk : n + k < 10) :
    Reopens c all false n w (List.replicate k false ++ [true]) (.ok v) := by
  induction k generalizing n with
  | zero => exact .succeeds hclosed rfl (by omega) hrec (.alive hopen)
  | succ k ih =>
      rw [List.replicate_succ]
      exact .fails hclosed rfl (by omega) (ih (by omega))

/-- **At most ten attempts to open are made, and when one succeeds, as each of the ten may,
the queries are restored.** -/
theorem checks_restore (c : QString) (w : Process) :
    (∀ onMainThread made r, Checks c onMainThread w made r → made.length ≤ 10) ∧
      (w.Intact →
        (∀ k < 10, (w.session c).isOpen = false →
          ∃ r, Checks c false w (List.replicate k false ++ [true]) r) ∧
        ∀ onMainThread made r, Checks c onMainThread w made r → true ∈ made →
          ∃ w', r = .ok w' ∧ Restored c w w') := by
  refine ⟨fun onMainThread made r h => h.length_le, fun hw => ?_⟩
  obtain ⟨all, hsaved, hall⟩ := foldlM_saveBoundValues hw.alive c
  constructor
  · intro k hk hclosed
    obtain ⟨v, hrec, hresumed⟩ :=
      reconnect_resumed (queryMutex_not_mem hw.free) hw.alive hw.monitors hw.numbered c all
    refine ⟨.ok v, ?_⟩
    rw [Checks, hsaved]
    exact exists_reopens_replicate hclosed hrec hresumed.isOpen (by omega)
  · intro onMainThread made r h hmade
    rw [Checks, hsaved] at h
    obtain ⟨v, rfl, hresumed⟩ := Reopens.resumed hw h hmade
    exact ⟨v, rfl, hresumed.restored hw.numbered hall⟩

end

/-! ### Copies on a lost connection -/

/-- A prepared query, a copy of it and one in the cache, which share a result object, and a
query on another connection. -/
def lostWithCopies : Process :=
  { start with
    session := fun c => if c = latin1 "db" then (Session.new.lose.notice true) else .new
    query := fun a =>
      if a < 3 then some ⟨latin1 "db", 0⟩ else if a = 3 then some ⟨latin1 "other", 1⟩ else none
    result := fun k => if k = 0 then prepared (latin1 "SELECT :0") [(latin1 ":0", .other 2 [7])] else .prepared []
    resultCount := 2
    queries := [0, 1, 2, 3]
    cached := [(latin1 "db", latin1 "SELECT :0", 2)] }

theorem intact_lostWithCopies : lostWithCopies.Intact where
  free := rfl
  alive := by decide
  monitors := by decide
  numbered := by
    intro a q hq
    have hq : (if a < 3 then some (SqlQuery.mk (latin1 "db") 0) else
      if a = 3 then some ⟨latin1 "other", 1⟩ else none) = some q := hq
    show q.result < 2
    split_ifs at hq
    · obtain rfl := Option.some.inj hq
      decide
    · obtain rfl := Option.some.inj hq
      decide

/-- The third attempt succeeds. -/
theorem checks_restore_lostWithCopies :
    let _ : SqlDriver := ⟨fun _ => [latin1 ":0"], fun _ => true⟩
    ∃ r w', Checks (latin1 "db") false lostWithCopies [false, false, true] r ∧ r = .ok w' ∧
      Restored (latin1 "db") lostWithCopies w' := by
  intro _
  obtain ⟨hopens, hrestores⟩ := (checks_restore (latin1 "db") lostWithCopies).2 intact_lostWithCopies
  obtain ⟨r, hr⟩ := hopens 2 (by decide) rfl
  obtain ⟨w', hw', hrestored⟩ := hrestores false _ r hr (by decide)
  exact ⟨r, w', hr, hw', hrestored⟩

end Sqlate.Process
