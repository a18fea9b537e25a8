/-
Sqlate/SelectBalance.lean

How the text of a SELECT builder differs from what was asked for.

The lexemes of the text are those of a statement with the clauses of the
request, up to four differences: ON and a condition behind a CROSS JOIN, a
comparison of nothing where a condition is empty, one lock clause where there
should be several, and no limit where there should be one.  Each of them
changes how often some word occurs, the words of `telling`, and no other makes
up for it (`balance`).
-/
import Sqlate.SelectReading

namespace Sqlate

open SqlLexer (Closed lexemes)

variable {G : Phrases}

/-! ### Counting words -/

def comparisonWords : List QString :=
  kw "=" ++ kw "<>" ++ kw "IS" ++ kw "<" ++ kw "<=" ++ kw ">" ++ kw ">=" ++ kw "LIKE"

/-- The words that tell the differences. -/
def telling : List QString := kw "ON" ++ kw "FOR" ++ kw "OFFSET" ++ comparisonWords

/-- The words that do not. -/
def silent : List QString :=
  kw "," ++ kw "(" ++ kw ")" ++ kw "AND" ++ kw "OR" ++ kw "WHERE" ++ kw "NOWAIT" ++ kw "LIMIT"

theorem count_silent {k : QString} (hk : k ∈ telling) {w : QString} (hw : w ∈ silent) :
    [w].count k = 0 := by
  have hall : ∀ k ∈ telling, k ∉ silent := by decide
  rw [List.count_eq_zero, List.mem_singleton]
  rintro rfl
  exact hall k hk hw

theorem count_number {k : QString} (hk : k ∈ telling) (n : Nat) : [QString.number n].count k = 0 := by
  have hall : (telling.all fun k => k.any fun c => !c.isDigit) = true := by rfl
  obtain ⟨c, hc, hdigit⟩ := List.any_eq_true.1 (List.all_eq_true.1 hall k hk)
  rw [List.count_eq_zero, List.mem_singleton]
  rintro rfl
  rw [QString.isDigit_of_mem_number hc] at hdigit
  cases hdigit

theorem count_commaSeparated {k : QString} (hk : k ∈ telling) (parts : List (List QString)) :
    (commaSeparated parts).count k = (parts.map (List.count k)).sum := by
  have hcomma := count_silent hk (by decide : latin1 "," ∈ silent)
  induction parts with
  | nil => rfl
  | cons part parts ih =>
      cases parts with
      | nil =>
          rw [commaSeparated_singleton]
          exact (Nat.add_zero _).symm
      | cons part' parts =>
          rw [commaSeparated_cons_cons, List.count_append, List.count_append, hcomma, ih, Nat.zero_add]
          rfl

/-! ### Conditions -/

def Token.comparison? : Token → Option Comparison
  | comparison a => some a
  | _ => none

theorem Token.grammar_collects : Grammar.Collects Token.grammar Token.comparison? where
  atom := by
    intro ts a rest h
    match ts with
    | [] => cases h
    | comparison a' :: ts =>
        obtain ⟨rfl, rfl⟩ := Prod.mk.inj (Option.some.inj h)
        rfl
    | opening :: ts => cases h
    | closing :: ts => cases h
    | connective op :: ts => cases h
  opening := by intro t h; cases t <;> first | rfl | cases h
  closing := by intro t h; cases t <;> first | rfl | cases h
  connective := by intro op t h; cases t <;> first | rfl | cases h

/-- How often a word occurs in comparisons. -/
def weight (k : QString) (as : List Comparison) : Nat := (as.map fun a => a.lexemes.count k).sum

theorem weight_cons (k : QString) (a : Comparison) (as : List Comparison) :
    weight k (a :: as) = a.lexemes.count k + weight k as := rfl

theorem weight_filter (k : QString) (as : List Comparison) :
    weight k as = weight k (as.filter fun a => !a.isEmpty) + weight k (as.filter Comparison.isEmpty) := by
  induction as with
  | nil => rfl
  | cons a as ih =>
      rw [weight_cons, ih]
      cases h : a.isEmpty with
      | false =>
          rw [List.filter_cons_of_pos (by rw [h]; rfl), List.filter_cons_of_neg (by simp [h]),
            weight_cons]
          omega
      | true =>
          rw [List.filter_cons_of_neg (by simp [h]), List.filter_cons_of_pos h, weight_cons]
          omega

theorem count_tokens {k : QString} (hk : k ∈ telling) (ts : List Token) :
    (ts.flatMap Token.lexemes).count k = weight k (ts.filterMap Token.comparison?) := by
  induction ts with
  | nil => rfl
  | cons t ts ih =>
      rw [List.flatMap_cons, List.count_append, ih]
      cases t with
      | comparison a => rfl
      | opening =>
          have h := count_silent hk (by decide : latin1 "(" ∈ silent)
          exact (congrArg (· + _) h).trans (Nat.zero_add _)
      | closing =>
          have h := count_silent hk (by decide : latin1 ")" ∈ silent)
          exact (congrArg (· + _) h).trans (Nat.zero_add _)
      | connective op =>
          have h : (Token.connective op).lexemes.count k = 0 := by
            cases op
            · exact count_silent hk (by decide : latin1 "AND" ∈ silent)
            · exact count_silent hk (by decide : latin1 "OR" ∈ silent)
          exact (congrArg (· + _) h).trans (Nat.zero_add _)

theorem StmtCondition.count_yield {k : QString} (hk : k ∈ telling) (c : StmtCondition G) :
    c.yield.count k = weight k c.expr.atoms := by
  rw [yield, count_tokens hk, Grammar.read_atoms Token.grammar_collects c.read]

theorem count_conditionWords {k : QString} (hk : k ∈ telling) {t : ConnTree Comparison}
    (ht : t.Full) : (conditionWords t).count k = weight k t.leaves := by
  obtain ⟨e, hread, hagrees⟩ := Token.read_write t ht
  rw [conditionWords, count_tokens hk, Grammar.read_atoms Token.grammar_collects hread,
    hagrees.atoms, List.map_id]

/-- A condition that is asked for has the comparisons that are not empty. -/
theorem ConditionRequested.atoms {t : ConnTree Comparison} {c : Option (StmtCondition G)}
    (h : ConditionRequested t c) :
    c.elim [] (fun c => c.expr.atoms) = t.leaves.filter fun a => !a.isEmpty := by
  unfold ConditionRequested at h
  rw [ConnTree.leaves_prune]
  cases hprune : t.prune fun a => !a.isEmpty with
  | none =>
      rw [hprune] at h
      cases c with
      | none => rfl
      | some c => cases h
  | some t' =>
      rw [hprune] at h
      cases c with
      | none => cases h
      | some c => exact h.atoms.trans (List.map_id _)

/-! ### Joins and the WHERE clause -/

open SelectRequest (Join joinWordsBuilt joinsFrom)

/-- What a join has too much of a word. -/
def extra (k : QString) (j : Join) : Nat :=
  if j.type = .crossJoin then (kw "ON" ++ conditionWords j.condition).count k
  else weight k (j.condition.leaves.filter Comparison.isEmpty)

theorem count_join {k : QString} (hk : k ∈ telling) {j : Join} {p : StmtJoin G}
    (hfull : j.condition.Full) (h : p.Requested j) :
    (joinWordsBuilt j).count k = p.yield.count k + extra k j := by
  cases p with
  | cross table =>
      obtain ⟨htype, htable⟩ := h
      rw [joinWordsBuilt, StmtJoin.yield, extra, if_pos htype, htype, htable]
      simp only [List.count_append]
      omega
  | qualified type hcross table on =>
      obtain ⟨htype, htable, hcondition⟩ := h
      have hatoms : on.expr.atoms = j.condition.leaves.filter fun a => !a.isEmpty := hcondition.atoms
      rw [joinWordsBuilt, StmtJoin.yield, extra, if_neg (htype ▸ hcross), htype, htable]
      simp only [List.count_append, count_conditionWords hk hfull, on.count_yield hk, hatoms,
        weight_filter k j.condition.leaves]
      omega

theorem count_joins {k : QString} (hk : k ∈ telling) {js : List Join} {ps : List (StmtJoin G)}
    (hfull : ∀ j ∈ js, j.condition.Full) (h : List.Forall₂ StmtJoin.Requested js ps) :
    (js.flatMap joinWordsBuilt).count k =
      (ps.flatMap StmtJoin.yield).count k + (js.map (extra k)).sum := by
  induction h with
  | nil => rfl
  | cons hj hjs ih =>
      rw [List.forall_mem_cons] at hfull
      rw [List.flatMap_cons, List.flatMap_cons, List.count_append, List.count_append, List.map_cons,
        List.sum_cons, count_join hk hfull.1 hj, ih hfull.2]
      omega

theorem full_of_mem_joinsFrom {n : Nat} {js : List JoinInfo} :
    ∀ j ∈ joinsFrom n js, j.condition.Full := by
  induction js generalizing n with
  | nil => intro j hj; cases hj
  | cons j js ih =>
      rw [joinsFrom, List.forall_mem_cons]
      exact ⟨j.condition.toTree_full n, ih⟩

/-- The lexemes of a WHERE clause. -/
def whereYield (c : Option (StmtCondition G)) : List QString := c.elim [] fun c => kw "WHERE" ++ c.yield

/-- What the WHERE clause has too much of a word. -/
def SelectRequest.extraWhere (k : QString) (r : SelectRequest) : Nat :=
  if r.whereCondition.hasSubConditions then weight k (r.whereTree.leaves.filter Comparison.isEmpty)
  else 0

/-- A condition without sub-conditions is one comparison of nothing. -/
theorem whereTree_of_not_hasSubConditions {r : SelectRequest}
    (hwhere : r.whereCondition.hasSubConditions = false) (hcolumn : r.whereCondition.column = []) :
    ∃ a : Comparison, a.isEmpty ∧ r.whereTree = .leaf a := by
  rcases hcond : r.whereCondition with ⟨subConditions, column, c, p, v, op, l, s⟩
  rw [hcond] at hwhere hcolumn
  have hempty : subConditions = [] := by simpa [SqlCondition.hasSubConditions] using hwhere
  obtain rfl : column = [] := hcolumn
  subst hempty
  rw [SelectRequest.whereTree, hcond]
  exact ⟨⟨[], c, p, v, op, _⟩, rfl, rfl⟩

theorem count_where {k : QString} (hk : k ∈ telling) {r : SelectRequest}
    (hcolumn : r.whereCondition.column = []) {c : Option (StmtCondition G)}
    (h : ConditionRequested r.whereTree c) :
    r.whereWords.count k = (whereYield c).count k + r.extraWhere k := by
  have hwhere : (whereYield c).count k = weight k (c.elim [] fun c => c.expr.atoms) := by
    cases c with
    | none => rfl
    | some c =>
        show (kw "WHERE" ++ c.yield).count k = weight k c.expr.atoms
        rw [List.count_append, count_silent hk (by decide), c.count_yield hk, Nat.zero_add]
  rw [hwhere, h.atoms, SelectRequest.whereWords, SelectRequest.extraWhere]
  cases hsub : r.whereCondition.hasSubConditions with
  | false =>
      obtain ⟨a, ha, htree⟩ := whereTree_of_not_hasSubConditions hsub hcolumn
      rw [htree, ConnTree.leaves, List.filter_cons_of_neg (by simp [ha])]
      rfl
  | true =>
      have hfull : r.whereTree.Full := SqlCondition.toTree_full _ _
      show (kw "WHERE" ++ conditionWords r.whereTree).count k = _ + weight k _
      rw [List.count_append, count_silent hk (by decide), count_conditionWords hk hfull,
        weight_filter k r.whereTree.leaves, Nat.zero_add]

/-! ### Locks and the limit -/

/-- How often a word occurs in the names of the tables to lock. -/
def lockWeight (k : QString) (locks : List (QString × Bool)) : Nat :=
  (locks.map fun l => (lexemes l.1).count k).sum

def forUpdateOf : List QString := kw "FOR" ++ kw "UPDATE" ++ kw "OF"

theorem count_noWait {k : QString} (hk : k ∈ telling) (noWait : Bool) :
    (if noWait then kw "NOWAIT" else []).count k = 0 := by
  cases noWait
  · rfl
  · exact count_silent hk (by decide)

theorem count_lockWords {k : QString} (hk : k ∈ telling) (r : SelectRequest) :
    r.lockWords.count k =
      (if r.locks = [] then 0 else forUpdateOf.count k) + lockWeight k r.locks := by
  by_cases hlocks : r.locks = []
  · rw [SelectRequest.lockWords, hlocks]
    rfl
  · have hnonempty : (!r.locks.isEmpty) = true := by simpa using hlocks
    rw [SelectRequest.lockWords, if_pos hnonempty, if_neg hlocks, List.count_append,
      List.count_append, count_noWait hk, count_commaSeparated hk, List.map_map]
    rfl

theorem count_locks {k : QString} (hk : k ∈ telling) (ls : List (LockClause G)) :
    (ls.flatMap LockClause.yield).count k =
      ls.length * forUpdateOf.count k
        + lockWeight k (ls.flatMap fun l => l.tables.map fun t => (t.text, l.noWait)) := by
  induction ls with
  | nil => simp [lockWeight]
  | cons l ls ih =>
      have hclause : l.yield.count k = forUpdateOf.count k
          + lockWeight k (l.tables.map fun t => (t.text, l.noWait)) := by
        rw [LockClause.yield, List.count_append, List.count_append, count_noWait hk,
          count_commaSeparated hk, List.map_map, lockWeight, List.map_map]
        rfl
      have happend : ∀ as bs, lockWeight k (as ++ bs) = lockWeight k as + lockWeight k bs := by
        intro as bs
        rw [lockWeight, List.map_append, List.sum_append]
        rfl
      rw [List.flatMap_cons, List.count_append, hclause, ih, List.flatMap_cons, happend,
        List.length_cons, Nat.succ_mul]
      omega

theorem count_limitWords {k : QString} (hk : k ∈ telling) (offset length : Nat) :
    (limitWords offset length).count k = (kw "OFFSET").count k := by
  rw [limitWords, List.count_append, List.count_append, List.count_append, count_number hk,
    count_number hk, count_silent hk (by decide : latin1 "LIMIT" ∈ silent)]
  rfl

/-- Is there a limit in the text? -/
def SelectRequest.limitWritten (r : SelectRequest) : Bool :=
  r.limit.any fun l => l.1 ≠ SqlSelectQueryBuilder.noLimit

theorem count_limitWordsBuilt {k : QString} (hk : k ∈ telling) (r : SelectRequest) :
    r.limitWordsBuilt.count k = if r.limitWritten then (kw "OFFSET").count k else 0 := by
  rw [SelectRequest.limitWordsBuilt, SelectRequest.limitWritten]
  cases r.limit with
  | none => rfl
  | some l =>
      by_cases hl : l.1 = SqlSelectQueryBuilder.noLimit
      · simp [hl]
      · simp [hl, count_limitWords hk]

theorem count_limit {k : QString} (hk : k ∈ telling) (l : Option (Nat × Nat)) :
    (l.elim [] fun l => limitWords l.1 l.2).count k = if l.isSome then (kw "OFFSET").count k else 0 := by
  cases l with
  | none => rfl
  | some l => exact count_limitWords hk l.1 l.2

/-! ### The words of a statement and those of the text -/

/-- The joins of a statement. -/
def SelectStmt.joins (s : SelectStmt G) : List (StmtJoin G) := s.fromClause.elim [] FromClause.joins

/-- A column of a statement yields what is written for it. -/
theorem StmtTarget.yield_eq (t : StmtTarget G) :
    t.yield = SelectRequest.targetWords t.asked.1 t.asked.2 := by
  cases t with
  | plain target => exact (List.append_nil _).symm
  | labelled expr hstar label hlabel =>
      have hnonempty : ¬ label.isEmpty = true := by simpa using hlabel
      show _ = lexemes expr.text ++ if label.isEmpty then [] else _
      rw [if_neg hnonempty]
      rfl

/-- What a statement that is asked for yields: the words of the text, but for joins,
conditions, locks and the limit. -/
theorem SelectStmt.Requests.yield_eq {s : SelectStmt G} {r : SelectRequest} (h : s.Requests r) :
    s.yield = kw "SELECT" ++ (r.distinctWords ++ (r.columnWords ++ (r.fromWords
      ++ (s.joins.flatMap StmtJoin.yield ++ (whereYield s.whereClause ++ (r.groupWords ++ (r.sortWords
        ++ (s.locks.flatMap LockClause.yield ++ s.limit.elim [] fun l => limitWords l.1 l.2)))))))) := by
  have hduplicates : s.duplicates.yield = r.distinctWords := by
    obtain ⟨hdistinct, hdistinctOn⟩ := Prod.mk.inj h.duplicates
    rw [SelectRequest.distinctWords, ← hdistinct, ← hdistinctOn]
    cases s.duplicates with
    | all => rfl
    | distinct => rfl
    | distinctOn exprs =>
        have hnonempty : (!List.isEmpty exprs.text) = true := by simpa using exprs.isPhrase.nonempty
        show _ = [] ++ if !List.isEmpty exprs.text then _ else []
        rw [if_pos hnonempty]
        rfl
  have hcolumns : commaSeparated (s.targets.map StmtTarget.yield) = r.columnWords := by
    rw [SelectRequest.columnWords, ← h.columns, List.map_map]
    exact congrArg commaSeparated (List.map_congr_left fun t _ => t.yield_eq)
  have hfrom : s.fromClause.elim [] FromClause.yield =
      r.fromWords ++ s.joins.flatMap StmtJoin.yield := by
    have hfrom := h.fromClause
    rw [SelectRequest.fromWords, joins]
    cases hs : s.fromClause with
    | none =>
        rw [hs] at hfrom
        rw [hfrom.1]
        rfl
    | some f =>
        rw [hs] at hfrom
        have hnonempty : (!List.isEmpty r.table) = true := by
          rw [hfrom.1]
          simpa using f.table.isPhrase.nonempty
        rw [if_pos hnonempty, hfrom.1]
        rfl
  have hgroup : (if s.groupBy.isEmpty then []
      else kw "GROUP" ++ kw "BY" ++ commaSeparated (s.groupBy.map fun e => lexemes e.text)) =
      r.groupWords := by
    rw [SelectRequest.groupWords, ← h.groupBy]
    cases s.groupBy with
    | nil => rfl
    | cons e es => simp [List.map_map, Function.comp_def]
  have hsort : (if s.orderBy.isEmpty then []
      else kw "ORDER" ++ kw "BY"
        ++ commaSeparated (s.orderBy.map fun e => lexemes e.1.text ++ orderWords e.2)) =
      r.sortWords := by
    rw [SelectRequest.sortWords, ← h.orderBy]
    cases s.orderBy with
    | nil => rfl
    | cons e es => simp [List.map_map, Function.comp_def]
  rw [yield, hduplicates, hcolumns, hfrom, hgroup, hsort]
  simp only [List.append_assoc]
  rfl

theorem SelectStmt.Requests.joins {s : SelectStmt G} {r : SelectRequest} (h : s.Requests r) :
    List.Forall₂ StmtJoin.Requested r.joinTrees s.joins := by
  have hfrom := h.fromClause
  rw [SelectStmt.joins]
  cases hs : s.fromClause with
  | none =>
      rw [hs] at hfrom
      rw [SelectRequest.joinTrees, hfrom.2]
      exact .nil
  | some f =>
      rw [hs] at hfrom
      exact hfrom.2

/-- **No difference makes up for another**: for every telling word, what is too much in
the text is what is missing. -/
theorem balance {k : QString} (hk : k ∈ telling) {s : SelectStmt G} {r : SelectRequest}
    (hcolumn : r.whereCondition.column = []) (h : s.Requests r) (hyield : s.yield = r.builtWords) :
    (r.joinTrees.map (extra k)).sum + r.extraWhere k
        + (if r.locks = [] then 0 else forUpdateOf.count k)
        + (if r.limitWritten then (kw "OFFSET").count k else 0) =
      s.locks.length * forUpdateOf.count k
        + (if r.limit.isSome then (kw "OFFSET").count k else 0) := by
  have hjoins : (r.joinTrees.flatMap joinWordsBuilt).count k =
      (s.joins.flatMap StmtJoin.yield).count k + (r.joinTrees.map (extra k)).sum :=
    count_joins hk full_of_mem_joinsFrom h.joins
  have hwhere := count_where hk hcolumn h.whereClause
  have hlocked : (s.locks.flatMap fun l => l.tables.map fun t => (t.text, l.noWait)) = r.locks :=
    h.locks
  have hisSome : s.limit.isSome = r.limit.isSome := by rw [h.limit, Option.isSome_map]
  have hcount := congrArg (List.count k) hyield
  rw [h.yield_eq, SelectRequest.builtWords] at hcount
  simp only [List.count_append, count_lockWords hk, count_locks hk, hlocked, count_limit hk,
    count_limitWordsBuilt hk, hisSome, hjoins, hwhere] at hcount
  omega

end Sqlate
