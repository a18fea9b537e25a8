/-
Sqlate/SelectSentence.lean

Which SELECT builders say what was asked for.

A text that is what was asked for has none of the four differences, as they
do not make up for each other (`Expressible.of_requests`).  A request without
them, and with parts that the grammar knows, has a statement whose lexemes are
those of the text (`Expressible.exists_requests`).  `readAsRequested_iff` is
therefore an equivalence.
-/
import Sqlate.SelectBalance

namespace Sqlate

open SqlLexer (Closed lexemes)

variable {G : Phrases}

/-! ### Which requests become sentences -/

namespace SelectRequest

/-- Everything that is asked for has a place in the grammar and in the text. -/
structure Expressible (G : Phrases) (r : SelectRequest) : Prop where
  /-- Not both `setDistinct` and `setDistinctOn`, neither without a column. -/
  distinct : r.distinct → r.distinctOn = [] ∧ r.columns ≠ []
  distinctOn : r.distinctOn ≠ [] → IsPhrase G .exprList r.distinctOn ∧ r.columns ≠ []
  columns : ∀ col ∈ r.columns, col.2 = [] → IsPhrase G .target col.1
  /-- No label on `*`. -/
  labelled : ∀ col ∈ r.columns, col.2 ≠ [] → IsPhrase G .expr col.1 ∧ lexemes col.1 ≠ kw "*"
  labels : ∀ col ∈ r.columns, SqlLexer.doubleQuote ∉ col.2
  table : r.table ≠ [] → IsPhrase G .table r.table
  /-- No join without a table to join to. -/
  joinedTo : r.joins ≠ [] → r.table ≠ []
  /-- No CROSS JOIN, no condition that is empty or has an empty one inside, and IS and
  IS NOT before NULL only. -/
  joins : ∀ j ∈ r.joinTrees, j.type ≠ .crossJoin ∧ IsPhrase G .table j.table ∧
    ∀ a ∈ j.condition.leaves, a.IsPhrase G
  whereCondition : r.whereCondition.hasSubConditions → ∀ a ∈ r.whereTree.leaves, a.IsPhrase G
  groupColumns : ∀ col ∈ r.groupColumns, IsPhrase G .expr col
  sortColumns : ∀ col ∈ r.sortColumns, IsPhrase G .expr col.1
  locks : ∀ l ∈ r.locks, IsPhrase G .relation l.1
  /-- One mode for all tables. -/
  lockModes : ∀ l ∈ r.locks, ∀ l' ∈ r.locks, l.2 = l'.2
  /-- The offset is not the one that stands for no limit. -/
  limit : ∀ l ∈ r.limit, l.1 ≠ SqlSelectQueryBuilder.noLimit

section
variable {r : SelectRequest} {s : SelectStmt G}

/-- Words of comparisons, and ON, are never too many. -/
theorem no_extra {k : QString} (hk : k ∈ telling) (hlocks : forUpdateOf.count k = 0)
    (hlimit : (kw "OFFSET").count k = 0) (hcolumn : r.whereCondition.column = [])
    (h : s.Requests r) (hyield : s.yield = r.builtWords) :
    (∀ j ∈ r.joinTrees, extra k j = 0) ∧ r.extraWhere k = 0 := by
  have hbalance := balance hk hcolumn h hyield
  simp only [hlocks, hlimit, ite_self, Nat.mul_zero, Nat.add_zero] at hbalance
  obtain ⟨hjoins, hwhere⟩ := Nat.add_eq_zero_iff.1 hbalance
  refine ⟨?_, hwhere⟩
  intro j hj
  exact List.sum_eq_zero_iff_forall_eq_nat.1 hjoins _ (List.mem_map_of_mem hj)

/-- The word by which a comparison is told, and neither a lock nor a limit. -/
theorem exists_telling (op : CompareOperator) :
    ∃ k ∈ telling, k ∈ compareWords op ∧ forUpdateOf.count k = 0 ∧ (kw "OFFSET").count k = 0 := by
  have hwords : ∀ k ∈ comparisonWords,
      k ∈ telling ∧ forUpdateOf.count k = 0 ∧ (kw "OFFSET").count k = 0 := by decide
  obtain ⟨k, hk, hop⟩ : ∃ k ∈ comparisonWords, k ∈ compareWords op := by
    cases op <;> decide
  obtain ⟨htelling, hcounts⟩ := hwords k hk
  exact ⟨k, htelling, hop, hcounts⟩

/-- A comparison that is there is told. -/
theorem weight_pos {k : QString} {a : Comparison} {as : List Comparison} (ha : a ∈ as)
    (hk : k ∈ compareWords a.compareOp) : 0 < weight k as := by
  have hmem : k ∈ a.lexemes := List.mem_append_left _ (List.mem_append_right _ hk)
  rw [Nat.pos_iff_ne_zero]
  intro hzero
  have hcount := List.sum_eq_zero_iff_forall_eq_nat.1 hzero _ (List.mem_map_of_mem ha)
  exact List.count_eq_zero.1 hcount hmem

theorem not_cross (hcolumn : r.whereCondition.column = []) (h : s.Requests r)
    (hyield : s.yield = r.builtWords) : ∀ j ∈ r.joinTrees, j.type ≠ .crossJoin := by
  intro j hj hcross
  have hextra := (no_extra (by decide : latin1 "ON" ∈ telling) (by decide) (by decide) hcolumn h
    hyield).1 j hj
  rw [extra, if_pos hcross, List.count_append] at hextra
  have hon : (kw "ON").count (latin1 "ON") = 1 := by decide
  omega

/-- If no word of a comparison is too many, no comparison is empty. -/
theorem not_isEmpty_of_weight {as : List Comparison}
    (h : ∀ k ∈ telling, forUpdateOf.count k = 0 → (kw "OFFSET").count k = 0 →
      weight k (as.filter Comparison.isEmpty) = 0) : ∀ a ∈ as, a.isEmpty = false := by
  intro a ha
  by_contra hempty
  rw [Bool.not_eq_false] at hempty
  obtain ⟨k, hk, hop, hlocks, hlimit⟩ := exists_telling a.compareOp
  have hzero := h k hk hlocks hlimit
  have hpos := weight_pos (List.mem_filter.2 ⟨ha, hempty⟩) hop
  omega

theorem not_isEmpty_of_mem_joins (hcolumn : r.whereCondition.column = []) (h : s.Requests r)
    (hyield : s.yield = r.builtWords) :
    ∀ j ∈ r.joinTrees, ∀ a ∈ j.condition.leaves, a.isEmpty = false := by
  intro j hj
  apply not_isEmpty_of_weight
  intro k hk hlocks hlimit
  have hextra := (no_extra hk hlocks hlimit hcolumn h hyield).1 j hj
  rw [extra, if_neg (not_cross hcolumn h hyield j hj)] at hextra
  exact hextra

theorem not_isEmpty_of_mem_where (hcolumn : r.whereCondition.column = []) (h : s.Requests r)
    (hyield : s.yield = r.builtWords) (hwhere : r.whereCondition.hasSubConditions) :
    ∀ a ∈ r.whereTree.leaves, a.isEmpty = false := by
  apply not_isEmpty_of_weight
  intro k hk hlocks hlimit
  have hextra := (no_extra hk hlocks hlimit hcolumn h hyield).2
  rw [extraWhere, if_pos hwhere] at hextra
  exact hextra

/-- Without these, only the locks and the limit are left. -/
theorem balance_locks_limit {k : QString} (hk : k ∈ telling)
    (hcolumn : r.whereCondition.column = []) (h : s.Requests r) (hyield : s.yield = r.builtWords) :
    (if r.locks = [] then 0 else forUpdateOf.count k)
        + (if r.limitWritten then (kw "OFFSET").count k else 0) =
      s.locks.length * forUpdateOf.count k
        + (if r.limit.isSome then (kw "OFFSET").count k else 0) := by
  have hbalance := balance hk hcolumn h hyield
  have hnone : ∀ as : List Comparison, (∀ a ∈ as, a.isEmpty = false) →
      weight k (as.filter Comparison.isEmpty) = 0 := by
    intro as has
    rw [List.filter_eq_nil_iff.2 fun a ha => by rw [has a ha]; exact Bool.false_ne_true]
    rfl
  have hjoins : (r.joinTrees.map (extra k)).sum = 0 := by
    rw [List.sum_eq_zero_iff_forall_eq_nat, List.forall_mem_map]
    intro j hj
    rw [extra, if_neg (not_cross hcolumn h hyield j hj)]
    exact hnone _ (not_isEmpty_of_mem_joins hcolumn h hyield j hj)
  have hwhere : r.extraWhere k = 0 := by
    rw [extraWhere]
    split
    · next hsub => exact hnone _ (not_isEmpty_of_mem_where hcolumn h hyield hsub)
    · rfl
  omega

/-- A join that is asked for has a partner in the statement. -/
theorem exists_requested {js : List Join} {ps : List (StmtJoin G)}
    (h : List.Forall₂ StmtJoin.Requested js ps) : ∀ j ∈ js, ∃ p : StmtJoin G, p.Requested j := by
  induction h with
  | nil => intro j hj; cases hj
  | cons hj _ ih =>
      rw [List.forall_mem_cons]
      exact ⟨⟨_, hj⟩, ih⟩

/-- The comparisons of a condition that is asked for are those of the statement, if
none is empty. -/
theorem isPhrase_of_requested {t : ConnTree Comparison} {c : Option (StmtCondition G)}
    (h : ConditionRequested t c) (hempty : ∀ a ∈ t.leaves, a.isEmpty = false) :
    ∀ a ∈ t.leaves, a.IsPhrase G := by
  intro a ha
  have hmem : a ∈ c.elim [] fun c => c.expr.atoms := by
    rw [h.atoms, List.mem_filter, hempty a ha]
    exact ⟨ha, rfl⟩
  cases c with
  | none => cases hmem
  | some c => exact c.phrases a hmem

/-- A request that is read has one lock clause, and its mode is that of all tables. -/
theorem lockModes_of_requests (hcolumn : r.whereCondition.column = []) (h : s.Requests r)
    (hyield : s.yield = r.builtWords) : ∀ l ∈ r.locks, ∀ l' ∈ r.locks, l.2 = l'.2 := by
  intro l hl l' hl'
  have hbalance := balance_locks_limit (by decide : latin1 "FOR" ∈ telling) hcolumn h hyield
  have hone : forUpdateOf.count (latin1 "FOR") = 1 := by decide
  have hzero : (kw "OFFSET").count (latin1 "FOR") = 0 := by decide
  rw [hone, hzero, ite_self, ite_self, if_neg (List.ne_nil_of_mem hl)] at hbalance
  obtain ⟨clause, hclause⟩ := List.length_eq_one_iff.1 (by omega : s.locks.length = 1)
  have hlocked : clause.tables.map (fun t => (t.text, clause.noWait)) = r.locks := by
    rw [← h.locks, SelectStmt.lockedTables, hclause]
    simp
  have hmode : ∀ l ∈ r.locks, l.2 = clause.noWait := by
    intro l hl
    rw [← hlocked] at hl
    obtain ⟨t, -, rfl⟩ := List.mem_map.1 hl
    rfl
  rw [hmode l hl, hmode l' hl']

/-- Its limit is written. -/
theorem limit_of_requests (hcolumn : r.whereCondition.column = []) (h : s.Requests r)
    (hyield : s.yield = r.builtWords) :
    ∀ l ∈ r.limit, l.1 ≠ SqlSelectQueryBuilder.noLimit := by
  intro l hl hoffset
  have hbalance := balance_locks_limit (by decide : latin1 "OFFSET" ∈ telling) hcolumn h hyield
  have hzero : forUpdateOf.count (latin1 "OFFSET") = 0 := by decide
  have hone : (kw "OFFSET").count (latin1 "OFFSET") = 1 := by decide
  have hl : r.limit = some l := hl
  have hsome : r.limit.isSome = true := by rw [hl]; rfl
  rw [hone, hzero, ite_self, Nat.mul_zero, if_pos hsome] at hbalance
  have hnot : r.limitWritten = false := by simp [limitWritten, hl, hoffset]
  rw [hnot] at hbalance
  cases hbalance

theorem Expressible.of_requests (hcolumn : r.whereCondition.column = [])
    (hlabels : ∀ col ∈ r.columns, SqlLexer.doubleQuote ∉ col.2) (h : s.Requests r)
    (hyield : s.yield = r.builtWords) : r.Expressible G := by
  obtain ⟨hdistinct, hdistinctOn⟩ := Prod.mk.inj h.duplicates
  have hcolumns : s.duplicates ≠ .all → r.columns ≠ [] := by
    intro hne hnil
    rw [← h.columns, List.map_eq_nil_iff] at hnil
    exact s.targets_ne hne hnil
  constructor
  case distinct =>
    intro hset
    cases hs : s.duplicates with
    | all => rw [hs] at hdistinct; rw [← hdistinct] at hset; cases hset
    | distinct =>
        rw [hs] at hdistinctOn
        exact ⟨hdistinctOn.symm, hcolumns (by rw [hs]; nofun)⟩
    | distinctOn exprs => rw [hs] at hdistinct; rw [← hdistinct] at hset; cases hset
  case distinctOn =>
    intro hset
    cases hs : s.duplicates with
    | all => rw [hs] at hdistinctOn; exact absurd hdistinctOn.symm hset
    | distinct => rw [hs] at hdistinctOn; exact absurd hdistinctOn.symm hset
    | distinctOn exprs =>
        rw [hs] at hdistinctOn
        exact ⟨hdistinctOn ▸ exprs.isPhrase, hcolumns (by rw [hs]; nofun)⟩
  case columns =>
    intro col hcol hlabel
    rw [← h.columns] at hcol
    obtain ⟨t, -, rfl⟩ := List.mem_map.1 hcol
    cases t with
    | plain target => exact target.isPhrase
    | labelled expr hstar label hne => exact absurd hlabel hne
  case labelled =>
    intro col hcol hlabel
    rw [← h.columns] at hcol
    obtain ⟨t, -, rfl⟩ := List.mem_map.1 hcol
    cases t with
    | plain target => exact absurd rfl hlabel
    | labelled expr hstar label hne => exact ⟨expr.isPhrase, hstar⟩
  case labels => exact hlabels
  case table =>
    intro hne
    have hfrom := h.fromClause
    cases hs : s.fromClause with
    | none => rw [hs] at hfrom; exact absurd hfrom.1 hne
    | some f => rw [hs] at hfrom; exact hfrom.1 ▸ f.table.isPhrase
  case joinedTo =>
    intro hne
    have hfrom := h.fromClause
    cases hs : s.fromClause with
    | none => rw [hs] at hfrom; exact absurd hfrom.2 hne
    | some f => rw [hs] at hfrom; exact hfrom.1 ▸ f.table.isPhrase.nonempty
  case joins =>
    intro j hj
    have hcross := not_cross hcolumn h hyield j hj
    obtain ⟨p, hp⟩ := exists_requested h.joins j hj
    cases p with
    | cross table => exact absurd hp.1 hcross
    | qualified type _ table on =>
        refine ⟨hcross, hp.2.1 ▸ table.isPhrase, ?_⟩
        exact isPhrase_of_requested hp.2.2 (not_isEmpty_of_mem_joins hcolumn h hyield j hj)
  case whereCondition =>
    intro hwhere
    exact isPhrase_of_requested h.whereClause (not_isEmpty_of_mem_where hcolumn h hyield hwhere)
  case groupColumns =>
    intro col hcol
    rw [← h.groupBy] at hcol
    obtain ⟨e, -, rfl⟩ := List.mem_map.1 hcol
    exact e.isPhrase
  case sortColumns =>
    intro col hcol
    rw [← h.orderBy] at hcol
    obtain ⟨e, -, rfl⟩ := List.mem_map.1 hcol
    exact e.1.isPhrase
  case locks =>
    intro l hl
    rw [← h.locks] at hl
    obtain ⟨clause, -, hl⟩ := List.mem_flatMap.1 hl
    obtain ⟨t, -, rfl⟩ := List.mem_map.1 hl
    exact t.isPhrase
  case lockModes => exact lockModes_of_requests hcolumn h hyield
  case limit => exact limit_of_requests hcolumn h hyield

end

/-- A condition without empty ones is in the grammar, as it is written. -/
theorem exists_condition {t : ConnTree Comparison} (ht : t.Full)
    (h : ∀ a ∈ t.leaves, a.IsPhrase G) :
    ∃ c : StmtCondition G, ConditionRequested t (some c) ∧ c.yield = conditionWords t := by
  obtain ⟨e, hread, hagrees⟩ := Token.read_write t ht
  have hatoms : e.atoms = t.leaves := hagrees.atoms.trans (List.map_id _)
  have hkeep : ∀ a ∈ t.leaves, !a.isEmpty := by
    intro a ha
    simpa [Comparison.isEmpty] using (h a ha).column.nonempty
  have hprune := ConnTree.prune_eq_some (fun a => !a.isEmpty) t ht hkeep
  refine ⟨⟨Token.write t, e, hread, hatoms ▸ h⟩, ?_, rfl⟩
  simp only [ConditionRequested, hprune]
  exact hagrees

/-- A list of parts that are all in the grammar is a list of its phrases. -/
theorem exists_map_eq {α β : Type} {f : α → β} {bs : List β} (h : ∀ b ∈ bs, ∃ a, f a = b) :
    ∃ as : List α, as.map f = bs := by
  have hrange : bs ∈ Set.range (List.map f) := by
    rw [Set.range_list_map]
    exact h
  exact hrange

theorem exists_joins {js : List Join} (hfull : ∀ j ∈ js, j.condition.Full)
    (h : ∀ j ∈ js, j.type ≠ .crossJoin ∧ IsPhrase G .table j.table ∧
      ∀ a ∈ j.condition.leaves, a.IsPhrase G) :
    ∃ ps : List (StmtJoin G), List.Forall₂ StmtJoin.Requested js ps ∧
      ps.flatMap StmtJoin.yield = js.flatMap joinWordsBuilt := by
  induction js with
  | nil => exact ⟨[], .nil, rfl⟩
  | cons j js ih =>
      rw [List.forall_mem_cons] at hfull h
      obtain ⟨ps, hps, hyields⟩ := ih hfull.2 h.2
      obtain ⟨⟨hcross, htable, hleaves⟩, -⟩ := h
      obtain ⟨c, hc, hyield⟩ := exists_condition hfull.1 hleaves
      refine ⟨.qualified j.type hcross ⟨j.table, htable⟩ c :: ps, .cons ⟨rfl, rfl, hc⟩ hps, ?_⟩
      rw [List.flatMap_cons, List.flatMap_cons, hyields, StmtJoin.yield, hyield]
      rfl

theorem exists_from {r : SelectRequest} (h : r.Expressible G) :
    ∃ f : Option (FromClause G), FromRequested r f ∧
      (f.elim [] FromClause.joins).flatMap StmtJoin.yield = r.joinTrees.flatMap joinWordsBuilt := by
  by_cases htable : r.table = []
  · have hjoins : r.joins = [] := by
      by_contra hne
      exact h.joinedTo hne htable
    refine ⟨none, ⟨htable, hjoins⟩, ?_⟩
    rw [joinTrees, hjoins]
    rfl
  · obtain ⟨ps, hps, hyields⟩ := exists_joins full_of_mem_joinsFrom h.joins
    exact ⟨some ⟨⟨r.table, h.table htable⟩, ps⟩, ⟨rfl, hps⟩, hyields⟩

theorem exists_where {r : SelectRequest} (hcolumn : r.whereCondition.column = [])
    (h : r.Expressible G) :
    ∃ c : Option (StmtCondition G), ConditionRequested r.whereTree c ∧ whereYield c = r.whereWords := by
  cases hsub : r.whereCondition.hasSubConditions with
  | false =>
      obtain ⟨a, ha, htree⟩ := whereTree_of_not_hasSubConditions hsub hcolumn
      have hprune : (ConnTree.leaf a).prune (fun a => !a.isEmpty) = none := if_neg (by simp [ha])
      refine ⟨none, ?_, ?_⟩
      · simp only [ConditionRequested, htree, hprune]
      · rw [whereWords, hsub]
        rfl
  | true =>
      obtain ⟨c, hc, hyield⟩ := exists_condition (SqlCondition.toTree_full _ _) (h.whereCondition hsub)
      refine ⟨some c, hc, ?_⟩
      rw [whereWords, hsub]
      show kw "WHERE" ++ c.yield = kw "WHERE" ++ conditionWords r.whereTree
      rw [hyield]
      rfl

/-- Tables that are locked in one mode are locked by one clause. -/
theorem exists_locks {r : SelectRequest} (h : r.Expressible G) :
    ∃ ls : List (LockClause G),
      (ls.flatMap fun l => l.tables.map fun t => (t.text, l.noWait)) = r.locks ∧
        ls.flatMap LockClause.yield = r.lockWords := by
  by_cases hlocks : r.locks = []
  · refine ⟨[], hlocks.symm, ?_⟩
    rw [lockWords, hlocks]
    rfl
  · obtain ⟨last, hlast⟩ : ∃ last, r.locks.getLast? = some last :=
      ⟨_, List.getLast?_eq_some_getLast hlocks⟩
    have hphrases : ∀ l ∈ r.locks, ∃ t : Phrase G .relation, (t.text, last.2) = l := by
      intro l hl
      refine ⟨⟨l.1, h.locks l hl⟩, ?_⟩
      rw [h.lockModes last (List.mem_of_getLast? hlast) l hl]
    obtain ⟨tables, htables⟩ := exists_map_eq hphrases
    have hne : tables ≠ [] := by
      rintro rfl
      exact hlocks htables.symm
    refine ⟨[⟨tables, hne, last.2⟩], ?_, ?_⟩
    · rw [List.flatMap_singleton]
      exact htables
    · have hnonempty : (!r.locks.isEmpty) = true := by simpa using hlocks
      rw [List.flatMap_singleton, LockClause.yield, lockWords, if_pos hnonempty, hlast, ← htables,
        List.map_map]
      rfl

theorem exists_duplicates {r : SelectRequest} (h : r.Expressible G) :
    ∃ d : Duplicates G, d.asked = (r.distinct, r.distinctOn) ∧ (d ≠ .all → r.columns ≠ []) := by
  cases hdistinct : r.distinct with
  | true =>
      obtain ⟨hdistinctOn, hcolumns⟩ := h.distinct hdistinct
      exact ⟨.distinct, by rw [hdistinctOn]; rfl, fun _ => hcolumns⟩
  | false =>
      by_cases hdistinctOn : r.distinctOn = []
      · exact ⟨.all, by rw [hdistinctOn]; rfl, fun hne => absurd rfl hne⟩
      · obtain ⟨hphrase, hcolumns⟩ := h.distinctOn hdistinctOn
        exact ⟨.distinctOn ⟨r.distinctOn, hphrase⟩, rfl, fun _ => hcolumns⟩

theorem Expressible.exists_target {r : SelectRequest} (h : r.Expressible G) {col : QString × QString}
    (hcol : col ∈ r.columns) : ∃ t : StmtTarget G, t.asked = col := by
  obtain ⟨name, label⟩ := col
  by_cases hlabel : label = []
  · subst hlabel
    exact ⟨.plain ⟨name, h.columns _ hcol rfl⟩, rfl⟩
  · obtain ⟨hexpr, hstar⟩ := h.labelled _ hcol hlabel
    exact ⟨.labelled ⟨name, hexpr⟩ hstar label hlabel, rfl⟩

theorem Expressible.exists_requests {r : SelectRequest} (hcolumn : r.whereCondition.column = [])
    (h : r.Expressible G) : ∃ s : SelectStmt G, s.Requests r ∧ s.yield = r.builtWords := by
  obtain ⟨duplicates, hduplicates, hne⟩ := exists_duplicates h
  obtain ⟨fromClause, hfrom, hjoins⟩ := exists_from h
  obtain ⟨whereClause, hwhere, hwhereWords⟩ := exists_where hcolumn h
  obtain ⟨locks, hlocks, hlockWords⟩ := exists_locks h
  obtain ⟨targets, htargets⟩ := exists_map_eq fun col hcol => h.exists_target hcol
  obtain ⟨groupBy, hgroupBy⟩ := exists_map_eq (f := fun e : Phrase G .expr => e.text)
    fun col hcol => ⟨⟨col, h.groupColumns col hcol⟩, rfl⟩
  obtain ⟨orderBy, horderBy⟩ := exists_map_eq (f := fun e : Phrase G .expr × SortOrder => (e.1.text, e.2))
    fun col hcol => ⟨(⟨col.1, h.sortColumns col hcol⟩, col.2), rfl⟩
  have htargets_ne : duplicates ≠ .all → targets ≠ [] := by
    rintro hall rfl
    exact hne hall htargets.symm
  let s : SelectStmt G := ⟨duplicates, targets, htargets_ne, fromClause, whereClause, groupBy, orderBy,
    locks, r.limit.map fun l => (l.1.toNat, l.2.toNat)⟩
  have hs : s.Requests r := ⟨hduplicates, htargets, hfrom, hwhere, hgroupBy, horderBy, hlocks, rfl⟩
  have hlimit : s.limit.elim [] (fun l => limitWords l.1 l.2) = r.limitWordsBuilt := by
    show (r.limit.map fun l => (l.1.toNat, l.2.toNat)).elim [] _ = _
    rw [limitWordsBuilt]
    cases hr : r.limit with
    | none => rfl
    | some l =>
        show limitWords l.1.toNat l.2.toNat = if l.1 ≠ _ then _ else _
        rw [if_pos (h.limit l hr)]
  have hjoins : s.joins.flatMap StmtJoin.yield = r.joinTrees.flatMap joinWordsBuilt := hjoins
  have hwhereWords : whereYield s.whereClause = r.whereWords := hwhereWords
  have hlockWords : s.locks.flatMap LockClause.yield = r.lockWords := hlockWords
  refine ⟨s, hs, ?_⟩
  rw [hs.yield_eq, hjoins, hwhereWords, hlockWords, hlimit]
  rfl

theorem Expressible.namesClosed {r : SelectRequest} (h : r.Expressible G) : r.NamesClosed := by
  have hclosed : ∀ {s : QString}, (s ≠ [] → Closed s) → Closed s := by
    intro s hs
    by_cases hempty : s = []
    · rw [hempty]
      rfl
    · exact hs hempty
  have hleaves : ∀ {as : List Comparison}, (∀ a ∈ as, a.IsPhrase G) → ∀ a ∈ as, a.Closed :=
    fun has a ha => ⟨(has a ha).column.closed, (has a ha).closed⟩
  constructor
  case distinctOn => exact hclosed fun hne => (h.distinctOn hne).1.closed
  case columns =>
    intro col hcol
    by_cases hlabel : col.2 = []
    · exact (h.columns col hcol hlabel).closed
    · exact (h.labelled col hcol hlabel).1.closed
  case table => exact hclosed fun hne => (h.table hne).closed
  case joins => exact fun j hj => ⟨(h.joins j hj).2.1.closed, hleaves (h.joins j hj).2.2⟩
  case whereCondition => exact fun hsub => hleaves (h.whereCondition hsub)
  case groupColumns => exact fun col hcol => (h.groupColumns col hcol).closed
  case sortColumns => exact fun col hcol => (h.sortColumns col hcol).closed
  case locks => exact fun l hl => (h.locks l hl).closed

end SelectRequest

section
variable [CaseFolding]

/-- The text of the builder is a sentence with exactly the clauses that are asked
for, and no name in it is cut off by a quote or a comment. -/
def ReadAsRequested (G : Phrases) (db : QString) (calls : List Addition) : Prop :=
  (SelectRequest.of calls).NamesClosed ∧
    ∃ s : SelectStmt G, s.Requests (.of calls) ∧
      s.yield = lexemes (SqlSelectQueryBuilder.after db calls).toString.1.toQString

theorem ReadAsRequested.expressible {db : QString} {calls : List Addition}
    (h : ReadAsRequested G db calls) : (SelectRequest.of calls).Expressible G := by
  obtain ⟨hnames, s, hs, hyield⟩ := h
  have hholds := holds_after db calls
  have hfront := hyield
  rw [hs.yield_eq, SelectRequest.lexemes_toString hholds hnames] at hfront
  have hlabels := SelectRequest.labels_plain hnames.columns
    (List.append_cancel_left (List.append_cancel_left hfront)).symm
  rw [SelectRequest.lexemes_toString_of_plain hholds hnames hlabels] at hyield
  exact .of_requests hholds.whereColumn hlabels hs hyield

/-- **Which SELECT builders say what was asked for.** -/
theorem readAsRequested_iff (G : Phrases) (db : QString) (calls : List Addition) :
    ReadAsRequested G db calls ↔ (SelectRequest.of calls).Expressible G := by
  refine ⟨ReadAsRequested.expressible, ?_⟩
  intro h
  have hholds := holds_after db calls
  obtain ⟨s, hs, hyield⟩ := h.exists_requests hholds.whereColumn
  have hlabels : ∀ col ∈ (SelectRequest.of calls).columns, SqlLexer.doubleQuote ∉ col.2 :=
    h.labels
  refine ⟨h.namesClosed, s, hs, ?_⟩
  rw [hyield, SelectRequest.lexemes_toString_of_plain hholds h.namesClosed hlabels]

end

/-- A column, a table, and a CROSS JOIN without a condition. -/
def crossJoined : List Addition :=
  [⟨.addColumn (latin1 "a") [], nofun⟩, ⟨.conditional (.setTable (latin1 "t")), nofun⟩,
    ⟨.addJoin .crossJoin (latin1 "u") .and [], nofun⟩]

/-- Whatever may be a part of a statement, this text is not what was asked for. -/
theorem not_readAsRequested_crossJoined :
    let _ : CaseFolding := .ascii
    (SqlSelectQueryBuilder.after [] crossJoined).toString.1.toQString =
        latin1 "SELECT a FROM t CROSS JOIN u ON  = NULL"
      ∧ ¬ ReadAsRequested (fun _ _ => True) [] crossJoined := by
  intro _
  refine ⟨by decide, ?_⟩
  intro h
  exact (h.expressible.joins _ (List.mem_singleton_self _)).1 rfl

end Sqlate
