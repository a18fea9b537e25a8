/-
Sqlate/SelectServer.lean

SELECT on the side of the server.

`SelectQuery.read` reads the words of a statement, as far as it is the library that writes it.
A `Plan` is what a SELECT asks for: where its rows come from, which of them are taken, and
what is shown of them, as functions on rows; `Plan.answer` carries it out.  Rows of several
tables side by side are a `Joined`; of a table that has no row there, all columns are NULL.

Names of columns have their table in front, and a table occurs once.  A condition with IS or
IS NOT before anything but NULL is refused, as one with a name that is not known.  Columns have
no types, and every kind of join takes every condition.  With GROUP BY and with
DISTINCT, rows are shown and sorted by what they have in common; tables are locked if every
row that is found has one of each.  What has no order is found in the order of the tables.
-/
import Mathlib.Data.List.Sort
import Sqlate.NullTests

namespace Sqlate

open Reader (Inverts Sound Reads)

/-! ### Columns of several tables -/

/-- The column that a word with the table in front refers to. -/
def qualifiedColumn (table w : QString) : Option QString :=
  let qualifier := lower table ++ latin1 "."
  if isName w && qualifier.isPrefixOf (lower w) && isPlainName (w.drop qualifier.length) then
    some (lower w)
  else none

theorem isName_of_qualifiedColumn {table w c : QString} (h : qualifiedColumn table w = some c) :
    isName w = true := by
  simp only [qualifiedColumn, Bool.and_eq_true, Option.ite_none_right_eq_some] at h
  exact h.1.1.1

def Scope.tables (tables : List QString) : Scope where
  column w := tables.findSome? fun table => qualifiedColumn table w
  isName_of_column := fun {w c} h => by
    obtain ⟨table, -, hcolumn⟩ := List.exists_of_findSome?_eq_some h
    exact isName_of_qualifiedColumn hcolumn

/-- Rows of several tables side by side, each with the name of its table. -/
abbrev Joined := List (QString × Record)

/-- What all the columns hold. -/
def Joined.record (x : Joined) : Record := fun c =>
  (x.findSome? fun y =>
    let qualifier := y.1 ++ latin1 "."
    if qualifier.isPrefixOf c then some (y.2 (c.drop qualifier.length)) else none).getD .invalid

/-! ### Plans -/

structure PlanJoin where
  type : JoinType
  table : QString
  on : Joined → Bool

/-- What a SELECT asks for. -/
structure Plan where
  distinct : Bool
  /-- The columns of the result, with their names. -/
  targets : List (QString × (Joined → QVariant))
  table : QString
  joins : List PlanJoin
  condition : Joined → Bool
  groupBy : List (Joined → QVariant)
  orderBy : List ((Joined → QVariant) × SortOrder)
  /-- Offset and length. -/
  limit : Option (Nat × Nat)

/-- The result of a SELECT. -/
structure Answer where
  columns : List QString
  rows : List (List QVariant)
  deriving DecidableEq, Repr

/-- What the server brings along for SELECT. -/
structure QueryServer extends Server where
  /-- IS NOT DISTINCT FROM. -/
  same : QVariant → QVariant → Bool
  /-- The order of ORDER BY, in which NULL is the last value. -/
  before : QVariant → QVariant → Bool

def JoinType.keepsLeft : JoinType → Bool
  | leftOuterJoin | fullOuterJoin => true
  | _ => false

def JoinType.keepsRight : JoinType → Bool
  | rightOuterJoin | fullOuterJoin => true
  | _ => false

/-- The rows of a join: pairs that match, and those without a match that are kept. -/
def joinRows (type : JoinType) (on : Joined → Bool) (xs ys : List Joined) : List Joined :=
  let withMatches x :=
    let found := (ys.filter fun y => on (x ++ y)).map (x ++ ·)
    -- the columns of the other table are NULL then
    if found.isEmpty && type.keepsLeft then [x] else found
  xs.flatMap withMatches
    ++ if type.keepsRight then ys.filter fun y => !xs.any fun x => on (x ++ y) else []

namespace QueryServer
variable (S : QueryServer)

/-- The rows of a table and of those that inherit from it. -/
def tableRows (rows : Rows) (table : QString) : List Joined :=
  (rows.filter fun x => S.concerns false table x.1).map fun x => [(table, x.2)]

/-- By the first column that tells them apart. -/
def precedes : List ((Joined → QVariant) × SortOrder) → Joined → Joined → Bool
  | [], _, _ => true
  | (f, order) :: fs, x, y =>
      if S.same (f x) (f y) then precedes fs x y
      else
        match order with
        | .ascendingOrder => S.before (f x) (f y)
        | .descendingOrder => S.before (f y) (f x)

end QueryServer

namespace Plan
variable (S : QueryServer) (rows : Rows) (p : Plan)

/-- The rows of all tables side by side. -/
def joined : List Joined :=
  p.joins.foldl (fun xs j => joinRows j.type j.on xs (S.tableRows rows j.table)) (S.tableRows rows p.table)

/-- One row of each group. -/
def grouped (xs : List Joined) : List Joined :=
  if p.groupBy.isEmpty then xs
  else xs.eraseDupsBy fun x y => p.groupBy.all fun f => S.same (f x) (f y)

/-- The values that are shown. -/
def shown (xs : List Joined) : List (List QVariant) :=
  let values := xs.map fun x => p.targets.map fun t => t.2 x
  if p.distinct then values.eraseDupsBy fun vs ws => (vs.zip ws).all fun x => S.same x.1 x.2 else values

def limited (values : List (List QVariant)) : List (List QVariant) :=
  p.limit.elim values fun l => (values.drop l.1).take l.2

/-- **What a SELECT answers.** -/
def answer : Answer where
  columns := p.targets.map Prod.fst
  rows :=
    let found := p.grouped S ((p.joined S rows).filter p.condition)
    p.limited (p.shown S (found.insertionSort fun x y => S.precedes p.orderBy x y))

end Plan

/-! ### What may be asked for -/

/-- The names in a SELECT. -/
structure SelectNames where
  tables : List QString
  joinTypes : List JoinType
  distinct : Bool
  columns : List QString
  groupColumns : List QString
  sortColumns : List QString
  locks : List QString

/-- All of the names are among others. -/
def allAmong (names others : List QString) : Bool :=
  names.all fun w => (others.map lower).contains (lower w)

def SelectNames.allowed (n : SelectNames) : Bool :=
  distinctNames (n.tables.map lower)
    && (n.columns ++ n.groupColumns ++ n.sortColumns).all (isColumn (.tables n.tables))
    && (n.groupColumns.isEmpty || allAmong (n.columns ++ n.sortColumns) n.groupColumns)
    && (!n.distinct || allAmong n.sortColumns n.columns)
    && (n.locks.isEmpty || (allAmong n.locks n.tables && !n.distinct && n.groupColumns.isEmpty
      && n.joinTypes.all (· = .innerJoin)))

/-- The value of a column. -/
def columnValueOf (tables : List QString) (w : QString) (x : Joined) : QVariant :=
  Server.columnValue (.tables tables) x.record w

/-- The name of a column in the result: the label, or what is behind the table. -/
def columnLabel (column label : QString) : QString :=
  if label.isEmpty then lower (column.dropWhile fun c => c ≠ QChar.ofChar '.').tail else label

/-! ### Statements -/

/-- A word that names something. -/
structure NameWord where
  text : QString
  isName : isName text
  deriving DecidableEq, Repr

namespace NameWord

def ofWord (w : QString) : Option NameWord := if h : Sqlate.isName w then some ⟨w, h⟩ else none

def read : Reader QString NameWord := Reader.one ofWord

end NameWord

/-- A column of the result, and its name. -/
abbrev Target := NameWord × Option NameWord

def targetYield (t : Target) : List QString :=
  [t.1.text] ++ t.2.elim [] fun label => latin1 "AS" :: (kw "\"" ++ [label.text] ++ kw "\"")

def readLabel : Reader QString NameWord := do
  Reader.words (kw "\"")
  let label ← NameWord.read
  Reader.words (kw "\"")
  return label

def readTarget : Reader QString Target := do
  let column ← NameWord.read
  let label ← Reader.optional (latin1 "AS") readLabel
  return (column, label)

abbrev SortColumn := NameWord × SortOrder

def sortYield (c : SortColumn) : List QString := [c.1.text] ++ orderWords c.2

def readSortColumn : Reader QString SortColumn := do
  let column ← NameWord.read
  let order ← Reader.byWord
    [(latin1 "ASC", return .ascendingOrder), (latin1 "DESC", return .descendingOrder)]
  return (column, order)

structure QueryJoin where
  type : JoinType
  table : PlainName
  on : ConnExpr ReadComparison

/-- A SELECT. -/
structure SelectQuery where
  distinct : Bool
  targets : List Target
  table : PlainName
  joins : List QueryJoin
  condition : Option (ConnExpr ReadComparison)
  groupBy : List NameWord
  orderBy : List SortColumn
  /-- The tables that are locked. -/
  locks : List PlainName
  limit : Option (Nat × Nat)

def joinStarts : List QString := ["INNER", "LEFT", "RIGHT", "FULL"].map latin1

/-- The words behind a condition. -/
def clauseWords : List QString := joinStarts ++ ["WHERE", "GROUP", "ORDER", "FOR", "OFFSET"].map latin1

namespace SelectQuery

def readCondition : Reader QString (ConnExpr ReadComparison) :=
  Reader.upTo clauseWords.contains conditionGrammar.read

/-- A join behind the first of its words. -/
def readJoinOf (type : JoinType) : Reader QString QueryJoin := do
  Reader.words (joinWords type).tail
  let table ← PlainName.read
  Reader.words (kw "ON")
  let on ← readCondition
  return ⟨type, table, on⟩

def readJoin : Reader QString QueryJoin :=
  Reader.byWord
    [(latin1 "INNER", readJoinOf .innerJoin), (latin1 "LEFT", readJoinOf .leftOuterJoin),
      (latin1 "RIGHT", readJoinOf .rightOuterJoin), (latin1 "FULL", readJoinOf .fullOuterJoin)]

/-- A list behind BY. -/
def readBy {α : Type} (r : Reader QString α) : Reader QString (α × List α) := do
  Reader.words (kw "BY")
  Reader.separated (latin1 ",") r

/-- FOR UPDATE OF, behind FOR; the server waits for the locks, or it does not. -/
def readLocks : Reader QString (PlainName × List PlainName) := do
  Reader.words (kw "UPDATE" ++ kw "OF")
  let tables ← Reader.separated (latin1 ",") PlainName.read
  Reader.ifNext (latin1 "NOWAIT") (return tables) (return tables)

def readLimit : Reader QString (Nat × Nat) := do
  let offset ← Reader.one numberOfLexeme
  Reader.words (kw "LIMIT")
  let length ← Reader.one numberOfLexeme
  return (offset, length)

/-- The values of a list that may be left out. -/
def listed {α : Type} (list : Option (α × List α)) : List α := list.elim [] fun x => x.1 :: x.2

def reader : Reader QString SelectQuery := do
  Reader.words (kw "SELECT")
  let distinct ← Reader.ifNext (latin1 "DISTINCT") (return true) (return false)
  let targets ← Reader.separated (latin1 ",") readTarget
  Reader.words (kw "FROM")
  let table ← PlainName.read
  let joins ← Reader.many (fun ls => !ls.head?.any joinStarts.contains) readJoin
  let condition ← Reader.optional (latin1 "WHERE") readCondition
  let groupBy ← Reader.optional (latin1 "GROUP") (readBy NameWord.read)
  let orderBy ← Reader.optional (latin1 "ORDER") (readBy readSortColumn)
  let locks ← Reader.optional (latin1 "FOR") readLocks
  let limit ← Reader.optional (latin1 "OFFSET") readLimit
  return { distinct, targets := targets.1 :: targets.2, table, joins, condition,
           groupBy := listed groupBy, orderBy := listed orderBy, locks := listed locks, limit }

/-- The statement that the words are, if they are one. -/
def read (ws : List QString) : Option SelectQuery := Reader.whole reader ws

/-! ### What a statement asks for -/

variable (S : QueryServer) (parameters : Parameters) (q : SelectQuery)

def tables : List QString := q.table.text :: q.joins.map fun j => j.table.text

/-- The joins, behind some tables; a condition sees the tables up to its own. -/
def planJoins : List QString → List QueryJoin → List PlanJoin
  | _, [] => []
  | before, j :: js =>
      let here := before ++ [j.table.text]
      ⟨j.type, j.table.folded,
          fun x => j.on.eval (S.truth parameters (.tables here) x.record) = .true⟩
        :: planJoins here js

/-- The comparisons of a condition are those of the grammar, between columns and values. -/
def conditionAccepted (scope : Scope) (condition : Option (ConnExpr ReadComparison)) : Bool :=
  condition.all fun e => e.atoms.all fun a => a.isSql && a.resolves scope

def joinsResolve : List QString → List QueryJoin → Bool
  | _, [] => true
  | before, j :: js =>
      let here := before ++ [j.table.text]
      conditionAccepted (.tables here) (some j.on) && joinsResolve here js

def plan : Plan where
  distinct := q.distinct
  targets := q.targets.map fun t =>
    (columnLabel t.1.text (t.2.elim [] NameWord.text), columnValueOf q.tables t.1.text)
  table := q.table.folded
  joins := planJoins S parameters [q.table.text] q.joins
  condition x := q.condition.all fun e => e.eval (S.truth parameters (.tables q.tables) x.record) = .true
  groupBy := q.groupBy.map fun c => columnValueOf q.tables c.text
  orderBy := q.orderBy.map fun c => (columnValueOf q.tables c.1.text, c.2)
  limit := q.limit

def names : SelectNames where
  tables := q.tables
  joinTypes := q.joins.map QueryJoin.type
  distinct := q.distinct
  columns := q.targets.map fun t => t.1.text
  groupColumns := q.groupBy.map NameWord.text
  sortColumns := q.orderBy.map fun c => c.1.text
  locks := q.locks.map PlainName.text

/-- All names are known, and all comparisons are. -/
def resolves : Bool :=
  q.names.allowed && joinsResolve [q.table.text] q.joins && conditionAccepted (.tables q.tables) q.condition

end SelectQuery

/-- A prepared SELECT is executed; what is none, or names what is not there, is refused. -/
def QueryServer.query (S : QueryServer) (r : QSqlResult) (rows : Rows) : Option Answer :=
  (SelectQuery.read (words r.lastQuery)).bind fun q =>
    if q.resolves then some ((q.plan S r.boundValue).answer S rows) else none

/-! ### Reading -/

theorem NameWord.inverts : Inverts NameWord.read (fun n => [n.text]) fun _ => True := by
  apply Inverts.one
  intro w n
  rw [NameWord.ofWord]
  constructor
  · intro h
    split_ifs at h
    rw [← Option.some.inj h]
  · rintro rfl
    exact dif_pos n.isName

/-- No name is a mark. -/
theorem NameWord.text_ne (n : NameWord) {w : QString} (hw : Sqlate.isName w = false) : n.text ≠ w := by
  rintro rfl
  exact absurd (n.isName.symm.trans hw) nofun

theorem readTarget_inverts :
    Inverts readTarget targetYield fun rest => rest.head? ≠ some (latin1 "AS") := by
  have hlabel : Inverts readLabel (fun label => kw "\"" ++ [label.text] ++ kw "\"") fun _ => True := by
    constructor
    · apply Sound.words
      apply Sound.bind NameWord.inverts.sound
      intro label
      apply Sound.words
      exact Sound.pure rfl
    · intro label
      rw [List.append_assoc]
      apply Reads.words
      apply Reads.bind (NameWord.inverts.reads label) _ fun _ _ => trivial
      exact Reads.words_pure
  constructor
  · apply Sound.bind NameWord.inverts.sound
    intro column
    have hoptional : Sound (fun label : Option NameWord => label.elim [] fun label =>
        latin1 "AS" :: (kw "\"" ++ [label.text] ++ kw "\"")) [] (Reader.optional (latin1 "AS") readLabel) := by
      apply Sound.ifNext
      · apply Sound.bind (fun _ _ _ h => hlabel.sound h)
        intro label
        exact Sound.pure rfl
      · exact Sound.pure rfl
    apply Sound.bind hoptional
    intro label
    exact Sound.pure rfl
  · rintro ⟨column, label⟩
    apply Reads.bind (NameWord.inverts.reads column) _ fun _ _ => trivial
    have hoptional := Reads.optional (w := latin1 "AS") (f := id) (o := label) fun l _ => hlabel.reads l
    rw [Option.map_id] at hoptional
    exact Reads.bind_pure hoptional rfl fun _ hrest => ⟨hrest, trivial⟩

theorem readSortColumn_inverts : Inverts readSortColumn sortYield fun _ => True := by
  have horder : Inverts (Reader.byWord
      [(latin1 "ASC", return SortOrder.ascendingOrder), (latin1 "DESC", return .descendingOrder)])
      orderWords fun _ => True := by
    constructor
    · apply Sound.byWord
      simp only [List.forall_mem_cons, List.not_mem_nil, false_implies, implies_true, and_true]
      exact ⟨Sound.pure rfl, Sound.pure rfl⟩
    · intro order
      cases order with
      | ascendingOrder => exact Reads.byWord rfl Reads.pure
      | descendingOrder => exact Reads.byWord rfl Reads.pure
  constructor
  · apply Sound.bind NameWord.inverts.sound
    intro column
    apply Sound.bind horder.sound
    intro order
    exact Sound.pure rfl
  · rintro ⟨column, order⟩
    apply Reads.bind (NameWord.inverts.reads column) _ fun _ _ => trivial
    exact Reads.bind_pure (horder.reads order) rfl fun _ _ => trivial

/-- A clause with its words, or nothing. -/
def clause {ι : Type} (w : String) (write : ι → List QString) (o : Option ι) : List QString :=
  o.elim [] fun i => latin1 w :: write i

/-- A text begins with one of some words, if it is not empty. -/
def HeadIn (ws ls : List QString) : Prop := ∀ w ∈ ls.head?, w ∈ ws

theorem HeadIn.ne {ws ls : List QString} (h : HeadIn ws ls) {w : QString} (hw : w ∉ ws) :
    ls.head? ≠ some w := fun hhead => hw (h w hhead)

theorem HeadIn.nil : HeadIn [] [] := fun _ hw => by cases hw

theorem HeadIn.subset {ws vs ls : List QString} (h : HeadIn ws ls) (hsub : ws ⊆ vs) : HeadIn vs ls :=
  fun w hw => hsub (h w hw)

theorem HeadIn.not_joinStart {ws ls : List QString} (h : HeadIn ws ls) (hws : ∀ w ∈ ws, w ∉ joinStarts) :
    (!ls.head?.any joinStarts.contains) = true := by
  cases hhead : ls.head? with
  | none => rfl
  | some w => simp [hws w (h w hhead)]

theorem HeadIn.clause {ws rest : List QString} (h : HeadIn ws rest) (w : String) {ι : Type}
    (write : ι → List QString) (o : Option ι) : HeadIn (latin1 w :: ws) (clause w write o ++ rest) := by
  cases o with
  | none => exact fun v hv => List.mem_cons_of_mem _ (h v hv)
  | some i =>
      intro v hv
      obtain rfl : latin1 w = v := Option.some.inj hv
      exact List.mem_cons_self

/-- The words of a condition, and no others. -/
structure IsCondition (ws : List QString) (e : ConnExpr ReadComparison) : Prop where
  read : conditionGrammar.read ws = some e
  inside : ∀ w ∈ ws, w ∉ clauseWords

theorem IsCondition.reads {ws : List QString} {e : ConnExpr ReadComparison} (h : IsCondition ws e) :
    Reads ws e (HeadIn clauseWords) SelectQuery.readCondition := by
  have hinside : ∀ w ∈ ws, clauseWords.contains w = false := by
    intro w hw
    rw [← Bool.not_eq_true, List.contains_iff_mem]
    exact h.inside w hw
  intro rest hrest
  exact Reads.upTo h.read hinside fun w hw => List.contains_iff_mem.2 (hrest w hw)

/-- The words of a join. -/
inductive IsJoin : List QString → QueryJoin → Prop
  | mk {type : JoinType} (htype : type ≠ .crossJoin) (table : PlainName) {ws : List QString}
      {e : ConnExpr ReadComparison} (h : IsCondition ws e) :
      IsJoin (joinWords type ++ ([table.text] ++ (kw "ON" ++ ws))) ⟨type, table, e⟩

theorem IsJoin.reads {ws : List QString} {j : QueryJoin} (h : IsJoin ws j) :
    Reads ws j (HeadIn clauseWords) SelectQuery.readJoin := by
  obtain ⟨htype, table, hcondition⟩ := h
  have hbehind : ∀ {type : JoinType} {ws e}, IsCondition ws e →
      Reads ((joinWords type).tail ++ ([table.text] ++ (kw "ON" ++ ws))) ⟨type, table, e⟩
        (HeadIn clauseWords) (SelectQuery.readJoinOf type) := by
    intro type ws e h
    apply Reads.words
    apply Reads.bind (PlainName.inverts.reads table) _ fun _ _ => trivial
    apply Reads.words
    exact Reads.bind_pure h.reads rfl fun _ hrest => hrest
  cases ‹JoinType› with
  | innerJoin => exact Reads.byWord rfl (hbehind hcondition)
  | leftOuterJoin => exact Reads.byWord rfl (hbehind hcondition)
  | rightOuterJoin => exact Reads.byWord rfl (hbehind hcondition)
  | fullOuterJoin => exact Reads.byWord rfl (hbehind hcondition)
  | crossJoin => exact absurd rfl htype

/-- A join begins with a word of its own. -/
theorem IsJoin.head {ws : List QString} {j : QueryJoin} (h : IsJoin ws j) (ls : List QString) :
    ∃ w ∈ joinStarts, (ws ++ ls).head? = some w := by
  obtain ⟨htype, table, -⟩ := h
  cases ‹JoinType› with
  | crossJoin => exact absurd rfl htype
  | _ => exact ⟨_, by decide, rfl⟩

namespace SelectQuery

theorem reads_by {α : Type} {r : Reader QString α} {write : α → List QString}
    {follow : List QString → Prop} (h : Inverts r write follow)
    (hcomma : ∀ ls, follow (latin1 "," :: ls)) (x : α × List α) :
    Reads (kw "BY" ++ commaSeparated ((x.1 :: x.2).map write)) x
      (fun rest => rest.head? ≠ some (latin1 ",") ∧ follow rest) (readBy r) := by
  apply Reads.words
  exact (h.separated (latin1 ",") hcomma).reads x

theorem reads_locks (x : PlainName × List PlainName) (noWait : Bool) :
    Reads ((kw "UPDATE" ++ kw "OF") ++ (commaSeparated ((x.1 :: x.2).map fun t => [t.text])
        ++ if noWait then kw "NOWAIT" else [])) x
      (fun rest => rest.head? ≠ some (latin1 ",") ∧ rest.head? ≠ some (latin1 "NOWAIT")) readLocks := by
  have htables := PlainName.inverts.separated (latin1 ",") fun _ => trivial
  apply Reads.words
  apply Reads.bind (htables.reads x)
  · cases noWait with
    | true => exact Reads.ifNext_word Reads.pure
    | false => exact Reads.ifNext_other Reads.pure fun _ hrest => hrest.2
  · intro rest hrest
    cases noWait with
    | true => exact ⟨fun hhead => absurd (Option.some.inj hhead) (by decide), trivial⟩
    | false => exact ⟨hrest.1, trivial⟩

theorem reads_limit (l : Nat × Nat) :
    Reads ([QString.number l.1] ++ (kw "LIMIT" ++ [QString.number l.2])) l (fun _ => True) readLimit := by
  have hnumber := Inverts.one numberOfLexeme_eq_some_iff
  apply Reads.bind (hnumber.reads l.1) _ fun _ _ => trivial
  apply Reads.words
  exact Reads.bind_pure (hnumber.reads l.2) rfl fun _ _ => trivial

/-- A SELECT clause by clause, with the words of its conditions. -/
structure Clauses where
  distinct : Bool
  target : Target
  targets : List Target
  table : PlainName
  joins : List (List QString × QueryJoin)
  condition : Option (List QString × ConnExpr ReadComparison)
  groupBy : Option (NameWord × List NameWord)
  orderBy : Option (SortColumn × List SortColumn)
  /-- The tables that are locked, and whether not to wait for the locks. -/
  locks : Option ((PlainName × List PlainName) × Bool)
  limit : Option (Nat × Nat)

namespace Clauses

def tailYield (c : Clauses) : List QString :=
  clause "GROUP" (fun x => kw "BY" ++ commaSeparated ((x.1 :: x.2).map fun n => [n.text])) c.groupBy
    ++ (clause "ORDER" (fun x => kw "BY" ++ commaSeparated ((x.1 :: x.2).map sortYield)) c.orderBy
    ++ (clause "FOR" (fun x => (kw "UPDATE" ++ kw "OF")
        ++ (commaSeparated ((x.1.1 :: x.1.2).map fun t => [t.text]) ++ if x.2 then kw "NOWAIT" else []))
        c.locks
    ++ clause "OFFSET" (fun l => [QString.number l.1] ++ (kw "LIMIT" ++ [QString.number l.2])) c.limit))

def yield (c : Clauses) : List QString :=
  kw "SELECT" ++ ((if c.distinct then kw "DISTINCT" else [])
    ++ (commaSeparated ((c.target :: c.targets).map targetYield) ++ (kw "FROM" ++ ([c.table.text]
    ++ (c.joins.flatMap Prod.fst ++ (clause "WHERE" Prod.fst c.condition ++ c.tailYield))))))

def query (c : Clauses) : SelectQuery where
  distinct := c.distinct
  targets := c.target :: c.targets
  table := c.table
  joins := c.joins.map Prod.snd
  condition := c.condition.map Prod.snd
  groupBy := listed c.groupBy
  orderBy := listed c.orderBy
  locks := listed (c.locks.map Prod.fst)
  limit := c.limit

structure WellFormed (c : Clauses) : Prop where
  /-- Else it would be the key word. -/
  target : c.target.1.text ≠ latin1 "DISTINCT"
  joins : ∀ x ∈ c.joins, IsJoin x.1 x.2
  condition : ∀ x ∈ c.condition, IsCondition x.1 x.2

end Clauses

theorem reads_distinct (distinct : Bool) :
    Reads (if distinct then kw "DISTINCT" else []) distinct
      (fun rest => rest.head? ≠ some (latin1 "DISTINCT"))
      (Reader.ifNext (latin1 "DISTINCT") (return true) (return false)) := by
  cases distinct with
  | true => exact Reads.ifNext_word Reads.pure
  | false => exact Reads.ifNext_other Reads.pure fun _ hrest => hrest

theorem reads_joins {us : List (List QString × QueryJoin)} (h : ∀ x ∈ us, IsJoin x.1 x.2) :
    Reads (us.flatMap Prod.fst) (us.map Prod.snd)
      (fun rest => (!rest.head?.any joinStarts.contains) = true ∧ HeadIn clauseWords rest)
      (Reader.many (fun ls => !ls.head?.any joinStarts.contains) readJoin) := by
  apply Reads.many
  · exact fun x hx => (h x hx).reads
  · intro x hx ls
    obtain ⟨w, hw, hhead⟩ := (h x hx).head ls
    rw [hhead, Option.any_some, List.contains_iff_mem.2 hw]
    rfl
  · intro x hx ls v hv
    obtain ⟨w, hw, hhead⟩ := (h x hx).head ls
    obtain rfl : w = v := Option.some.inj (hhead.symm.trans hv)
    exact List.mem_append_left _ hw

/-- A clause in front of those that may come behind it. -/
theorem reads_clause {α β ι : Type} {w : String} {write : ι → List QString} {o : Option ι} {f : ι → α}
    {r : Reader QString α} {k : Option α → Reader QString β} {follow : List QString → Prop}
    {ws u : List QString} {b : β} (hr : ∀ i ∈ o, Reads (write i) (f i) follow r)
    (hk : Reads u b (fun rest => rest = []) (k (o.map f))) (hu : HeadIn ws u) (hw : latin1 w ∉ ws)
    (hfollow : ∀ ls, HeadIn ws ls → follow ls) :
    Reads (clause w write o ++ u) b (fun rest => rest = []) (Reader.optional (latin1 w) r >>= k) := by
  apply Reads.bind (Reads.optional hr) hk
  rintro _ rfl
  rw [List.append_nil]
  exact ⟨hu.ne hw, hfollow u hu⟩

/-- **A SELECT is read.** -/
theorem read_yield {c : Clauses} (h : c.WellFormed) : read c.yield = some c.query := by
  obtain ⟨htarget, hjoins, hcondition⟩ := h
  -- which words the clauses from each one on can begin with
  have hlimit := HeadIn.nil.clause "OFFSET"
    (fun l : Nat × Nat => [QString.number l.1] ++ (kw "LIMIT" ++ [QString.number l.2])) c.limit
  rw [List.append_nil] at hlimit
  have hlocks := hlimit.clause "FOR" (fun x : (PlainName × List PlainName) × Bool =>
    (kw "UPDATE" ++ kw "OF") ++ (commaSeparated ((x.1.1 :: x.1.2).map fun t => [t.text])
      ++ if x.2 then kw "NOWAIT" else [])) c.locks
  have horder := hlocks.clause "ORDER" (fun x : SortColumn × List SortColumn =>
    kw "BY" ++ commaSeparated ((x.1 :: x.2).map sortYield)) c.orderBy
  have hgroup := horder.clause "GROUP" (fun x : NameWord × List NameWord =>
    kw "BY" ++ commaSeparated ((x.1 :: x.2).map fun n => [n.text])) c.groupBy
  have hwhere := hgroup.clause "WHERE" Prod.fst c.condition
  have htargets := readTarget_inverts.separated (latin1 ",") fun _ hhead =>
    absurd (Option.some.inj hhead) (by decide)
  apply Reads.whole
  apply Reads.words
  apply Reads.bind (reads_distinct c.distinct)
  · apply Reads.bind (htargets.reads (c.target, c.targets))
    · apply Reads.words
      apply Reads.bind (PlainName.inverts.reads c.table) _ fun _ _ => trivial
      apply Reads.bind (reads_joins hjoins)
      · refine reads_clause (fun x hx => (hcondition x hx).reads) ?_ hgroup (by decide)
          fun _ hls => hls.subset (by decide)
        refine reads_clause (f := id) (fun x _ => reads_by NameWord.inverts (fun _ => trivial) x) ?_ horder
          (by decide) fun _ hls => ⟨hls.ne (by decide), trivial⟩
        refine reads_clause (f := id) (fun x _ => reads_by readSortColumn_inverts (fun _ => trivial) x) ?_
          hlocks (by decide) fun _ hls => ⟨hls.ne (by decide), trivial⟩
        refine reads_clause (fun x _ => reads_locks x.1 x.2) ?_ hlimit (by decide)
          fun _ hls => ⟨hls.ne (by decide), hls.ne (by decide)⟩
        refine Reads.bind_pure (Reads.optional (f := id) fun l _ => reads_limit l) ?_ ?_
        · simp only [Option.map_id, id_eq]
          rfl
        · rintro _ rfl
          exact ⟨nofun, trivial⟩
      · rintro _ rfl
        rw [List.append_nil]
        exact ⟨hwhere.not_joinStart (by decide), hwhere.subset (by decide)⟩
    · intro rest _
      exact ⟨fun hhead => absurd (Option.some.inj hhead) (by decide),
        fun hhead => absurd (Option.some.inj hhead) (by decide)⟩
  · intro rest _ hhead
    apply htarget
    have hfirst : commaSeparated ((c.target :: c.targets).map targetYield)
        = targetYield c.target ++ c.targets.flatMap fun t => [latin1 ","] ++ targetYield t :=
      Reader.intercalate_map_cons _ _ _
    rw [hfirst] at hhead
    exact Option.some.inj hhead

end SelectQuery

end Sqlate
