/-
Sqlate/UnionGrammar.lean

The grammar of PostgreSQL's UNION.

A set operation combines operands from left to right.  An operand is a SELECT
without ORDER BY, locks and limit, or a whole statement in parentheses; these
clauses at the end of a statement are over everything in front of them.  A
parse tree is therefore a `SetClause` with the `Tail` of the whole, and
`withTail` is the query it stands for.

The parts of the caller have brackets that match, and the word UNION only
inside of them (`Phrases.Enclosed`).  Then the words UNION of a sentence that
are outside of brackets are those of its tree (`SetClause.scan_yield`).
-/
import Sqlate.Base.Brackets
import Sqlate.SelectBalance

namespace Sqlate

open SqlLexer (lexemes)

variable {G : Phrases}

/-! ### Parse trees -/

/-- The clauses at the end of a statement. -/
structure Tail (G : Phrases) where
  orderBy : List (Phrase G .expr × SortOrder)
  locks : List (LockClause G)
  limit : Option (Nat × Nat)

namespace Tail

def none : Tail G := ⟨[], [], .none⟩

def isNone (tail : Tail G) : Bool :=
  tail.orderBy.isEmpty && tail.locks.isEmpty && tail.limit.isNone

def yield (tail : Tail G) : List QString :=
  (if tail.orderBy.isEmpty then []
    else kw "ORDER" ++ kw "BY"
      ++ commaSeparated (tail.orderBy.map fun e => lexemes e.1.text ++ orderWords e.2))
    ++ tail.locks.flatMap LockClause.yield
    ++ tail.limit.elim [] fun l => limitWords l.1 l.2

theorem isNone_iff (tail : Tail G) : tail.isNone ↔ tail = .none := by
  obtain ⟨orderBy, locks, limit⟩ := tail
  cases orderBy <;> cases locks <;> cases limit <;> simp [isNone, none]

end Tail

/-- The tail of a SELECT. -/
def SelectStmt.tail (s : SelectStmt G) : Tail G := ⟨s.orderBy, s.locks, s.limit⟩

def SelectStmt.withoutTail (s : SelectStmt G) : SelectStmt G :=
  { s with orderBy := [], locks := [], limit := none }

theorem SelectStmt.yield_eq_withoutTail (s : SelectStmt G) :
    s.yield = s.withoutTail.yield ++ s.tail.yield := by
  simp only [SelectStmt.yield, withoutTail, Tail.yield, tail, List.append_assoc]
  rfl

def unionWords : UnionType → List QString
  | .union => kw "UNION"
  | .unionAll => kw "UNION" ++ kw "ALL"

mutual

inductive SetOperand (G : Phrases)
  | simple (s : SelectStmt G) (h : s.tail = .none)
  | parentheses (clause : SetClause G) (tail : Tail G)

inductive SetClause (G : Phrases)
  | operand (o : SetOperand G)
  | union (type : UnionType) (left : SetClause G) (right : SetOperand G)

end

/-- What a sentence says.  `sorted` are the clauses of a tail over a whole query. -/
inductive Query (G : Phrases)
  | select (s : SelectStmt G)
  | union (type : UnionType) (left right : Query G)
  | sorted (query : Query G) (tail : Tail G)

/-- A query with clauses behind it; a SELECT that has none of its own takes them. -/
def Query.sort (tail : Tail G) : Query G → Query G
  | select s =>
      if s.tail.isNone then
        select { s with orderBy := tail.orderBy, locks := tail.locks, limit := tail.limit }
      else sorted (select s) tail
  | union type left right => sorted (union type left right) tail
  | sorted query tail' => sorted (sorted query tail') tail

def Query.withTail (tail : Tail G) (q : Query G) : Query G :=
  if tail.isNone then q else q.sort tail

mutual

def SetOperand.yield : SetOperand G → List QString
  | .simple s _ => s.yield
  | .parentheses clause tail => latin1 "(" :: ((clause.yield ++ tail.yield) ++ kw ")")

def SetClause.yield : SetClause G → List QString
  | .operand o => o.yield
  | .union type left right => left.yield ++ unionWords type ++ right.yield

end

mutual

def SetOperand.query : SetOperand G → Query G
  | .simple s _ => .select s
  | .parentheses clause tail => clause.query.withTail tail

def SetClause.query : SetClause G → Query G
  | .operand o => o.query
  | .union type left right => .union type left.query right.query

end

/-- The text is a sentence that says this. -/
def ParsesAs (text : QString) (q : Query G) : Prop :=
  SqlLexer.Closed text ∧
    ∃ (clause : SetClause G) (tail : Tail G),
      clause.yield ++ tail.yield = lexemes text ∧ clause.query.withTail tail = q

/-- A tail does not make a union. -/
theorem Query.union_of_withTail {q q1 q2 : Query G} {tail : Tail G} {type : UnionType}
    (h : q.withTail tail = .union type q1 q2) : tail = .none ∧ q = .union type q1 q2 := by
  by_cases htail : tail.isNone
  · rw [withTail, if_pos htail] at h
    exact ⟨tail.isNone_iff.mp htail, h⟩
  · rw [withTail, if_neg htail] at h
    cases q with
    | select s =>
        rw [sort] at h
        split at h <;> cases h
    | union type left right => cases h
    | sorted query tail => cases h

/-! ### Operands that begin with SELECT -/

/-- An operand that begins with SELECT is no statement in parentheses. -/
theorem SetOperand.eq_simple {o : SetOperand G} {ws us : List QString}
    (h : o.yield ++ us = latin1 "SELECT" :: ws) : ∃ s htail, o = .simple s htail := by
  cases o with
  | simple s htail => exact ⟨s, htail, rfl⟩
  | parentheses clause tail =>
      rw [SetOperand.yield] at h
      have hword : latin1 "(" = latin1 "SELECT" := (List.cons.inj h).1
      exact absurd hword (by decide)

/-! ### Marks outside of brackets -/

def sqlBrackets : Brackets QString where
  isOpening w := w = latin1 "("
  isClosing w := w = latin1 ")"
  isMark w := w = latin1 "UNION"

/-- The word UNION stands inside of brackets only, and the brackets match. -/
def Enclosed (ws : List QString) : Prop := sqlBrackets.Enclosed ws

/-- So it is in all parts of the caller. -/
def Phrases.Enclosed (G : Phrases) : Prop := ∀ cat ws, G cat ws → Sqlate.Enclosed ws

/-- Keywords and commas. -/
theorem enclosed_words {ws : List QString} (h : (ws.all sqlBrackets.plain) = true) : Enclosed ws :=
  Brackets.enclosed_of_plain (List.all_eq_true.mp h)

theorem enclosed_append {ws us : List QString} (h : Enclosed ws) (h' : Enclosed us) :
    Enclosed (ws ++ us) := Brackets.Enclosed.append h h'

theorem enclosed_commaSeparated {parts : List (List QString)} (h : ∀ part ∈ parts, Enclosed part) :
    Enclosed (commaSeparated parts) :=
  Brackets.enclosed_intercalate (enclosed_words (by decide)) h

theorem enclosed_singleton {w : QString} (h : ∀ k ∈ ["(", ")", "UNION"], w ≠ latin1 k) :
    Enclosed [w] := by
  apply Brackets.enclosed_of_plain
  intro u hu
  rw [List.mem_singleton.mp hu]
  simp [Brackets.plain, sqlBrackets, h]

theorem enclosed_number (n : Nat) : Enclosed [QString.number n] := by
  apply enclosed_singleton
  rintro k hk hn
  have hall : (["(", ")", "UNION"].all fun k => (latin1 k).any fun c => !c.isDigit) = true := by rfl
  obtain ⟨c, hc, hdigit⟩ := List.any_eq_true.1 (List.all_eq_true.1 hall k hk)
  rw [← hn] at hc
  rw [QString.isDigit_of_mem_number hc] at hdigit
  cases hdigit

theorem enclosed_quotedLabel (label : QString) : Enclosed [quotedLabel label] := by
  have hne : ∀ k ∈ ["(", ")", "UNION"], (latin1 k).head? ≠ some SqlLexer.doubleQuote := by decide
  apply enclosed_singleton
  intro k hk h
  apply hne k hk
  rw [← h]
  rfl

/-- NULL, in any case, is no bracket and not UNION. -/
theorem enclosed_of_lower_null {ws : List QString} (h : ws.map lower = kw "null") : Enclosed ws := by
  have hne : ∀ k ∈ ["(", ")", "UNION"], lower (latin1 k) ≠ latin1 "null" := by decide
  obtain ⟨w, rfl⟩ : ∃ w, ws = [w] := List.length_eq_one_iff.1 (by simpa using congrArg List.length h)
  apply enclosed_singleton
  rintro k hk rfl
  exact hne k hk (List.cons.inj h).1

/-! ### Statements are enclosed -/

section
variable (hG : G.Enclosed)
include hG

theorem Phrase.enclosed {cat : Category} (t : Phrase G cat) : Enclosed (lexemes t.text) :=
  hG cat _ t.isPhrase.lexemes

theorem CompareOperator.Takes.enclosed {op : CompareOperator} {ws : List QString}
    (h : op.Takes G ws) : Enclosed ws := by
  cases op with
  | is => exact enclosed_of_lower_null h
  | isNot => exact enclosed_of_lower_null h
  | _ => exact hG _ _ h

theorem Comparison.IsPhrase.enclosed {a : Comparison} (h : a.IsPhrase G) : Enclosed a.lexemes := by
  have hop : Enclosed (compareWords a.compareOp) := by
    cases a.compareOp <;> exact enclosed_words (by decide)
  exact enclosed_append (enclosed_append (hG _ _ h.column.lexemes) hop) (h.rightHandSide.enclosed hG)

/-- Reading an expression goes past words that change nothing. -/
theorem grammar_inductive : Grammar.Inductive Token.grammar fun ts rest e =>
    (∀ a ∈ e.atoms, a.IsPhrase G) → ∀ s,
      sqlBrackets.scan s (ts.flatMap Token.lexemes) = sqlBrackets.scan s (rest.flatMap Token.lexemes) := by
  constructor
  · intro ts a rest h hphrases s
    match ts with
    | [] => cases h
    | .comparison a' :: ts =>
        obtain ⟨rfl, rfl⟩ := Prod.mk.inj (Option.some.inj h)
        have ha := (hphrases a' (List.mem_singleton_self a')).enclosed hG
        rw [List.flatMap_cons, Brackets.scan_append]
        exact congrArg (fun s => sqlBrackets.scan s _) (ha s)
    | .opening :: ts => cases h
    | .closing :: ts => cases h
    | .connective op :: ts => cases h
  · intro t ts t' rest e hopening h hclosing hphrases s
    obtain rfl : t = .opening := by cases t <;> first | rfl | cases hopening
    obtain rfl : t' = .closing := by cases t' <;> first | rfl | cases hclosing
    have hopened : sqlBrackets.step s (latin1 "(") = (s.1 + 1, s.2) :=
      Brackets.step_opening (by decide) s
    have hclosed : sqlBrackets.step (s.1 + 1, s.2) (latin1 ")") = s :=
      Brackets.step_closing (by decide) (by decide) _
    show sqlBrackets.scan (sqlBrackets.step s (latin1 "(")) (ts.flatMap Token.lexemes) = _
    rw [hopened, h hphrases]
    show sqlBrackets.scan (sqlBrackets.step (s.1 + 1, s.2) (latin1 ")"))
      (rest.flatMap Token.lexemes) = _
    rw [hclosed]
  · intro op ts t us rest e f h hconnective h' hphrases s
    have hword : Enclosed t.lexemes := by
      cases t with
      | connective op' => cases op' <;> exact enclosed_words (by decide)
      | opening => cases hconnective
      | closing => cases hconnective
      | comparison a => cases hconnective
    rw [h fun a ha => hphrases a (List.mem_append_left _ ha), List.flatMap_cons,
      Brackets.scan_append, hword s]
    exact h' (fun a ha => hphrases a (List.mem_append_right _ ha)) s

theorem StmtCondition.enclosed (c : StmtCondition G) : Enclosed c.yield := by
  intro s
  exact (grammar_inductive hG).read c.read c.phrases s

theorem StmtJoin.enclosed (j : StmtJoin G) : Enclosed j.yield := by
  have hwords : ∀ type, Enclosed (joinWords type) := by
    intro type
    cases type <;> exact enclosed_words (by decide)
  cases j with
  | cross table => exact enclosed_append (hwords _) (table.enclosed hG)
  | qualified type _ table on =>
      exact enclosed_append (enclosed_append (enclosed_append (hwords type) (table.enclosed hG))
        (enclosed_words (by decide))) (on.enclosed hG)

theorem FromClause.enclosed (f : FromClause G) : Enclosed f.yield :=
  enclosed_append (enclosed_append (enclosed_words (by decide)) (f.table.enclosed hG))
    (Brackets.enclosed_flatMap fun j _ => j.enclosed hG)

theorem Duplicates.enclosed (d : Duplicates G) : Enclosed d.yield := by
  cases d with
  | all => exact Brackets.Enclosed.nil
  | distinct =>
      show Enclosed (kw "DISTINCT")
      exact enclosed_words (by decide)
  | distinctOn exprs =>
      have hexprs := exprs.enclosed hG
      have hbrackets : Enclosed (latin1 "(" :: (lexemes exprs.text ++ kw ")")) :=
        Brackets.enclosed_brackets (by decide) (by decide) (by decide) fun depth marks => hexprs _
      have hwords : Enclosed (kw "DISTINCT" ++ kw "ON") := enclosed_words (by decide)
      have hall := enclosed_append hwords hbrackets
      simpa [Duplicates.yield] using hall

theorem StmtTarget.enclosed (t : StmtTarget G) : Enclosed t.yield := by
  cases t with
  | plain target => exact target.enclosed hG
  | labelled expr _ label _ =>
      exact enclosed_append (expr.enclosed hG)
        (enclosed_append (enclosed_words (by decide)) (enclosed_quotedLabel label))

theorem LockClause.enclosed (l : LockClause G) : Enclosed l.yield := by
  apply enclosed_append
  · apply enclosed_append (enclosed_words (by decide))
    apply enclosed_commaSeparated
    rw [List.forall_mem_map]
    exact fun t _ => t.enclosed hG
  · apply Brackets.Enclosed.ite
    · intro _
      exact enclosed_words (by decide)
    · intro _
      exact Brackets.Enclosed.nil

theorem Tail.enclosed (tail : Tail G) : Enclosed tail.yield := by
  have horder : ∀ order, Enclosed (orderWords order) := by
    intro order
    cases order <;> exact enclosed_words (by decide)
  have hlimit : ∀ l : Nat × Nat, Enclosed (limitWords l.1 l.2) := fun l =>
    enclosed_append (enclosed_append (enclosed_append (enclosed_words (by decide))
      (enclosed_number l.1)) (enclosed_words (by decide))) (enclosed_number l.2)
  apply enclosed_append
  · apply enclosed_append
    · apply Brackets.Enclosed.ite
      · intro _
        exact Brackets.Enclosed.nil
      · intro _
        apply enclosed_append (enclosed_words (by decide))
        apply enclosed_commaSeparated
        rw [List.forall_mem_map]
        exact fun e _ => enclosed_append (e.1.enclosed hG) (horder e.2)
    · exact Brackets.enclosed_flatMap fun l _ => l.enclosed hG
  · cases tail.limit with
    | none => exact Brackets.Enclosed.nil
    | some l => exact hlimit l

theorem SelectStmt.enclosed (s : SelectStmt G) : Enclosed s.yield := by
  have htargets : Enclosed (commaSeparated (s.targets.map StmtTarget.yield)) := by
    apply enclosed_commaSeparated
    rw [List.forall_mem_map]
    exact fun t _ => t.enclosed hG
  have hfrom : Enclosed (s.fromClause.elim [] FromClause.yield) := by
    cases s.fromClause with
    | none => exact Brackets.Enclosed.nil
    | some f => exact f.enclosed hG
  have hwhere : Enclosed (s.whereClause.elim [] fun c => kw "WHERE" ++ c.yield) := by
    cases s.whereClause with
    | none => exact Brackets.Enclosed.nil
    | some c => exact enclosed_append (enclosed_words (by decide)) (c.enclosed hG)
  have hgroup : Enclosed (if s.groupBy.isEmpty then []
      else kw "GROUP" ++ kw "BY" ++ commaSeparated (s.groupBy.map fun e => lexemes e.text)) := by
    apply Brackets.Enclosed.ite
    · intro _
      exact Brackets.Enclosed.nil
    · intro _
      apply enclosed_append (enclosed_words (by decide))
      apply enclosed_commaSeparated
      rw [List.forall_mem_map]
      exact fun e _ => e.enclosed hG
  have hselect : Enclosed (kw "SELECT") := enclosed_words (by decide)
  have hcore := enclosed_append (enclosed_append (enclosed_append (enclosed_append
    (enclosed_append hselect (s.duplicates.enclosed hG)) htargets) hfrom) hwhere) hgroup
  have hall := enclosed_append hcore (s.tail.enclosed hG)
  simpa only [SelectStmt.yield, Tail.yield, SelectStmt.tail, List.append_assoc] using hall

end

/-! ### Unions are counted -/

theorem scan_unionWords_inside (type : UnionType) (depth marks : Nat) :
    sqlBrackets.scan (depth + 1, marks) (unionWords type) = (depth + 1, marks) := by
  cases type <;> rfl

theorem scan_unionWords_outside (type : UnionType) (marks : Nat) :
    sqlBrackets.scan (0, marks) (unionWords type) = (0, marks + 1) := by
  cases type <;> rfl

mutual

theorem SetOperand.enclosed (hG : G.Enclosed) : (o : SetOperand G) → Enclosed o.yield
  | .simple s _ => s.enclosed hG
  | .parentheses clause tail => by
      apply Brackets.enclosed_brackets (by decide) (by decide) (by decide)
      intro depth marks
      rw [Brackets.scan_append, clause.scan_inside hG]
      exact tail.enclosed hG _

theorem SetClause.scan_inside (hG : G.Enclosed) : (c : SetClause G) → ∀ depth marks,
    sqlBrackets.scan (depth + 1, marks) c.yield = (depth + 1, marks)
  | .operand o => fun _ _ => o.enclosed hG _
  | .union type left right => by
      intro depth marks
      rw [SetClause.yield, Brackets.scan_append, Brackets.scan_append, left.scan_inside hG,
        scan_unionWords_inside]
      exact right.enclosed hG _

end

/-- The unions of a clause that are not in parentheses. -/
def SetClause.unions : SetClause G → Nat
  | .operand _ => 0
  | .union _ left _ => left.unions + 1

/-- **The words UNION outside of brackets are those of the tree.** -/
theorem SetClause.scan_yield (hG : G.Enclosed) : (c : SetClause G) → ∀ marks,
    sqlBrackets.scan (0, marks) c.yield = (0, marks + c.unions)
  | .operand o => fun _ => o.enclosed hG _
  | .union type left right => by
      intro marks
      rw [SetClause.yield, Brackets.scan_append, Brackets.scan_append, left.scan_yield hG,
        scan_unionWords_outside]
      exact right.enclosed hG _

end Sqlate
