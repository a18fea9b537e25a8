/-
Sqlate/ColumnLabels.lean

The labels of the columns of a SELECT, as the server reads them.

`readQuotedIdentifier` is the rule of PostgreSQL's lexer for a quoted
identifier: it ends at the first quote that is not doubled, two quotes stand
for one, and a backslash is a character like any other.  `labelClause` is what
`toString` writes behind `AS`, `textBefore` and `textAfter` what it writes
around it.  `label_read_iff` says which labels are read back.
-/
import Sqlate.SelectQueryBuilder
import Sqlate.SqlLexer

namespace Sqlate

open SqlLexer (doubleQuote)

/-! ### Quoted identifiers -/

/-- The name up to the closing quote, and the text after it. -/
def readQuoted : QString → Option (QString × QString)
  | [] => none
  | [c] => if c = doubleQuote then some ([], []) else none
  | c :: d :: s =>
      if c = doubleQuote then
        if d = doubleQuote then (readQuoted s).map fun r => (c :: r.1, r.2) else some ([], d :: s)
      else (readQuoted (d :: s)).map fun r => (c :: r.1, r.2)

/-- A quoted identifier at the front of a text; it has at least one character. -/
def readQuotedIdentifier : QString → Option (QString × QString)
  | [] => none
  | c :: s => if c = doubleQuote then (readQuoted s).filter fun r => !r.1.isEmpty else none

theorem readQuoted_cons_of_ne {c : QChar} (hc : c ≠ doubleQuote) (s : QString) :
    readQuoted (c :: s) = (readQuoted s).map fun r => (c :: r.1, r.2) := by
  cases s with
  | nil =>
      show (if c = doubleQuote then some ([], []) else none) = none
      rw [if_neg hc]
  | cons d s => rw [readQuoted, if_neg hc]

/-- A text without quotes is read as it is. -/
theorem readQuoted_append {t : QString} (ht : doubleQuote ∉ t) (s : QString) :
    readQuoted (t ++ s) = (readQuoted s).map fun r => (t ++ r.1, r.2) := by
  induction t with
  | nil =>
      cases h : readQuoted s with
      | none => exact h
      | some r => exact h
  | cons c t ih =>
      rw [List.mem_cons, not_or] at ht
      rw [List.cons_append, readQuoted_cons_of_ne (Ne.symm ht.1), ih ht.2, Option.map_map]
      rfl

/-- A quote that is not doubled ends the identifier. -/
theorem readQuoted_quote {s : QString} (hs : s.head? ≠ some doubleQuote) :
    readQuoted (doubleQuote :: s) = some ([], s) := by
  cases s with
  | nil => rfl
  | cons c s =>
      have hc : c ≠ doubleQuote := fun h => hs (congrArg some h)
      rw [readQuoted, if_pos rfl, if_neg hc]

/-! ### The text around a label -/

namespace SqlSelectQueryBuilder

/-- A label with its quotes escaped. -/
def quotedAs (label : QString) : QString :=
  label.flatMap fun c => if c = doubleQuote then latin1 "\\\"" else [c]

/-- A label as `toString` writes it behind `AS`. -/
def labelClause (label : QString) : QString := latin1 "\"" ++ quotedAs label ++ latin1 "\""

theorem toQString_columnToString {label : QString} (hlabel : label ≠ []) (name : QString) :
    (columnToString (name, label)).toQString = name ++ latin1 " AS " ++ labelClause label := by
  have has : latin1 " AS \"" = latin1 " AS " ++ latin1 "\"" := by decide
  rw [columnToString, if_neg (by simpa using hlabel)]
  simp only [SqlText.toQString_append, SqlText.toQString_raw, SqlText.toQString_sql, has,
    labelClause, quotedAs, List.append_assoc]
  rfl

/-- The text before a column, when `pre` are the columns before it. -/
def textBefore (b : SqlSelectQueryBuilder) (pre : List (QString × QString)) : SqlText :=
  sql "SELECT "
    ++ (if b.distinct then sql "DISTINCT " else [])
    ++ (if !b.distinctOn.isEmpty then sql "DISTINCT ON(" ++ raw b.distinctOn ++ sql ") " else [])
    ++ pre.flatMap fun col => columnToString col ++ sql ", "

/-- The text after a column, when `post` are the columns after it. -/
def textAfter (b : SqlSelectQueryBuilder) (post : List (QString × QString)) : SqlText :=
  (post.flatMap fun col => sql ", " ++ columnToString col)
    ++ (if !b.table.isEmpty then sql " FROM " ++ raw b.table else [])
    ++ joinsTextFrom b.nextNumber b.joins
    ++ b.whereTextFrom (b.nextNumber + (b.joins.flatMap fun j => j.condition.boundValues).length)
    ++ b.tailClauses

end SqlSelectQueryBuilder

theorem SqlText.join_cons (t sep : SqlText) (ts : List SqlText) :
    SqlText.join (t :: ts) sep = t ++ ts.flatMap fun u => sep ++ u := by
  induction ts generalizing t with
  | nil => simp
  | cons u ts ih =>
      rw [SqlText.join_cons_cons, ih, List.flatMap_cons]
      simp only [List.append_assoc]

theorem SqlText.join_append_cons (pre : List SqlText) (t : SqlText) (post : List SqlText)
    (sep : SqlText) :
    SqlText.join (pre ++ t :: post) sep =
      (pre.flatMap fun u => u ++ sep) ++ t ++ post.flatMap fun u => sep ++ u := by
  induction pre with
  | nil => rw [List.nil_append, SqlText.join_cons]; rfl
  | cons u pre ih =>
      cases hrest : pre ++ t :: post with
      | nil => simp at hrest
      | cons v rest =>
          rw [List.cons_append, hrest, SqlText.join_cons_cons, ← hrest, ih, List.flatMap_cons]
          simp only [List.append_assoc]

namespace SqlSelectQueryBuilder

theorem toString_around {b : SqlSelectQueryBuilder} {pre post : List (QString × QString)}
    {col : QString × QString} (hcols : b.columns = pre ++ col :: post) :
    b.toString.1 = b.textBefore pre ++ columnToString col ++ b.textAfter post := by
  rw [toString_eq]
  simp only [textFrom, selectClause, textBefore, textAfter, hcols, List.map_append, List.map_cons,
    SqlText.join_append_cons, List.flatMap_map, List.append_assoc]

/-- A text that does not go on with a quote. -/
def Outside (t : SqlText) : Prop := t.toQString.head? ≠ some doubleQuote

theorem Outside.append {s t : SqlText} (hs : Outside s) (ht : Outside t) : Outside (s ++ t) := by
  rw [Outside, SqlText.toQString_append, List.head?_append]
  rw [Outside] at hs ht
  cases h : s.toQString.head? with
  | none => exact ht
  | some c => rwa [h] at hs

theorem outside_of_head? {t : SqlText} {c : QChar} (ht : t.toQString.head? = some c)
    (hc : c ≠ doubleQuote) : Outside t := by
  rw [Outside, ht]
  exact fun h => hc (Option.some.inj h)

theorem outside_nil : Outside [] := nofun

theorem outside_ite {c : Prop} [Decidable c] {t : SqlText} (ht : Outside t) :
    Outside (if c then t else []) := by
  split
  · exact ht
  · exact outside_nil

theorem outside_flatMap {α : Type} (as : List α) {f : α → SqlText}
    (hf : ∀ a ∈ as, Outside (f a)) : Outside (as.flatMap f) := by
  induction as with
  | nil => exact outside_nil
  | cons a as ih =>
      rw [List.flatMap_cons]
      exact (hf a List.mem_cons_self).append (ih fun b hb => hf b (List.mem_cons_of_mem _ hb))

theorem outside_joinsTextFrom (n : Nat) (js : List JoinInfo) : Outside (joinsTextFrom n js) := by
  cases js with
  | nil => exact outside_nil
  | cons j js =>
      apply outside_of_head? (c := QChar.ofChar ' ')
      · rw [joinsTextFrom]
        cases j.type <;> rfl
      · decide

theorem outside_tailClauses (b : SqlSelectQueryBuilder) : Outside b.tailClauses := by
  have hspace : QChar.ofChar ' ' ≠ doubleQuote := by decide
  rw [tailClauses]
  exact ((((outside_ite (outside_of_head? rfl hspace)).append
    (outside_ite (outside_of_head? rfl hspace))).append
    (outside_ite (outside_of_head? rfl hspace)))).append
    (outside_ite (outside_of_head? rfl hspace))

/-- What follows a column is not a quote. -/
theorem outside_textAfter (b : SqlSelectQueryBuilder) (post : List (QString × QString)) :
    Outside (b.textAfter post) := by
  have hspace : QChar.ofChar ' ' ≠ doubleQuote := by decide
  have hcols : Outside (post.flatMap fun col => sql ", " ++ columnToString col) :=
    outside_flatMap post fun col _ => outside_of_head? rfl (by decide)
  have hwhere : Outside (b.whereTextFrom
      (b.nextNumber + (b.joins.flatMap fun j => j.condition.boundValues).length)) := by
    rw [SqlConditionalQueryBuilderBase.whereTextFrom]
    exact outside_ite (outside_of_head? rfl hspace)
  exact (((hcols.append (outside_ite (outside_of_head? rfl hspace))).append
    (outside_joinsTextFrom _ _)).append hwhere).append b.outside_tailClauses

/-! ### Reading labels -/

theorem quotedAs_of_not_mem {label : QString} (h : doubleQuote ∉ label) :
    quotedAs label = label := by
  induction label with
  | nil => rfl
  | cons c label ih =>
      rw [List.mem_cons, not_or] at h
      rw [quotedAs, List.flatMap_cons, if_neg (Ne.symm h.1)]
      exact congrArg (c :: ·) (ih h.2)

/-- The first quote of a label gets a backslash. -/
theorem quotedAs_append_quote {u : QString} (hu : doubleQuote ∉ u) (v : QString) :
    quotedAs (u ++ doubleQuote :: v) = u ++ QChar.ofChar '\\' :: doubleQuote :: quotedAs v := by
  rw [quotedAs, List.flatMap_append, List.flatMap_cons, if_pos rfl]
  exact congrArg (· ++ QChar.ofChar '\\' :: doubleQuote :: quotedAs v) (quotedAs_of_not_mem hu)

/-- The text of a clause, with its closing quote in front of what follows. -/
theorem labelClause_append (label after : QString) :
    labelClause label ++ after = doubleQuote :: (quotedAs label ++ doubleQuote :: after) := by
  show (doubleQuote :: (quotedAs label ++ [doubleQuote])) ++ after = _
  rw [List.cons_append, List.append_assoc]
  rfl

/-- A label without quotes is written as it is, and read back. -/
theorem readQuotedIdentifier_of_not_mem {label after : QString} (hlabel : label ≠ [])
    (hquote : doubleQuote ∉ label) (hafter : after.head? ≠ some doubleQuote) :
    readQuotedIdentifier (labelClause label ++ after) = some (label, after) := by
  have hread : readQuoted (label ++ (doubleQuote :: after)) = some (label, after) := by
    rw [readQuoted_append hquote, readQuoted_quote hafter]
    simp
  rw [labelClause_append, readQuotedIdentifier, if_pos rfl, quotedAs_of_not_mem hquote, hread]
  simp [hlabel]

/-- The backslash before the first quote of a label is read as part of the name. -/
theorem readQuotedIdentifier_of_mem {label : QString} (hquote : doubleQuote ∈ label)
    (after rest : QString) :
    readQuotedIdentifier (labelClause label ++ after) ≠ some (label, rest) := by
  intro h
  obtain ⟨u, v, rfl, hu⟩ := List.eq_append_cons_of_mem hquote
  rw [labelClause_append, readQuotedIdentifier, if_pos rfl, Option.filter_eq_some_iff,
    quotedAs_append_quote hu, List.append_assoc, readQuoted_append hu, Option.map_eq_some_iff] at h
  obtain ⟨⟨⟨name, rest'⟩, hread, hname⟩, -⟩ := h
  -- behind the characters before the quote, the name goes on with the backslash
  rw [List.cons_append, readQuoted_cons_of_ne (by decide), Option.map_eq_some_iff] at hread
  obtain ⟨r, -, hr⟩ := hread
  obtain ⟨rfl, -⟩ := Prod.mk.inj hr
  have heq := List.append_cancel_left (Prod.mk.inj hname).1
  have hne : QChar.ofChar '\\' ≠ doubleQuote := by decide
  exact hne (List.cons.inj heq).1

/-- **Which labels are read back**: those without a quote.  The label of a column
stands, quoted, behind the name and `AS`; read from its first quote, it is an
identifier with the name of the label, which ends where the clause ends. -/
theorem label_read_iff (b : SqlSelectQueryBuilder) (pre post : List (QString × QString))
    {name label : QString} (hcols : b.columns = pre ++ (name, label) :: post)
    (hlabel : label ≠ []) :
    b.toString.1.toQString = (b.textBefore pre).toQString ++ name ++ latin1 " AS " ++
        (labelClause label ++ (b.textAfter post).toQString) ∧
      (readQuotedIdentifier (labelClause label ++ (b.textAfter post).toQString) =
          some (label, (b.textAfter post).toQString) ↔ doubleQuote ∉ label) := by
  constructor
  · rw [toString_around hcols, SqlText.toQString_append, SqlText.toQString_append,
      toQString_columnToString hlabel]
    simp only [List.append_assoc]
  · constructor
    · intro h hquote
      exact readQuotedIdentifier_of_mem hquote _ _ h
    · intro hquote
      exact readQuotedIdentifier_of_not_mem hlabel hquote (b.outside_textAfter post)

/-- `SELECT x AS "a"`. -/
theorem label_read_iff_plain :
    (((new (latin1 "db")).addColumn (latin1 "x") (latin1 "a")).toString.1.toQString =
        latin1 "SELECT " ++ latin1 "x" ++ latin1 " AS " ++ (latin1 "\"a\"" ++ [])) ∧
      (readQuotedIdentifier (latin1 "\"a\"" ++ []) = some (latin1 "a", []) ↔
        doubleQuote ∉ latin1 "a") :=
  label_read_iff ((new (latin1 "db")).addColumn (latin1 "x") (latin1 "a")) [] [] rfl (by decide)

/-- The label `a"b` is read as `a\`, and `b` is read as SQL. -/
theorem label_ends_early :
    ¬ ∀ (b : SqlSelectQueryBuilder) (pre post : List (QString × QString)) (name label : QString),
      b.columns = pre ++ (name, label) :: post → label ≠ [] →
        readQuotedIdentifier (labelClause label ++ (b.textAfter post).toQString) =
          some (label, (b.textAfter post).toQString) := by
  intro h
  have hread := h ((new (latin1 "db")).addColumn (latin1 "x") (latin1 "a\"b")) [] [] (latin1 "x")
    (latin1 "a\"b") rfl (by decide)
  have hcode : readQuotedIdentifier (labelClause (latin1 "a\"b")) =
      some (latin1 "a\\", latin1 "b\"") := by
    decide
  have hempty : (((new (latin1 "db")).addColumn (latin1 "x") (latin1 "a\"b")).textAfter
      []).toQString = [] := rfl
  rw [hempty, List.append_nil, hcode] at hread
  revert hread
  decide

end SqlSelectQueryBuilder

end Sqlate
