/-
Sqlate/UpdateEffects.lean

What the server does when a program executes an UPDATE builder.

The SET list takes the first numbers and the WHERE clause those behind it; the rows
that satisfy the condition get the new values, and everything else stays as it is
(`SqlUpdateQueryBuilder.Asks.exec`).  Without a column to set, the text is no statement.
-/
import Sqlate.StatementEffects

namespace Sqlate

/-! ### UPDATE -/

/-- The parts of the SET list. -/
def setTexts (n : Nat) : List (QString × QVariant) → List SqlText
  | [] => []
  | col :: cols =>
      if col.2.userType = .sqlNowType then
        (raw col.1 ++ sql " = " ++ currentDateTime) :: setTexts n cols
      else (raw col.1 ++ sql " = " ++ [.bound n col.2]) :: setTexts (n + 1) cols

/-- The assignments that the server reads. -/
def assignmentsFrom (n : Nat) : List (PlainName × QVariant) → List Assignment
  | [] => []
  | col :: cols =>
      if col.2.userType = .sqlNowType then (col.1, .now) :: assignmentsFrom n cols
      else (col.1, .parameter n) :: assignmentsFrom (n + 1) cols

/-- Columns and values as the builder has them. -/
def writtenColumns (cols : List (PlainName × QVariant)) : List (QString × QVariant) :=
  cols.map fun col => (col.1.text, col.2)

/-- The values that are bound. -/
def numberedValues (cols : List (PlainName × QVariant)) : List QVariant :=
  (cols.map Prod.snd).filter fun v => v.userType ≠ .sqlNowType

theorem numberedValues_cons_of_now {col : PlainName × QVariant} (h : col.2.userType = .sqlNowType)
    (cols : List (PlainName × QVariant)) : numberedValues (col :: cols) = numberedValues cols := by
  simp [numberedValues, h]

theorem numberedValues_cons_of_ne {col : PlainName × QVariant} (h : col.2.userType ≠ .sqlNowType)
    (cols : List (PlainName × QVariant)) :
    numberedValues (col :: cols) = col.2 :: numberedValues cols := by
  simp [numberedValues, h]

theorem SqlUpdateQueryBuilder.columnsTextFrom_eq (n : Nat) (cols : List (QString × QVariant)) :
    columnsTextFrom n cols = (setTexts n cols).flatMap fun t => t ++ sql ", " := by
  induction cols generalizing n with
  | nil => rfl
  | cons col cols ih =>
      rw [columnsTextFrom, setTexts]
      split <;> simp [ih]

theorem flatMap_eq_join (sep t : SqlText) (ts : List SqlText) :
    (t :: ts).flatMap (fun t => t ++ sep) = SqlText.join (t :: ts) sep ++ sep := by
  induction ts generalizing t with
  | nil => simp
  | cons u ts ih =>
      rw [List.flatMap_cons, ih, SqlText.join_cons_cons, List.append_assoc, List.append_assoc,
        List.append_assoc]

theorem setTexts_ne_nil (n : Nat) {cols : List (QString × QVariant)} (h : cols ≠ []) :
    setTexts n cols ≠ [] := by
  cases cols with
  | nil => exact absurd rfl h
  | cons col cols =>
      rw [setTexts]
      split <;> exact List.cons_ne_nil _ _

/-- The separator behind the last part is removed. -/
theorem SqlUpdateQueryBuilder.removeSeparator_columnsTextFrom (t : SqlText) (n : Nat)
    {cols : List (QString × QVariant)} (h : cols ≠ []) :
    removeSeparator (t ++ columnsTextFrom n cols)
      = t ++ SqlText.join (setTexts n cols) (sql ", ") := by
  obtain ⟨u, us, hus⟩ := List.exists_cons_of_ne_nil (setTexts_ne_nil n h)
  have hsuffix : (sql ", ").isSuffixOf (t ++ (SqlText.join (u :: us) (sql ", ") ++ sql ", ")) = true :=
    List.isSuffixOf_iff_suffix.2 ⟨t ++ SqlText.join (u :: us) (sql ", "), List.append_assoc _ _ _⟩
  have hlength : (t ++ (SqlText.join (u :: us) (sql ", ") ++ sql ", ")).length - 2
      = (t ++ SqlText.join (u :: us) (sql ", ")).length := by
    have htwo : (sql ", ").length = 2 := rfl
    simp only [List.length_append, htwo]
    omega
  rw [columnsTextFrom_eq, hus, flatMap_eq_join, removeSeparator, if_pos hsuffix, hlength,
    ← List.append_assoc, List.take_left]

/-- Commas separate words. -/
theorem words_join {sep : String} {c d : QChar} (hhead : (latin1 sep).head? = some c)
    (hc : separates c = true) (hlast : (latin1 sep).getLast? = some d) (hd : separates d = true)
    (hwords : words (latin1 sep) = kw ",") (ts : List SqlText) :
    words (SqlText.join ts (sql sep)).toQString
      = commaSeparated (ts.map fun t => words (SqlText.toQString t)) := by
  induction ts with
  | nil => rfl
  | cons t ts ih =>
      cases ts with
      | nil => rw [SqlText.join_singleton, List.map_singleton, commaSeparated_singleton]
      | cons u ts =>
          have hright : ∀ e ∈ (latin1 sep
              ++ (SqlText.join (u :: ts) (sql sep)).toQString).head?, separates e = true := by
            rw [List.head?_append, hhead]
            exact separates_of_mem rfl hc
          rw [SqlText.join_cons_cons, SqlText.toQString_append, SqlText.toQString_append,
            SqlText.toQString_sql, List.append_assoc, words_append_of_right hright,
            words_append_of_left (separates_of_mem hlast hd), hwords, ih]
          exact (commaSeparated_cons_cons _ _ _).symm

theorem words_setTexts (n : Nat) (cols : List (PlainName × QVariant)) :
    (setTexts n (writtenColumns cols)).map (fun t => words (SqlText.toQString t))
      = (assignmentsFrom n cols).map assignmentYield := by
  have hequals : words (latin1 " = ") = kw "=" := by decide
  have hnow : words (latin1 "now()") = kw "now" ++ kw "(" ++ kw ")" := by decide
  induction cols generalizing n with
  | nil => rfl
  | cons col cols ih =>
      have hcolumns : writtenColumns (col :: cols) = (col.1.text, col.2) :: writtenColumns cols := rfl
      rw [hcolumns, setTexts, assignmentsFrom]
      by_cases hvalue : col.2.userType = .sqlNowType
      · rw [if_pos hvalue, if_pos hvalue, List.map_cons, List.map_cons, ih]
        congr 1
        rw [currentDateTime, SqlText.toQString_append, SqlText.toQString_append, SqlText.toQString_raw,
          SqlText.toQString_sql, SqlText.toQString_sql, words_append_append rfl rfl,
          words_of_isName col.1.isName, hequals, hnow]
        rfl
      · have hplaceholder : words (SqlText.toQString [Sym.bound n col.2]) = [placeholderName n] := by
          have htext : SqlText.toQString [Sym.bound n col.2] = placeholderName n := by
            simp [Sym.toQString]
          rw [htext, words_of_isName (isName_placeholderName n)]
        rw [if_neg hvalue, if_neg hvalue, List.map_cons, List.map_cons, ih]
        congr 1
        rw [SqlText.toQString_append, SqlText.toQString_append, SqlText.toQString_raw,
          SqlText.toQString_sql, words_append_append rfl rfl, words_of_isName col.1.isName, hequals,
          hplaceholder]
        rfl

theorem folded_assignmentsFrom (n : Nat) (cols : List (PlainName × QVariant)) :
    (assignmentsFrom n cols).map (fun a => a.1.folded) = cols.map fun col => col.1.folded := by
  induction cols generalizing n with
  | nil => rfl
  | cons col cols ih =>
      rw [assignmentsFrom]
      split <;> rw [List.map_cons, List.map_cons, ih]

/-- The row gets the values that are asked for, when they are bound from `n` on. -/
theorem assign_assignmentsFrom (S : Server) {parameters : Parameters} (table : QString) (n : Nat)
    (cols : List (PlainName × QVariant))
    (hbound : BoundFrom parameters n (numberedValues cols)) (r : Record) :
    S.assign parameters table (assignmentsFrom n cols) r
      = cols.foldl (fun r col => Function.update r col.1.folded (S.asked col.2)) r := by
  induction cols generalizing n r with
  | nil => rfl
  | cons col cols ih =>
      rw [assignmentsFrom]
      by_cases hvalue : col.2.userType = .sqlNowType
      · rw [numberedValues_cons_of_now hvalue] at hbound
        have hasked : S.asked col.2 = S.now := by
          rw [QVariant.userType_eq_sqlNowType.1 hvalue]
          rfl
        rw [if_pos hvalue, List.foldl_cons, ← ih n hbound, hasked]
        rfl
      · rw [numberedValues_cons_of_ne hvalue] at hbound
        have hfirst : parameters (placeholderName n) = some col.2.bindForm := hbound 0 _ rfl
        have hrest : BoundFrom parameters (n + [col.2].length) (numberedValues cols) := BoundFrom.right hbound
        have hasked : S.asked col.2 = col.2.bindForm := by
          have hne : col.2 ≠ .sqlNow := fun h => hvalue (QVariant.userType_eq_sqlNowType.2 h)
          revert hne
          cases col.2 <;> intro hne <;> first | rfl | exact absurd rfl hne
        rw [if_neg hvalue, List.foldl_cons, ← ih (n + 1) hrest, hasked]
        show S.assign parameters table _ (Function.update r _ ((parameters (placeholderName n)).getD _)) = _
        rw [hfirst]
        rfl

theorem SqlUpdateQueryBuilder.words_textFrom (b : SqlUpdateQueryBuilder) {table : PlainName}
    (htable : b.table = table.text) {cols : List (PlainName × QVariant)}
    (hcols : b.columns = writtenColumns cols) (hne : cols ≠ []) (n : Nat) :
    words (b.textFrom n).toQString
      = kw "UPDATE" ++ (onlyWords (!b.includeSubTables) ++ ([table.text] ++ (kw "SET"
        ++ (commaSeparated ((assignmentsFrom n cols).map assignmentYield)
          ++ words (b.whereTextFrom (n + b.columnValues.length)).toQString)))) := by
  have hupdate : words (latin1 "UPDATE ") = kw "UPDATE" := by decide
  have hset : words (latin1 " SET ") = kw "SET" := by decide
  have hcomma : words (latin1 ", ") = kw "," := by decide
  have hspace : ∀ t : QString, ∀ c ∈ (latin1 " SET " ++ t).head?, separates c = true :=
    fun t => separates_of_mem rfl separates_space
  have hcolumns : b.columns ≠ [] := by
    rw [hcols]
    simpa [writtenColumns] using hne
  have hjoin : ∀ t : QString, (∀ c ∈ t.head?, separates c = true) →
      words ((SqlText.join (setTexts n b.columns) (sql ", ")).toQString ++ t)
        = commaSeparated ((assignmentsFrom n cols).map assignmentYield) ++ words t := by
    intro t ht
    rw [words_append_of_right ht, words_join rfl (by decide) rfl separates_space hcomma, hcols,
      words_setTexts]
  rw [textFrom, words_trimmed, removeSeparator_columnsTextFrom _ n hcolumns, updateClause, htable]
  simp only [SqlText.toQString_append, SqlText.toQString_sql, SqlText.toQString_raw,
    List.append_assoc]
  rw [words_piece rfl separates_space hupdate, words_only,
    words_name table.isName (hspace _),
    words_piece rfl separates_space hset, hjoin _ (separates_whereTextFrom _ _)]

section
variable [CaseFolding]

/-- **An UPDATE gives the new values to the rows that are asked for**, and leaves all
other rows and columns as they are. -/
theorem SqlUpdateQueryBuilder.Asks.exec (S : Server) {b : SqlUpdateQueryBuilder} {q : RowRequest}
    (h : b.Asks q) (hb : b.assembled = false) {table : PlainName} (htable : q.table = table.text)
    {cols : List (PlainName × QVariant)} (hcols : q.columns = writtenColumns cols) (hne : cols ≠ [])
    (hdistinct : distinctNames (cols.map fun col => col.1.folded))
    (hnamed : NamedCalls (.table table.text) true q.calls) {binds : List (QString × QVariant)}
    (hbinds : NoneGenerated binds) (rows : Rows) :
    S.exec (Builder.statement (k := .update) b.assemble binds) rows
      = some (rows.map fun x =>
          if q.selects S (givenBy binds) x then (x.1, q.assigned S x.2) else x) := by
  have hcolumns : b.columns = writtenColumns cols := h.columns.trans hcols
  have hvalues : b.columnValues = numberedValues cols := by
    rw [SqlUpdateQueryBuilder.columnValues, hcolumns, writtenColumns, List.map_map]
    rfl
  have hassemble := SqlUpdateQueryBuilder.assemble_eq b hb
  have hnow : QVariant.sqlNow ∉ b.boundValues := by
    have hkind : Kind.update ≠ .insert := by decide
    exact Builder.sqlNow_not_mem_leafValues hkind b
  have hbound : Builder.bindCalls (k := .update) b.assemble = QSqlResult.bindCalls b.boundValues := by
    rw [hassemble]
    rfl
  have hstatement : Builder.queryString (k := .update) b.assemble = b.textFrom 0 := by
    rw [hassemble, h.base.bindedValuesOffset]
    rfl
  have hparameter : BoundFrom (Builder.statement (k := .update) b.assemble binds).boundValue 0
      (b.columnValues ++ b.whereValues) := boundFrom_statement [] hbound hbinds hnow
  have hwhereValues := hparameter.right
  rw [Nat.zero_add] at hwhereValues
  obtain ⟨condition, hwhere, hresolves, hselects⟩ := h.base.isWhere S htable hnamed _ hwhereValues
    fun w hw => boundValue_statement_deferred hbound hw.notGenerated
  have hassign : ∀ t r, S.assign (Builder.statement (k := .update) b.assemble binds).boundValue t
      (assignmentsFrom 0 cols) r = q.assigned S r := by
    intro t r
    have hcolumnValues := hparameter.left
    rw [hvalues] at hcolumnValues
    rw [assign_assignmentsFrom S t 0 cols hcolumnValues r, RowRequest.assigned, hcols, writtenColumns,
      List.foldl_map]
    rfl
  obtain ⟨a, as, has⟩ : ∃ a as, assignmentsFrom 0 cols = a :: as := by
    apply List.exists_cons_of_ne_nil
    intro hnil
    have hfolded := folded_assignmentsFrom 0 cols
    rw [hnil] at hfolded
    exact hne (List.map_eq_nil_iff.1 hfolded.symm)
  rw [Server.exec, lastQuery_statement, hstatement,
    b.words_textFrom (h.base.table.trans htable) hcolumns hne, h.includeSubTables, Nat.zero_add, has,
    Modification.read_update _ _ _ _ hwhere, ← has, Option.bind_some, Modification.execute,
    folded_assignmentsFrom, hdistinct, hresolves, Bool.and_self, if_pos rfl]
  congr 1
  apply List.map_congr_left
  intro x _
  rw [hselects, hassign]

end

end Sqlate
