/-
Sqlate/InsertEffects.lean

What the server does when a program executes an INSERT builder.

One row is added, and it is the row that is asked for as long as every value is bound
to the placeholder of its column (`InPlace`): the loop of the builder binds the values
in the order of their columns' names (`SqlInsertQueryBuilder.Asks.exec`).
-/
import Sqlate.UpdateEffects

namespace Sqlate

/-! ### The values -/

/-- The expression that the server reads for a call at position `i`. -/
def InsertCall.read (i : Nat) : InsertCall → Expression
  | addColumnValue _ v => if v = .sqlNow then .now else .parameter i
  | addColumn _ => .default

/-- Every value is bound to the placeholder of its column. -/
def InPlace (calls : List InsertCall) : Prop :=
  ∀ i column value, calls[i]? = some (.addColumnValue column value) → value ≠ .sqlNow →
    ∃ column' value', .addColumnValue column' value' ∈ calls ∧
      value'.bindForm = value.bindForm ∧ alphabeticalRank calls column' = i

theorem words_expression (i : Nat) (call : InsertCall) :
    words (SqlText.toQString (call.expression i)) = (call.read i).yield := by
  cases call with
  | addColumn column =>
      show words (latin1 "DEFAULT") = kw "DEFAULT"
      decide
  | addColumnValue column value =>
      by_cases hvalue : value = .sqlNow
      · have hnow : words (latin1 "now()") = kw "now" ++ kw "(" ++ kw ")" := by decide
        rw [InsertCall.expression, InsertCall.read, if_pos hvalue, if_pos hvalue, currentDateTime,
          SqlText.toQString_sql]
        exact hnow
      · have htext : SqlText.toQString [Sym.bound i value] = placeholderName i := by
          simp [Sym.toQString]
        rw [InsertCall.expression, InsertCall.read, if_neg hvalue, if_neg hvalue, htext,
          words_of_isName (isName_placeholderName i)]
        rfl

/-! ### The text -/

section
variable {calls : List InsertCall} {names : List PlainName}

theorem words_columnNames (hnames : calls.map InsertCall.columnName = names.map PlainName.text) :
    ((calls.map InsertCall.columnName).map raw).map (fun t => words (SqlText.toQString t))
      = names.map fun name => [name.text] := by
  rw [hnames, List.map_map, List.map_map]
  apply List.map_congr_left
  intro name _
  show words (SqlText.toQString (raw name.text)) = _
  rw [SqlText.toQString_raw, words_of_isName name.isName]

theorem words_expressions :
    (calls.zipIdx.map fun c => c.1.expression c.2).map (fun t => words (SqlText.toQString t))
      = (calls.zipIdx.map fun c => c.1.read c.2).map Expression.yield := by
  rw [List.map_map, List.map_map]
  apply List.map_congr_left
  intro c _
  exact words_expression c.2 c.1

theorem words_insertStatement (table : PlainName)
    (hnames : calls.map InsertCall.columnName = names.map PlainName.text) (hne : calls ≠ []) :
    words (SqlText.toQString (insertStatement table.text (calls.map InsertCall.columnName)
        (calls.zipIdx.map fun c => c.1.expression c.2)))
      = kw "INSERT" ++ (kw "INTO" ++ ([table.text] ++ (kw "("
          ++ (commaSeparated (names.map fun name => [name.text]) ++ ((kw ")" ++ kw "VALUES" ++ kw "(")
            ++ (commaSeparated ((calls.zipIdx.map fun c => c.1.read c.2).map Expression.yield)
              ++ kw ")")))))) := by
  have hinsert : words (latin1 "INSERT INTO ") = kw "INSERT" ++ kw "INTO" := by decide
  have hopen : words (latin1 " (") = kw "(" := by decide
  have hclose : words (latin1 ")") = kw ")" := by decide
  have hvalues : words (latin1 " VALUES (") = kw "VALUES" ++ kw "(" := by decide
  have hcomma : words (latin1 ",") = kw "," := by decide
  have hseparates : separates (QChar.ofChar ',') = true := by decide
  have hparenthesis : separates (QChar.ofChar ')') = true := by decide
  have hbegin : separates (QChar.ofChar '(') = true := by decide
  have hjoin : ∀ (ts : List SqlText) (t : QString), (∀ c ∈ t.head?, separates c = true) →
      words ((SqlText.join ts (sql ",")).toQString ++ t)
        = commaSeparated (ts.map fun t => words (SqlText.toQString t)) ++ words t := by
    intro ts t ht
    rw [words_append_of_right ht, words_join rfl hseparates rfl hseparates hcomma]
  have hcolumns : (calls.map InsertCall.columnName).isEmpty = false := by
    cases calls with
    | nil => exact absurd rfl hne
    | cons call calls => rfl
  rw [insertStatement, hcolumns, if_neg Bool.false_ne_true]
  simp only [SqlText.toQString_append, SqlText.toQString_sql, SqlText.toQString_raw,
    List.append_assoc]
  rw [words_piece rfl separates_space hinsert,
    words_name table.isName (separates_of_mem rfl separates_space),
    words_piece rfl hbegin hopen, hjoin _ _ (separates_of_mem rfl hparenthesis),
    words_columnNames hnames, words_piece rfl hparenthesis hclose, words_piece rfl hbegin hvalues,
    hjoin _ _ (separates_of_mem rfl hparenthesis), words_expressions, hclose]
  simp only [List.append_assoc]

theorem words_insertDefaults (table : PlainName) (expressions : List SqlText) :
    words (SqlText.toQString (insertStatement table.text [] expressions))
      = kw "INSERT" ++ (kw "INTO" ++ ([table.text] ++ (kw "DEFAULT" ++ kw "VALUES"))) := by
  have hinsert : words (latin1 "INSERT INTO ") = kw "INSERT" ++ kw "INTO" := by decide
  have hdefault : words (latin1 " DEFAULT VALUES") = kw "DEFAULT" ++ kw "VALUES" := by decide
  show words (SqlText.toQString (sql "INSERT INTO " ++ raw table.text ++ sql " DEFAULT VALUES")) = _
  simp only [SqlText.toQString_append, SqlText.toQString_sql, SqlText.toQString_raw,
    List.append_assoc]
  rw [words_piece rfl separates_space hinsert,
    words_name table.isName (separates_of_mem rfl separates_space), hdefault, List.append_assoc]

end

/-! ### The new row -/

/-- The row gets the values that are asked for, when they are bound from `n` on. -/
theorem assign_zip (S : Server) {parameters : Parameters} (table : QString) (n : Nat)
    {calls : List InsertCall} {names : List PlainName}
    (hnames : calls.map InsertCall.columnName = names.map PlainName.text)
    (hbound : ∀ i column value, calls[i]? = some (.addColumnValue column value) → value ≠ .sqlNow →
      parameters (placeholderName (n + i)) = some value.bindForm) (r : Record) :
    S.assign parameters table (names.zip ((calls.zipIdx n).map fun c => c.1.read c.2)) r
      = calls.foldl (fun r call => Function.update r (lower call.columnName)
          (InsertRequest.valueOf S table call)) r := by
  induction calls generalizing n names r with
  | nil =>
      have hnil : names = [] := List.map_eq_nil_iff.1 hnames.symm
      rw [hnil]
      rfl
  | cons call calls ih =>
      obtain ⟨name, names, rfl⟩ : ∃ name rest, names = name :: rest := by
        cases names with
        | nil => cases hnames
        | cons name names => exact ⟨name, names, rfl⟩
      obtain ⟨hname, hrest⟩ := List.cons.inj hnames
      have hnext : ∀ i column value, calls[i]? = some (.addColumnValue column value) →
          value ≠ .sqlNow → parameters (placeholderName (n + 1 + i)) = some value.bindForm := by
        intro i column value hcall hvalue
        have hbound' := hbound (i + 1) column value hcall hvalue
        rwa [Nat.add_comm i 1, ← Nat.add_assoc] at hbound'
      have hvalue : S.expressionValue parameters table name.folded (call.read n)
          = InsertRequest.valueOf S table call := by
        cases call with
        | addColumn column =>
            show S.default table (lower name.text) = S.default table (lower column)
            rw [← hname]
            rfl
        | addColumnValue column value =>
            by_cases hnow : value = .sqlNow
            · rw [InsertCall.read, if_pos hnow, InsertRequest.valueOf, hnow]
              rfl
            · have hparameter : parameters (placeholderName n) = some value.bindForm :=
                hbound 0 column value rfl hnow
              have hasked : S.asked value = value.bindForm := by
                cases value <;> first | rfl | exact absurd rfl hnow
              rw [InsertCall.read, if_neg hnow, InsertRequest.valueOf, hasked]
              show (parameters (placeholderName n)).getD _ = _
              rw [hparameter]
              rfl
      rw [List.zipIdx_cons, List.map_cons, List.zip_cons_cons, List.foldl_cons,
        ← ih (n + 1) hrest hnext, ← hvalue, hname]
      rfl

/-! ### INSERT -/

namespace SqlInsertQueryBuilder

variable {b : SqlInsertQueryBuilder} {q : InsertRequest}

/-- Text and bind list are those of a builder that has just got the calls. -/
theorem Asks.toText (h : b.Asks q) : b.toText = (insertBuilder [] q.table q.calls).toText := by
  have hnames := columnNames_insertBuilder [] q.table q.calls
  have hvalues := values_insertBuilder [] q.table q.calls
  have htable := table_insertBuilder [] q.table q.calls
  rw [SqlInsertQueryBuilder.toText, SqlInsertQueryBuilder.toText, h.table, h.columnNames, h.values,
    hnames, hvalues, htable]

theorem Asks.bindList (h : b.Asks q) : b.bindList = (insertBuilder [] q.table q.calls).bindList := by
  have hnames := columnNames_insertBuilder [] q.table q.calls
  have hvalues := values_insertBuilder [] q.table q.calls
  rw [SqlInsertQueryBuilder.bindList, SqlInsertQueryBuilder.bindList, h.columnNames, h.values, hnames,
    hvalues]

/-- **An INSERT adds the row that is asked for.** -/
theorem Asks.exec (S : Server) (h : b.Asks q) (hb : b.assembled = false) {table : PlainName}
    (htable : q.table = table.text) {names : List PlainName}
    (hnames : q.calls.map InsertCall.columnName = names.map PlainName.text)
    (hdistinct : distinctNames (names.map PlainName.folded)) (hplace : InPlace q.calls)
    {binds : List (QString × QVariant)} (hbinds : NoneGenerated binds) (rows : Rows) :
    S.exec (Builder.statement (k := .insert) b.assemble binds) rows
      = some (rows ++ [(table.folded, q.row S)]) := by
  have hnodup : (q.calls.map InsertCall.columnName).Nodup := by
    have hfolded : ((names.map PlainName.text).map lower).Nodup := by
      rw [List.map_map]
      exact distinctNames_iff.1 hdistinct
    rw [hnames]
    exact hfolded.of_map _
  have hassemble := assemble_eq b hb
  have htext : Builder.queryString (k := .insert) b.assemble
      = insertStatement table.text (q.calls.map InsertCall.columnName)
          (q.calls.zipIdx.map fun c => c.1.expression c.2) := by
    rw [← htable, ← text_insertBuilder hnodup [] q.table, ← h.toText, hassemble]
    rfl
  have hvalues : Builder.bindCalls (k := .insert) b.assemble
      = QSqlResult.bindCalls (insertBuilder [] q.table q.calls).bindList := by
    rw [hassemble, ← h.bindList]
    rfl
  have hbound : ∀ i column value, q.calls[i]? = some (.addColumnValue column value) →
      value ≠ .sqlNow →
      (Builder.statement (k := .insert) b.assemble binds).boundValue (placeholderName (0 + i))
        = some value.bindForm := by
    intro i column value hcall hvalue
    obtain ⟨column', value', hmem, hform, hrank⟩ := hplace i column value hcall hvalue
    have hrow := (boundValue_insertBuilder_iff hnodup [] q.table i value.bindForm).2
      ⟨column', value', hmem, (boundForm_eq_some_bindForm hvalue).2 hform, hrank⟩
    rw [Nat.zero_add, boundValue_statement_generated hvalues hbinds]
    simpa [SqlInsertQueryBuilder.boundQuery, QSqlResult.boundValue_bindLoop, QSqlResult.prepared]
      using hrow
  rw [Server.exec, lastQuery_statement, htext]
  by_cases hne : q.calls = []
  · rw [hne, List.map_nil, words_insertDefaults, Modification.read_insertDefaults, Option.bind_some,
      Modification.execute, InsertRequest.row, hne, htable]
    rfl
  · obtain ⟨name, rest, rfl⟩ : ∃ name rest, names = name :: rest := by
      apply List.exists_cons_of_ne_nil
      rintro rfl
      exact hne (List.map_eq_nil_iff.1 hnames)
    obtain ⟨e, es, hes⟩ : ∃ e es, (q.calls.zipIdx.map fun c => c.1.read c.2) = e :: es := by
      apply List.exists_cons_of_ne_nil
      simpa using hne
    have hlength : (name :: rest).length = (e :: es).length := by
      have hlengths := congrArg List.length hnames
      rw [← hes]
      simpa using hlengths.symm
    have hassign := assign_zip S table.folded 0 hnames hbound (S.default table.folded)
    rw [hes] at hassign
    rw [words_insertStatement table hnames hne, hes, Modification.read_insert, Option.bind_some,
      Modification.execute, hdistinct, decide_eq_true hlength, Bool.and_self, if_pos rfl, hassign,
      InsertRequest.row, htable]
    rfl

end SqlInsertQueryBuilder

end Sqlate
