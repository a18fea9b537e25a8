/-
Sqlate/StatementEffects.lean

What the server does when a program executes a DELETE builder.

The text of the builder goes through the server's reader, and the values through the
placeholders; what comes out is what is asked for (`SqlDeleteQueryBuilder.Asks.exec`):
the rows that satisfy the condition are removed, and all others stay as they are.  This
holds with any values that the program binds to its own placeholders, and for any
server.

The bindings, the words of a text and the WHERE clause are shared with the other
statements.
-/
import Sqlate.Base.Writes
import Sqlate.StatementRequests

namespace Sqlate

/-! ### Bindings -/

/-- The statement object of a builder, with what the caller has bound to it since. -/
def Builder.statement {k : Kind} (b : Builder k) (binds : List (QString × QVariant)) : QSqlResult :=
  (b.bindCalls ++ binds).foldl (fun r call => r.bindValue call.1 call.2)
    (.prepared (SqlText.toQString b.queryString))

/-- What the caller has bound to a placeholder. -/
def givenBy (binds : List (QString × QVariant)) (w : QString) : QVariant :=
  (Store.writes (fun _ => none) binds w).getD .invalid

/-- The caller binds no generated placeholder. -/
def NoneGenerated (binds : List (QString × QVariant)) : Prop :=
  ∀ call ∈ binds, ∀ n, call.1 ≠ placeholderName n

theorem boundValue_foldl (calls : List (QString × QVariant)) (r : QSqlResult) :
    (calls.foldl (fun r call => r.bindValue call.1 call.2) r).boundValue
      = Store.writes r.boundValue calls := by
  induction calls generalizing r with
  | nil => rfl
  | cons call calls ih =>
      rw [List.foldl_cons, ih]
      rfl

theorem lastQuery_foldl (calls : List (QString × QVariant)) (r : QSqlResult) :
    (calls.foldl (fun r call => r.bindValue call.1 call.2) r).lastQuery = r.lastQuery := by
  induction calls generalizing r with
  | nil => rfl
  | cons call calls ih => exact ih _

theorem lastQuery_statement {k : Kind} (b : Builder k) (binds : List (QString × QVariant)) :
    (b.statement binds).lastQuery = SqlText.toQString b.queryString := lastQuery_foldl _ _

theorem writes_bindCalls (values : List QVariant) (i : Nat) :
    Store.writes (fun _ => none) (QSqlResult.bindCalls values) (placeholderName i)
      = values[i]?.bind boundForm := by
  have hbound := QSqlResult.boundValue_bindLoop (.prepared []) values i
  rw [QSqlResult.bindLoop_eq_foldl_bindCalls, boundValue_foldl] at hbound
  simpa [QSqlResult.prepared] using hbound

theorem exists_of_mem_bindCalls {values : List QVariant} {w : QString}
    (h : w ∈ (QSqlResult.bindCalls values).map Prod.fst) : ∃ n, w = placeholderName n := by
  obtain ⟨call, hcall, rfl⟩ := List.mem_map.1 h
  obtain ⟨⟨value, n⟩, -, heq⟩ := List.mem_filterMap.1 hcall
  cases value with
  | sqlNow => cases heq
  | _ => exact ⟨n, (congrArg Prod.fst (Option.some.inj heq)).symm⟩

section
variable {k : Kind} {b : Builder k} {values : List QVariant} {binds : List (QString × QVariant)}

/-- The caller does not touch the generated placeholders. -/
theorem boundValue_statement_generated (hcalls : b.bindCalls = QSqlResult.bindCalls values)
    (hbinds : NoneGenerated binds) (i : Nat) :
    (b.statement binds).boundValue (placeholderName i) = values[i]?.bind boundForm := by
  have hnone : placeholderName i ∉ binds.map Prod.fst := by
    intro hmem
    obtain ⟨call, hcall, hname⟩ := List.mem_map.1 hmem
    exact hbinds call hcall i hname
  rw [Builder.statement, boundValue_foldl, Store.writes_append, Store.writes_of_not_mem hnone, hcalls]
  exact writes_bindCalls values i

/-- Ordinary values are bound as they are, behind any others. -/
theorem boundFrom_statement (others : List QVariant)
    (hcalls : b.bindCalls = QSqlResult.bindCalls (others ++ values)) (hbinds : NoneGenerated binds)
    (hnow : QVariant.sqlNow ∉ values) : BoundFrom (b.statement binds).boundValue others.length values := by
  intro i v hv
  have hne : v ≠ .sqlNow := fun h => hnow (h ▸ List.mem_of_getElem? hv)
  rw [boundValue_statement_generated hcalls hbinds, List.getElem?_append_right (Nat.le_add_right _ i),
    Nat.add_sub_cancel_left, hv]
  exact boundForm_of_ne hne

/-- Nor does the builder touch those of the caller. -/
theorem boundValue_statement_deferred (hcalls : b.bindCalls = QSqlResult.bindCalls values) {w : QString}
    (hw : ∀ n, w ≠ placeholderName n) :
    ((b.statement binds).boundValue w).getD .invalid = givenBy binds w := by
  have hgenerated : w ∉ (QSqlResult.bindCalls values).map Prod.fst := by
    intro hmem
    obtain ⟨n, hn⟩ := exists_of_mem_bindCalls hmem
    exact hw n hn
  rw [Builder.statement, boundValue_foldl, Store.writes_append, hcalls, givenBy]
  by_cases hmem : w ∈ binds.map Prod.fst
  · obtain ⟨v, -, hwrites⟩ := Store.writes_of_mem hmem
    rw [hwrites, hwrites]
  · rw [Store.writes_of_not_mem hmem, Store.writes_of_not_mem hgenerated,
      Store.writes_of_not_mem hmem]
    rfl

end

/-! ### The words of the text -/

theorem words_trimmed (t : SqlText) : words (SqlText.trimmed t).toQString = words t.toQString := by
  have hblank : ∀ {c : QChar}, c.isSpace = true → words [c] = [] := by
    intro c hc
    show [[c]].filter (!isBlank ·) = []
    simp [isBlank, hc]
  have hsep : ∀ {c : QChar}, c.isSpace = true → separates c = true := by
    intro c hc
    simp [separates, charKind, hc]
  have hdrop : ∀ t : SqlText, words (SqlText.toQString (t.dropWhile Sym.isSpace)) = words t.toQString := by
    intro t
    induction t with
    | nil => rfl
    | cons x t ih =>
        rw [List.dropWhile_cons]
        cases x with
        | bound n v => rfl
        | ch c =>
            show words (SqlText.toQString (if c.isSpace = true then _ else _)) = _
            split_ifs with hc
            · have hleft : ∀ d ∈ ([c] : QString).getLast?, separates d = true :=
                separates_of_mem rfl (hsep hc)
              show _ = words ([c] ++ SqlText.toQString t)
              rw [ih, words_append_of_left hleft, hblank hc, List.nil_append]
            · rfl
  have hrdrop : ∀ t : SqlText, words (SqlText.toQString (t.rdropWhile Sym.isSpace)) = words t.toQString := by
    intro t
    induction t using List.reverseRecOn with
    | nil => rfl
    | append_singleton t x ih =>
        rw [List.rdropWhile_concat]
        cases x with
        | bound n v => rfl
        | ch c =>
            show words (SqlText.toQString (if c.isSpace = true then _ else _)) = _
            split_ifs with hc
            · have hright : ∀ d ∈ ([c] : QString).head?, separates d = true :=
                separates_of_mem rfl (hsep hc)
              show _ = words (SqlText.toQString (t ++ [Sym.ch c]))
              rw [SqlText.toQString_append]
              show _ = words (SqlText.toQString t ++ [c])
              rw [ih, words_append_of_right hright, hblank hc, List.append_nil]
            · rfl
  rw [SqlText.trimmed, hrdrop, hdrop]

/-- A piece behind which a new word begins. -/
theorem words_piece {s : String} {ws : List QString} {c : QChar}
    (hlast : (latin1 s).getLast? = some c) (hc : separates c = true) (hwords : words (latin1 s) = ws)
    (t : QString) : words (latin1 s ++ t) = ws ++ words t := by
  rw [words_append_of_left (separates_of_mem hlast hc), hwords]

/-- A name in front of something that begins a new word. -/
theorem words_name {w : QString} (hw : isName w = true) {t : QString}
    (ht : ∀ c ∈ t.head?, separates c = true) : words (w ++ t) = [w] ++ words t := by
  rw [words_append_of_right ht, words_of_isName hw]

theorem words_only (only : Bool) (t : QString) :
    words ((SqlText.toQString (if only then sql "ONLY " else [])) ++ t) = onlyWords only ++ words t := by
  cases only with
  | false => rfl
  | true =>
      rw [if_pos rfl, SqlText.toQString_sql]
      exact words_piece rfl separates_space (by decide) t

/-! ### The WHERE clause -/

/-- The WHERE clause begins a new word. -/
theorem separates_whereTextFrom (b : SqlConditionalQueryBuilderBase) (n : Nat) :
    ∀ c ∈ (b.whereTextFrom n).toQString.head?, separates c = true := by
  rw [SqlConditionalQueryBuilderBase.whereTextFrom]
  split
  · intro c hc
    rw [SqlText.toQString_append, SqlText.toQString_sql] at hc
    exact separates_of_mem rfl separates_space c hc
  · intro c hc
    cases hc

section
variable [CaseFolding] {q : RowRequest} {b : SqlConditionalQueryBuilderBase}

/-- **The WHERE clause selects the rows that are asked for.** -/
theorem SqlConditionalQueryBuilderBase.Asks.isWhere (S : Server) {table : PlainName}
    (hb : b.Asks q) (htable : q.table = table.text) (hnamed : NamedCalls (.table table.text) true q.calls)
    {given : QString → QVariant} {parameters : Parameters} (n : Nat)
    (hbound : BoundFrom parameters n b.whereValues)
    (hdeferred : ∀ w, IsDeferred w → (parameters w).getD .invalid = given w) :
    ∃ condition, IsWhere (words (b.whereTextFrom n).toQString) condition
      ∧ conditionResolves (.table table.text) condition
      ∧ ∀ x, S.selects parameters (!q.includeSubTables) table condition x = q.selects S given x := by
  have hselects : ∀ x, q.selects S given x = (S.concerns (!q.includeSubTables) table.folded x.1
      && (!b.whereCondition.hasSubConditions
        || (lastOperator q.logicOp q.calls).connective.fold
            (S.truthsOf (.table table.text) given x.2 true q.calls) = .true)) := by
    intro x
    rw [RowRequest.selects, RowRequest.whereTruths, hb.whereCondition, htable]
    rfl
  rw [whereTextFrom]
  by_cases hsub : b.whereCondition.hasSubConditions = true
  · have hvalues : b.whereValues = q.whereCondition.boundValues := by
      rw [whereValues, if_pos hsub, hb.whereCondition]
    have hne : q.whereCondition.subConditions ≠ [] := by
      rw [hb.whereCondition] at hsub
      simpa [SqlCondition.hasSubConditions] using hsub
    rw [hvalues] at hbound
    obtain ⟨e, hread, -, hresolves, heval⟩ :=
      conditionRead_of_named S hnamed hne n hbound hdeferred
    refine ⟨some e, ?_, hresolves, fun x => ?_⟩
    · rw [if_pos hsub, hb.whereCondition, SqlText.toQString_append, SqlText.toQString_sql,
        words_piece rfl separates_space (by decide : words (latin1 " WHERE ") = kw "WHERE")]
      exact .clause hread
    · rw [hselects, hsub]
      show (_ && decide (e.eval _ = _)) = _
      rw [heval]
      rfl
  · refine ⟨none, ?_, rfl, fun x => ?_⟩
    · rw [if_neg hsub]
      exact .absent
    · rw [hselects, Bool.eq_false_of_not_eq_true hsub]
      rfl

end

/-! ### DELETE -/

theorem SqlDeleteQueryBuilder.words_textFrom (b : SqlDeleteQueryBuilder) {table : PlainName}
    (htable : b.table = table.text) (n : Nat) :
    words (b.textFrom n).toQString
      = kw "DELETE" ++ (kw "FROM" ++ (onlyWords (!b.includeSubTables) ++ ([table.text]
        ++ words (b.whereTextFrom n).toQString))) := by
  have hdelete : words (latin1 "DELETE FROM ") = kw "DELETE" ++ kw "FROM" := by decide
  rw [textFrom, words_trimmed, deleteClause, htable]
  simp only [SqlText.toQString_append, SqlText.toQString_sql, SqlText.toQString_raw,
    List.append_assoc]
  rw [words_piece rfl separates_space hdelete, words_only,
    words_name table.isName (separates_whereTextFrom _ n), List.append_assoc]

section
variable [CaseFolding]

/-- **A DELETE removes the rows that are asked for**, and no others. -/
theorem SqlDeleteQueryBuilder.Asks.exec (S : Server) {b : SqlDeleteQueryBuilder} {q : RowRequest}
    (h : b.Asks q) (hb : b.assembled = false) {table : PlainName} (htable : q.table = table.text)
    (hnamed : NamedCalls (.table table.text) true q.calls) {binds : List (QString × QVariant)}
    (hbinds : NoneGenerated binds) (rows : Rows) :
    S.exec (Builder.statement (k := .delete) b.assemble binds) rows
      = some (rows.filter fun x => !q.selects S (givenBy binds) x) := by
  have hnow := sqlNow_not_mem_whereValues b.toSqlConditionalQueryBuilderBase
  have hvalues : Builder.bindCalls (k := .delete) b.assemble = QSqlResult.bindCalls b.whereValues := by
    rw [QSqlResult.bindCalls_of_not_mem hnow]
    exact SqlDeleteQueryBuilder.bindCalls_assemble hb
  have hstatement : Builder.queryString (k := .delete) b.assemble = b.textFrom 0 := by
    rw [SqlDeleteQueryBuilder.assemble_eq b hb, h.base.bindedValuesOffset]
    rfl
  have hparameter : BoundFrom (Builder.statement (k := .delete) b.assemble binds).boundValue 0 b.whereValues :=
    boundFrom_statement [] hvalues hbinds hnow
  obtain ⟨condition, hwhere, hresolves, hselects⟩ := h.base.isWhere S htable hnamed 0 hparameter
    fun w hw => boundValue_statement_deferred hvalues hw.notGenerated
  rw [Server.exec, lastQuery_statement, hstatement,
    b.words_textFrom (h.base.table.trans htable), h.includeSubTables,
    Modification.read_delete _ _ hwhere, Option.bind_some, Modification.execute, if_pos hresolves]
  congr 1
  apply List.filter_congr
  intro x _
  rw [hselects]

end

end Sqlate
