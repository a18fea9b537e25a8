/-
Sqlate/DeleteBinding.lean

A DELETE and a SELECT with the same where condition.

`SqlDeleteQueryBuilder::query` binds its values in a loop of its own, which tests for
UUIDs and not for `SqlNow`; a SELECT binds through `bindValue`, which tests for both.
No `SqlNow` is ever registered, so the driver gets the same calls from both.  The WHERE
texts are the same up to the white space at the end, which DELETE removes together
with that of the whole statement (`delete_binds_as_select`).
-/
import Sqlate.Placeholders
import Sqlate.QueryCache

namespace Sqlate

/-! ### Texts without white space at the end -/

namespace SqlText

/-- A generated placeholder ends in a digit. -/
theorem rdropWhile_append_placeholderName (s : QString) (n : Nat) :
    (s ++ placeholderName n).rdropWhile QChar.isSpace = s ++ placeholderName n := by
  have hnumber := QString.number_ne_nil n
  have htext : s ++ placeholderName n = (s ++ latin1 ":") ++ QString.number n :=
    (List.append_assoc s (latin1 ":") _).symm
  rw [htext, List.rdropWhile_eq_self_iff]
  intro hne
  have hdigit := QString.val_of_mem_number (List.getLast_mem hnumber)
  rw [List.getLast_append_of_ne_nil hne hnumber]
  simp only [QChar.isSpace, Bool.or_eq_true, Bool.and_eq_true, decide_eq_true_eq, beq_iff_eq]
  omega

theorem toQString_rdropWhile (t : SqlText) :
    toQString (t.rdropWhile Sym.isSpace) = (toQString t).rdropWhile QChar.isSpace := by
  induction t using List.reverseRecOn with
  | nil => rfl
  | append_singleton t x ih =>
      rw [List.rdropWhile_concat, toQString_append]
      cases x with
      | ch c =>
          show _ = (toQString t ++ [c]).rdropWhile _
          rw [List.rdropWhile_concat]
          show toQString (if c.isSpace = true then _ else _) = _
          split_ifs
          · exact ih
          · rw [toQString_append]
            rfl
      | bound n v =>
          show toQString (t ++ [.bound n v]) = (toQString t ++ (placeholderName n ++ [])).rdropWhile _
          rw [List.append_nil, rdropWhile_append_placeholderName, toQString_append]
          show _ ++ (placeholderName n ++ []) = _
          rw [List.append_nil]

/-- Only the end of the last part that is more than white space is cut. -/
theorem rdropWhile_append_of_ne_nil (s : SqlText) {t : SqlText}
    (h : t.rdropWhile Sym.isSpace ≠ []) :
    (s ++ t).rdropWhile Sym.isSpace = s ++ t.rdropWhile Sym.isSpace := by
  have hreverse : (t.reverse.dropWhile Sym.isSpace) ≠ [] := fun hnil => h (by
    rw [List.rdropWhile, hnil, List.reverse_nil])
  rw [List.rdropWhile, List.reverse_append, List.dropWhile_append,
    if_neg (by rwa [List.isEmpty_iff]), List.reverse_append, List.reverse_reverse]
  rfl

end SqlText

/-! ### The WHERE texts -/

/-- What stands behind the table in the text of a DELETE. -/
def SqlDeleteQueryBuilder.whereText (b : SqlDeleteQueryBuilder) : QString :=
  (SqlText.toQString b.queryString).drop (SqlText.toQString b.deleteClause).length

/-- What stands between the table and the next clause in the text of a SELECT without
joins. -/
def SqlSelectQueryBuilder.whereText (b : SqlSelectQueryBuilder) : QString :=
  ((SqlText.toQString b.queryString).drop (SqlText.toQString b.selectClause).length).rdrop
    (SqlText.toQString b.tailClauses).length

theorem SqlSelectQueryBuilder.whereText_assemble {b : SqlSelectQueryBuilder}
    (h : b.assembled = false) (hjoins : b.joins = []) :
    b.assemble.whereText = SqlText.toQString (b.whereTextFrom b.nextNumber) := by
  have hclauses : b.assemble.selectClause = b.selectClause ∧ b.assemble.tailClauses = b.tailClauses := by
    rw [assemble_eq b h]
    exact ⟨rfl, rfl⟩
  have htext : SqlText.toQString b.assemble.queryString
      = SqlText.toQString b.selectClause ++ SqlText.toQString (b.whereTextFrom b.nextNumber)
        ++ SqlText.toQString b.tailClauses := by
    rw [assemble_eq b h]
    show SqlText.toQString (b.textFrom b.nextNumber) = _
    rw [textFrom, hjoins]
    simp [joinsTextFrom]
  rw [whereText, hclauses.1, hclauses.2, htext, List.append_assoc, List.drop_left,
    List.rdrop_append_length]

/-- **The WHERE text of a DELETE** has no white space at its end. -/
theorem SqlDeleteQueryBuilder.whereText_assemble {b : SqlDeleteQueryBuilder}
    (h : b.assembled = false) :
    b.assemble.whereText
      = (SqlText.toQString (b.whereTextFrom b.bindedValuesOffset)).rdropWhile QChar.isSpace := by
  have hclause : b.assemble.deleteClause = b.deleteClause := by
    rw [assemble_eq b h]
    rfl
  have htext : b.assemble.queryString
      = (b.deleteClause ++ b.whereTextFrom b.bindedValuesOffset).rdropWhile Sym.isSpace := by
    rw [assemble_eq b h]
    rfl
  rw [whereText, hclause, htext, SqlConditionalQueryBuilderBase.whereTextFrom]
  by_cases hsub : b.whereCondition.hasSubConditions = true
  · have hword : (sql " WHERE " ++ b.whereCondition.textFrom b.bindedValuesOffset).rdropWhile Sym.isSpace
        ≠ [] := by
      rw [Ne, List.rdropWhile_eq_nil_iff]
      intro hspace
      exact absurd (hspace (.ch (QChar.ofChar 'W')) (List.mem_append_left _ (by decide))) (by decide)
    rw [if_pos hsub, SqlText.rdropWhile_append_of_ne_nil _ hword, SqlText.toQString_append,
      List.drop_left, SqlText.toQString_rdropWhile]
  · -- without a condition, white space behind the table may go
    rw [if_neg hsub, List.append_nil, SqlText.toQString_rdropWhile]
    exact List.drop_eq_nil_of_le (List.rdropWhile_prefix _ _).length_le

/-! ### The bindings -/

/-- Without `SqlNow` the two loops make the same calls. -/
theorem QSqlResult.bindCalls_of_not_mem {values : List QVariant} (h : QVariant.sqlNow ∉ values) :
    bindCalls values = values.zipIdx.map fun v => (placeholderName v.2, v.1.bindForm) := by
  rw [bindCalls, ← List.filterMap_eq_map]
  refine List.filterMap_congr fun v hv => ?_
  have hne : v.1 ≠ .sqlNow := by
    rintro heq
    exact h (heq ▸ List.fst_mem_of_mem_zipIdx hv)
  obtain ⟨value, i⟩ := v
  cases value with
  | sqlNow => exact absurd rfl hne
  | _ => rfl

theorem SqlDeleteQueryBuilder.bindCalls_assemble {b : SqlDeleteQueryBuilder}
    (h : b.assembled = false) :
    Builder.bindCalls (k := .delete) b.assemble
      = b.whereValues.zipIdx.map fun v => (placeholderName v.2, v.1.bindForm) := by
  rw [assemble_eq b h]
  rfl

theorem SqlSelectQueryBuilder.bindCalls_assemble {b : SqlSelectQueryBuilder}
    (h : b.assembled = false) (hjoins : b.joins = []) (hnone : b.bindValues = []) :
    Builder.bindCalls (k := .select) b.assemble
      = b.whereValues.zipIdx.map fun v => (placeholderName v.2, v.1.bindForm) := by
  rw [assemble_eq b h]
  show QSqlResult.bindCalls (b.bindValues ++ b.boundValues) = _
  rw [hnone, boundValues, hjoins]
  exact QSqlResult.bindCalls_of_not_mem (sqlNow_not_mem_whereValues _)

namespace Builder

theorem assembled_after_calls [CaseFolding] (db : QString) {k : Kind} (calls : List (Call k)) :
    (after db (calls.map Step.call)).assembled = false := by
  refine Runs.run_invariant (P := fun _ e => ∃ c, e = Step.call c)
    (I := fun b : Builder k => b.assembled = false) ?_ ?_ ?_
  · rintro b e hb ⟨c, rfl⟩
    rwa [step, assembled_apply]
  · cases k <;> rfl
  · rw [Runs.along_iff]
    intro pre e post heq
    have hmem : e ∈ calls.map Step.call := by
      rw [heq]
      exact List.mem_append_right pre List.mem_cons_self
    obtain ⟨c, -, rfl⟩ := List.mem_map.mp hmem
    exact ⟨c, rfl⟩

end Builder

section
variable [CaseFolding]

/-- **A DELETE binds as a fresh SELECT does**: the where conditions are the same, and there
are no joins.  The WHERE text of the DELETE is that of the SELECT up to the white space at
its end. -/
theorem delete_binds_as_select (db db' : QString) {steps : List (Step .delete)}
    {calls : List (Call .select)}
    (hassembled : (Builder.after db steps : Builder .delete).assembled = false)
    (hjoins : (Builder.after db' (calls.map Step.call) : Builder .select).joins = [])
    (hwhere : (Builder.after db steps : Builder .delete).whereCondition
      = (Builder.after db' (calls.map Step.call) : Builder .select).whereCondition) :
    let d : Builder .delete := Builder.after db steps
    let s : Builder .select := Builder.after db' (calls.map Step.call)
    Builder.bindCalls d.assemble = Builder.bindCalls s.assemble ∧
      d.assemble.whereText = s.assemble.whereText.rdropWhile QChar.isSpace := by
  intro d s
  have hfresh : s.assembled = false := Builder.assembled_after_calls db' calls
  have hquery : Step.query ∉ calls.map Step.call := by simp
  have hnone : s.bindValues = [] := Builder.registered_after_eq_nil db' hquery
  -- both number from zero
  have hoffset : d.bindedValuesOffset = 0 := (Builder.plain_after db steps).offset
  have hstart : s.bindedValuesOffset = 0 := (Builder.plain_after db' (calls.map Step.call)).offset
  have hnext : s.nextNumber = 0 := by
    rw [SqlConditionalQueryBuilderBase.nextNumber, hstart, hnone]
    rfl
  have hvalues : d.whereValues = s.whereValues := by
    rw [SqlConditionalQueryBuilderBase.whereValues, hwhere]
    rfl
  have htext : d.whereTextFrom 0 = s.whereTextFrom 0 := by
    rw [SqlConditionalQueryBuilderBase.whereTextFrom, hwhere]
    rfl
  constructor
  · calc Builder.bindCalls d.assemble
        = d.whereValues.zipIdx.map (fun v => (placeholderName v.2, v.1.bindForm)) :=
          SqlDeleteQueryBuilder.bindCalls_assemble hassembled
      _ = s.whereValues.zipIdx.map (fun v => (placeholderName v.2, v.1.bindForm)) := by rw [hvalues]
      _ = Builder.bindCalls s.assemble :=
          (SqlSelectQueryBuilder.bindCalls_assemble hfresh hjoins hnone).symm
  · have hselect : s.assemble.whereText = SqlText.toQString (s.whereTextFrom s.nextNumber) :=
      SqlSelectQueryBuilder.whereText_assemble hfresh hjoins
    calc d.assemble.whereText
        = (SqlText.toQString (d.whereTextFrom d.bindedValuesOffset)).rdropWhile QChar.isSpace :=
          SqlDeleteQueryBuilder.whereText_assemble hassembled
      _ = (SqlText.toQString (s.whereTextFrom s.nextNumber)).rdropWhile QChar.isSpace := by
          rw [hoffset, hnext, htext]
      _ = s.assemble.whereText.rdropWhile QChar.isSpace := by rw [hselect]

end

/-! ### Two where conditions -/

/-- The calls that set up a where condition, for either builder. -/
def whereCalls (calls : List ConditionCall) : List ConditionalCall :=
  .setTable (latin1 "t") :: calls.map .whereCondition

def deleteWhere [CaseFolding] (calls : List ConditionCall) : Builder .delete :=
  Builder.after (latin1 "db") ((whereCalls calls).map fun c => .call (.conditional c))

def selectWhere [CaseFolding] (calls : List ConditionCall) : Builder .select :=
  Builder.after (latin1 "db") (((whereCalls calls).map SelectCall.conditional).map Step.call)

/-- A UUID, a NULL and the server side time. -/
def valueConditions : List ConditionCall :=
  [.addValueCondition ⟨latin1 "id", List.cons_ne_nil _ _⟩ .equals (.uuid ⟨7⟩),
    .addValueCondition ⟨latin1 "gone", List.cons_ne_nil _ _⟩ .is .invalid,
    .addValueCondition ⟨latin1 "seen", List.cons_ne_nil _ _⟩ .less .sqlNow]

theorem delete_binds_as_select_valueConditions :
    let _ : CaseFolding := .ascii
    Builder.bindCalls (deleteWhere valueConditions).assemble
        = Builder.bindCalls (selectWhere valueConditions).assemble ∧
      (deleteWhere valueConditions).assemble.whereText
        = (selectWhere valueConditions).assemble.whereText.rdropWhile QChar.isSpace := by
  intro _
  exact delete_binds_as_select _ _ rfl rfl rfl

/-- **A column name with a space behind it**: the DELETE loses the space. -/
theorem whereText_ne_spaceBehind :
    let _ : CaseFolding := .ascii
    let calls : List ConditionCall :=
      [.addColumnCondition ⟨latin1 "a", List.cons_ne_nil _ _⟩ .equals ⟨latin1 "b ", List.cons_ne_nil _ _⟩]
    (deleteWhere calls).whereCondition = (selectWhere calls).whereCondition ∧
      (deleteWhere calls).assemble.whereText = latin1 " WHERE a = b" ∧
      (selectWhere calls).assemble.whereText = latin1 " WHERE a = b " ∧
      (deleteWhere calls).assemble.whereText ≠ (selectWhere calls).assemble.whereText := by
  intro _ calls
  exact ⟨rfl, by decide, by decide, by decide⟩

end Sqlate
