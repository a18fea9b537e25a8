/-
Sqlate/ValueErasure.lean

The values of a statement never reach its text.

*Erasing* replaces every value by a fixed one of the same type; two calls, or
two conditions, or two builders differ in their values only when their
erasures are equal.  Erasing commutes with everything the builders do:
rendering the erased condition gives the erased text (`erase_textFrom`), and
the erasure of a builder after a step depends on the erasures of the builder
and the step only (`erase_step`).  Since an erased text consists of the same
characters, two runs that differ in values only have the same statement text
(`toQString_queryString_eq`).
-/
import Sqlate.CombinedQueries

/-! ### Erasing values -/

namespace QVariant

/-- A fixed value of the same type. -/
def erase : QVariant → QVariant
  | string _ => string []
  | uuid _ => uuid ⟨0⟩
  | other id _ => other id []
  | v => v

@[simp] theorem userType_erase (v : QVariant) : v.erase.userType = v.userType := by
  cases v <;> rfl

@[simp] theorem isValid_erase (v : QVariant) : v.erase.isValid = v.isValid := by
  cases v <;> rfl

@[simp] theorem erase_erase (v : QVariant) : v.erase.erase = v.erase := by
  cases v <;> rfl

/-- Erasing keeps exactly the type and the validity. -/
theorem erase_eq_iff {v w : QVariant} :
    v.erase = w.erase ↔ v.userType = w.userType ∧ v.isValid = w.isValid := by
  constructor
  · intro h
    rw [← userType_erase v, ← isValid_erase v, h]
    simp
  · rintro ⟨htype, -⟩
    cases v <;> cases w <;> simp_all [userType, erase]

end QVariant

namespace Sqlate

/-! ### Erased texts -/

namespace Sym

def erase : Sym → Sym
  | ch c => ch c
  | bound n v => bound n v.erase

end Sym

namespace SqlText

def erase (t : SqlText) : SqlText := t.map Sym.erase

/-- **The erased text consists of the same characters.** -/
@[simp] theorem toQString_erase (t : SqlText) : toQString (erase t) = toQString t := by
  induction t with
  | nil => rfl
  | cons x t ih =>
      rw [toQString_cons, ← ih]
      cases x <;> rfl

@[simp] theorem erase_nil : erase [] = [] := rfl

@[simp] theorem erase_append (s t : SqlText) : erase (s ++ t) = erase s ++ erase t := by
  simp [erase]

@[simp] theorem erase_raw (s : QString) : erase (raw s) = raw s := by
  simp [erase, raw, Sym.erase]

@[simp] theorem erase_sql (s : String) : erase (sql s) = sql s := erase_raw _

@[simp] theorem erase_cons_bound (n : Nat) (v : QVariant) (t : SqlText) :
    erase (.bound n v :: t) = .bound n v.erase :: erase t := rfl

/-- A text without generated placeholders has nothing to erase. -/
theorem erase_of_marks_eq_nil {t : SqlText} (h : marks t = []) : erase t = t := by
  induction t with
  | nil => rfl
  | cons x t ih =>
      cases x with
      | bound n v => simp at h
      | ch c =>
          have ht : marks t = [] := h
          rw [erase, List.map_cons, ← erase, ih ht]
          rfl

theorem erase_join (ts : List SqlText) {sep : SqlText} (hsep : marks sep = []) :
    erase (join ts sep) = join (ts.map erase) sep := by
  induction ts with
  | nil => rfl
  | cons s ts ih =>
      cases ts with
      | nil => simp
      | cons t ts =>
          rw [join_cons_cons, erase_append, erase_append, ih, erase_of_marks_eq_nil hsep]
          simp only [List.map_cons, join_cons_cons]

theorem isSpace_erase (x : Sym) : x.erase.isSpace = x.isSpace := by
  cases x <;> rfl

theorem erase_trimmed (t : SqlText) : erase (trimmed t) = trimmed (erase t) := by
  have hspace : Sym.isSpace ∘ Sym.erase = Sym.isSpace := funext isSpace_erase
  simp only [erase, trimmed, List.rdropWhile, ← List.map_reverse, List.dropWhile_map, hspace]

/-- Only characters erase to characters. -/
theorem erase_eq_raw_iff {t : SqlText} {s : QString} : erase t = raw s ↔ t = raw s := by
  constructor
  · intro h
    have hchars : ∀ x ∈ t, x.erase = x := by
      intro x hx
      have hmem : x.erase ∈ raw s := h ▸ List.mem_map_of_mem hx
      obtain ⟨c, -, hc⟩ := List.mem_map.mp hmem
      cases x with
      | ch d => rfl
      | bound n v =>
          -- an erased placeholder is still none of the characters of `s`
          cases hc
    rw [← h]
    exact (List.map_id t).symm.trans (List.map_congr_left fun x hx => (hchars x hx).symm)
  · rintro rfl
    exact erase_raw s

theorem isSuffixOf_erase (s : QString) (t : SqlText) :
    (raw s).isSuffixOf (erase t) = (raw s).isSuffixOf t := by
  rw [Bool.eq_iff_iff, List.isSuffixOf_iff_suffix, List.isSuffixOf_iff_suffix]
  constructor
  · rintro ⟨front, h⟩
    obtain ⟨t₁, t₂, rfl, -, h₂⟩ := List.map_eq_append_iff.mp h.symm
    exact ⟨t₁, by rw [erase_eq_raw_iff.mp h₂]⟩
  · rintro ⟨front, rfl⟩
    exact ⟨erase front, by simp⟩

end SqlText

/-! ### Erased conditions -/

mutual

def SqlCondition.erase : SqlCondition → SqlCondition
  | ⟨subConditions, column, comparedColumn, placeholder, comparedValue, compareOp, logicOp,
      isCaseSensitive⟩ =>
    ⟨eraseConditions subConditions, column, comparedColumn, placeholder, comparedValue.erase,
      compareOp, logicOp, isCaseSensitive⟩

def eraseConditions : List SqlCondition → List SqlCondition
  | [] => []
  | c :: cs => c.erase :: eraseConditions cs

end

theorem eraseConditions_append (cs ds : List SqlCondition) :
    eraseConditions (cs ++ ds) = eraseConditions cs ++ eraseConditions ds := by
  induction cs with
  | nil => rfl
  | cons c cs ih => rw [List.cons_append, eraseConditions, ih, eraseConditions, List.cons_append]

@[simp] theorem isEmpty_eraseConditions (cs : List SqlCondition) :
    (eraseConditions cs).isEmpty = cs.isEmpty := by
  cases cs <;> rfl

@[simp] theorem takesNumber_erase (comparedColumn : QString) (v : QVariant) :
    takesNumber comparedColumn v.erase = takesNumber comparedColumn v := by
  simp [takesNumber]

theorem erase_currentDateTime : SqlText.erase currentDateTime = currentDateTime :=
  SqlText.erase_sql _

theorem erase_rightHandSide (n : Nat) (comparedColumn placeholder : QString) (v : QVariant) :
    SqlText.erase (rightHandSide n comparedColumn placeholder v)
      = rightHandSide n comparedColumn placeholder v.erase := by
  simp only [rightHandSide, takesNumber_erase, QVariant.isValid_erase]
  split_ifs <;> simp [erase_currentDateTime]

mutual

theorem boundValues_erase : (c : SqlCondition) →
    c.erase.boundValues = c.boundValues.map QVariant.erase
  | ⟨subConditions, column, comparedColumn, placeholder, comparedValue, compareOp, logicOp, _⟩ => by
      simp only [SqlCondition.erase, SqlCondition.boundValues, isEmpty_eraseConditions,
        takesNumber_erase, boundValuesOf_eraseConditions subConditions]
      split_ifs <;> rfl

theorem boundValuesOf_eraseConditions : (cs : List SqlCondition) →
    boundValuesOf (eraseConditions cs) = (boundValuesOf cs).map QVariant.erase
  | [] => rfl
  | c :: cs => by
      simp only [eraseConditions, boundValuesOf, List.map_append, boundValues_erase c,
        boundValuesOf_eraseConditions cs]

end

mutual

/-- **Rendering an erased condition gives the erased text.** -/
theorem erase_textFrom (n : Nat) : (c : SqlCondition) →
    SqlText.erase (c.textFrom n) = c.erase.textFrom n
  | ⟨subConditions, column, comparedColumn, placeholder, comparedValue, compareOp, logicOp, _⟩ => by
      have hsub := erase_textsFrom n subConditions
      simp only [SqlCondition.erase, SqlCondition.textFrom, isEmpty_eraseConditions]
      split
      · simp [erase_rightHandSide, SqlText.erase_of_marks_eq_nil]
      · rw [← hsub]
        split
        · next cond hone => simp [hone]
        · next conds hmany =>
            -- the number of sub-texts is the same on both sides
            split
            · next cond hone =>
                obtain ⟨t, ht, rfl⟩ := List.map_eq_singleton_iff.mp hone
                exact absurd ht (hmany t)
            · simp [SqlText.erase_join]

theorem erase_textsFrom (n : Nat) : (cs : List SqlCondition) →
    (textsFrom n cs).map SqlText.erase = textsFrom n (eraseConditions cs)
  | [] => rfl
  | c :: cs => by
      simp only [textsFrom, eraseConditions, List.map_cons, erase_textFrom n c,
        erase_textsFrom _ cs, boundValues_erase, List.length_map]

end

/-! ### Erased builders -/

namespace SqlConditionalQueryBuilderBase

def erase (b : SqlConditionalQueryBuilderBase) : SqlConditionalQueryBuilderBase :=
  { b with
    queryString := b.queryString.erase
    whereCondition := b.whereCondition.erase
    bindValues := b.bindValues.map QVariant.erase }

@[simp] theorem hasSubConditions_erase (c : SqlCondition) :
    c.erase.hasSubConditions = c.hasSubConditions := by
  cases c
  simp [SqlCondition.erase, SqlCondition.hasSubConditions]

theorem whereValues_erase (b : SqlConditionalQueryBuilderBase) :
    b.erase.whereValues = b.whereValues.map QVariant.erase := by
  simp only [whereValues, erase, hasSubConditions_erase, boundValues_erase]
  split_ifs <;> rfl

theorem erase_whereTextFrom (b : SqlConditionalQueryBuilderBase) (n : Nat) :
    SqlText.erase (b.whereTextFrom n) = b.erase.whereTextFrom n := by
  simp only [whereTextFrom, erase, hasSubConditions_erase]
  split_ifs <;> simp [Sqlate.erase_textFrom]

end SqlConditionalQueryBuilderBase

def JoinInfo.erase (j : JoinInfo) : JoinInfo := { j with condition := j.condition.erase }

namespace SqlSelectQueryBuilder

def erase (b : SqlSelectQueryBuilder) : SqlSelectQueryBuilder :=
  { b with
    toSqlConditionalQueryBuilderBase := b.toSqlConditionalQueryBuilderBase.erase
    joins := b.joins.map JoinInfo.erase }

theorem joinValues_erase (js : List JoinInfo) :
    (js.map JoinInfo.erase).flatMap (fun j => j.condition.boundValues)
      = (js.flatMap fun j => j.condition.boundValues).map QVariant.erase := by
  simp [List.flatMap_map, List.map_flatMap, JoinInfo.erase, Sqlate.boundValues_erase]

theorem boundValues_erase (b : SqlSelectQueryBuilder) :
    b.erase.boundValues = b.boundValues.map QVariant.erase := by
  rw [boundValues, boundValues, List.map_append, ← joinValues_erase,
    ← SqlConditionalQueryBuilderBase.whereValues_erase]
  rfl

theorem erase_joinsTextFrom (n : Nat) (js : List JoinInfo) :
    SqlText.erase (joinsTextFrom n js) = joinsTextFrom n (js.map JoinInfo.erase) := by
  induction js generalizing n with
  | nil => rfl
  | cons j js ih =>
      simp [joinsTextFrom, JoinInfo.erase, ih, Sqlate.erase_textFrom, Sqlate.boundValues_erase,
        SqlText.erase_of_marks_eq_nil]

theorem erase_textFrom (n : Nat) (b : SqlSelectQueryBuilder) :
    SqlText.erase (b.textFrom n) = b.erase.textFrom n := by
  have hvalues := congrArg List.length (joinValues_erase b.joins)
  rw [List.length_map] at hvalues
  simp only [textFrom, SqlText.erase_append, SqlText.erase_of_marks_eq_nil b.marks_selectClause,
    SqlText.erase_of_marks_eq_nil b.marks_tailClauses, erase_joinsTextFrom,
    SqlConditionalQueryBuilderBase.erase_whereTextFrom, ← hvalues]
  rfl

/-- Rendering commutes with erasing. -/
theorem toString_erase (b : SqlSelectQueryBuilder) :
    b.erase.toString = (b.toString.1.erase, b.toString.2.erase) := by
  rw [toString_eq, toString_eq, boundValues_erase, erase_textFrom]
  simp [erase, SqlConditionalQueryBuilderBase.erase, SqlConditionalQueryBuilderBase.register,
    SqlConditionalQueryBuilderBase.nextNumber]

theorem erase_assemble (b : SqlSelectQueryBuilder) : b.assemble.erase = b.erase.assemble := by
  cases h : b.assembled with
  | true => rw [assemble_of_assembled b h, assemble_of_assembled b.erase h]
  | false =>
      simp only [assemble, show b.erase.assembled = false from h, h, toString_erase]
      rfl

end SqlSelectQueryBuilder

namespace SqlUpdateQueryBuilder

def erase (b : SqlUpdateQueryBuilder) : SqlUpdateQueryBuilder :=
  { b with
    toSqlConditionalQueryBuilderBase := b.toSqlConditionalQueryBuilderBase.erase
    columns := b.columns.map fun col => (col.1, col.2.erase) }

theorem columnValues_erase (b : SqlUpdateQueryBuilder) :
    b.erase.columnValues = b.columnValues.map QVariant.erase := by
  simp only [columnValues, erase, List.map_map, List.filter_map]
  simp [Function.comp_def]

theorem erase_columnsTextFrom (n : Nat) (cols : List (QString × QVariant)) :
    SqlText.erase (columnsTextFrom n cols)
      = columnsTextFrom n (cols.map fun col => (col.1, col.2.erase)) := by
  induction cols generalizing n with
  | nil => rfl
  | cons col cols ih =>
      simp only [columnsTextFrom, List.map_cons, QVariant.userType_erase]
      split_ifs <;> simp [ih, erase_currentDateTime]

theorem erase_removeSeparator (t : SqlText) :
    SqlText.erase (removeSeparator t) = removeSeparator t.erase := by
  have hsuffix := SqlText.isSuffixOf_erase (latin1 ", ") t
  rw [← sql] at hsuffix
  rw [removeSeparator, removeSeparator, hsuffix]
  cases (sql ", ").isSuffixOf t with
  | true => simp [SqlText.erase, List.map_take]
  | false => rfl

theorem erase_textFrom (n : Nat) (b : SqlUpdateQueryBuilder) :
    SqlText.erase (b.textFrom n) = b.erase.textFrom n := by
  simp only [textFrom, SqlText.erase_trimmed, SqlText.erase_append, erase_removeSeparator,
    SqlText.erase_of_marks_eq_nil b.marks_updateClause, erase_columnsTextFrom,
    SqlConditionalQueryBuilderBase.erase_whereTextFrom, columnValues_erase, List.length_map]
  rfl

theorem erase_assemble (b : SqlUpdateQueryBuilder) : b.assemble.erase = b.erase.assemble := by
  cases h : b.assembled with
  | true => rw [assemble_of_assembled b h, assemble_of_assembled b.erase h]
  | false =>
      rw [assemble_eq b h, assemble_eq b.erase h, ← erase_textFrom, boundValues, boundValues,
        columnValues_erase, show b.erase.whereValues = b.whereValues.map QVariant.erase from
          SqlConditionalQueryBuilderBase.whereValues_erase _, ← List.map_append]
      rfl

end SqlUpdateQueryBuilder

namespace SqlDeleteQueryBuilder

def erase (b : SqlDeleteQueryBuilder) : SqlDeleteQueryBuilder :=
  { b with toSqlConditionalQueryBuilderBase := b.toSqlConditionalQueryBuilderBase.erase }

theorem erase_textFrom (n : Nat) (b : SqlDeleteQueryBuilder) :
    SqlText.erase (b.textFrom n) = b.erase.textFrom n := by
  simp only [textFrom, SqlText.erase_trimmed, SqlText.erase_append,
    SqlText.erase_of_marks_eq_nil b.marks_deleteClause,
    SqlConditionalQueryBuilderBase.erase_whereTextFrom]
  rfl

theorem erase_assemble (b : SqlDeleteQueryBuilder) : b.assemble.erase = b.erase.assemble := by
  cases h : b.assembled with
  | true => rw [assemble_of_assembled b h, assemble_of_assembled b.erase h]
  | false =>
      rw [assemble_eq b h, assemble_eq b.erase h, ← erase_textFrom,
        show b.erase.whereValues = b.whereValues.map QVariant.erase from
          SqlConditionalQueryBuilderBase.whereValues_erase _]
      rfl

end SqlDeleteQueryBuilder

namespace SqlInsertQueryBuilder

def erase (b : SqlInsertQueryBuilder) : SqlInsertQueryBuilder :=
  { b with
    queryString := b.queryString.erase
    values := b.values.mapValues QVariant.erase }

theorem erase_valueExpression (values : SortedMap QString QVariant) (index : Nat)
    (column : QString) :
    SqlText.erase (valueExpression values index column)
      = valueExpression (values.mapValues QVariant.erase) index column := by
  simp only [valueExpression, SortedMap.find?_mapValues]
  cases values.find? column with
  | none => simp
  | some value =>
      simp only [Option.map_some, QVariant.userType_erase]
      split_ifs <;> simp [erase_currentDateTime]

theorem erase_appendCommaSeparated (t : SqlText) (items : List SqlText) :
    SqlText.erase (t.appendCommaSeparated items)
      = t.erase.appendCommaSeparated (items.map SqlText.erase) := by
  induction items generalizing t with
  | nil => rfl
  | cons item items ih =>
      simp only [SqlText.appendCommaSeparated, List.foldl_cons, List.map_cons] at ih ⊢
      rw [ih, SqlText.erase_append, SqlText.erase_append, SqlText.erase_sql]

theorem erase_closeList (t : SqlText) : SqlText.erase t.closeList = t.erase.closeList := by
  simp [SqlText.closeList, SqlText.setLast, SqlText.erase, Sym.erase]

theorem erase_toText (b : SqlInsertQueryBuilder) : SqlText.erase b.toText = b.erase.toText := by
  have hnames : b.erase.columnNames = b.columnNames := rfl
  simp only [toText, hnames]
  split
  · simp
    rfl
  · simp only [erase_closeList, erase_appendCommaSeparated, SqlText.erase_append,
      SqlText.erase_sql, SqlText.erase_raw, List.map_map, Function.comp_def,
      erase_valueExpression]
    rfl

theorem erase_assemble (b : SqlInsertQueryBuilder) : b.assemble.erase = b.erase.assemble := by
  cases h : b.assembled with
  | true => rw [assemble_of_assembled b h, assemble_of_assembled b.erase h]
  | false =>
      simp only [assemble, show b.erase.assembled = false from h, h, ← erase_toText]
      rfl

end SqlInsertQueryBuilder

/-! ### Erased calls -/

mutual

def ConditionCall.erase : ConditionCall → ConditionCall
  | .addValueCondition column op value => .addValueCondition column op value.erase
  | .addCondition op calls => .addCondition op (eraseCalls calls)
  | call => call

def eraseCalls : List ConditionCall → List ConditionCall
  | [] => []
  | call :: calls => call.erase :: eraseCalls calls

end

theorem erase_push (c d : SqlCondition) : (c.push d).erase = c.erase.push d.erase := by
  cases c
  simp [SqlCondition.push, SqlCondition.erase, eraseConditions_append, eraseConditions]

theorem isCaseSensitive_erase (c : SqlCondition) : c.erase.isCaseSensitive = c.isCaseSensitive := by
  cases c
  rfl

section
variable [CaseFolding]

theorem erase_addValueCondition {c d : SqlCondition} (h : c.erase = d.erase)
    (column : ColumnName) (op : CompareOperator) (value : QVariant) :
    (c.addValueCondition column op value).erase
      = (d.addValueCondition column op value.erase).erase := by
  have hcase : c.isCaseSensitive = d.isCaseSensitive := by
    rw [← isCaseSensitive_erase c, h, isCaseSensitive_erase]
  simp only [SqlCondition.addValueCondition, erase_push, h, hcase]
  -- the folded text is erased as well
  cases d.isCaseSensitive <;> cases value <;> rfl

mutual

/-- The erasure of a condition after a call depends on erasures only. -/
theorem erase_applyCall {c d : SqlCondition} (h : c.erase = d.erase) : (call : ConditionCall) →
    (call.apply c).erase = (call.erase.apply d).erase
  | .addValueCondition column op value => erase_addValueCondition h column op value
  | .addPlaceholderCondition column op placeholder => by
      have hcase : c.isCaseSensitive = d.isCaseSensitive := by
        rw [← isCaseSensitive_erase c, h, isCaseSensitive_erase]
      simp only [ConditionCall.apply, ConditionCall.erase, SqlCondition.addPlaceholderCondition,
        erase_push, h, hcase]
  | .addColumnCondition column op column2 => by
      simp only [ConditionCall.apply, ConditionCall.erase, SqlCondition.addColumnCondition,
        erase_push, h]
  | .addCondition op calls => by
      simp only [ConditionCall.apply, ConditionCall.erase, SqlCondition.addCondition, erase_push,
        h, erase_applyCalls rfl calls]
  | .setLogicOperator op => by
      cases c
      cases d
      simp_all [ConditionCall.apply, ConditionCall.erase, SqlCondition.setLogicOperator,
        SqlCondition.erase]
  | .setCaseSensitive flag => by
      cases c
      cases d
      simp_all [ConditionCall.apply, ConditionCall.erase, SqlCondition.setCaseSensitive,
        SqlCondition.erase]

theorem erase_applyCalls {c d : SqlCondition} (h : c.erase = d.erase) :
    (calls : List ConditionCall) →
    (applyCalls c calls).erase = (applyCalls d (eraseCalls calls)).erase
  | [] => h
  | call :: calls => erase_applyCalls (erase_applyCall h call) calls

end

/-! ### Erased steps -/

def ConditionalCall.erase : ConditionalCall → ConditionalCall
  | whereCondition call => whereCondition call.erase
  | assignWhereCondition op calls => assignWhereCondition op (eraseCalls calls)
  | call => call

def SelectCall.erase : SelectCall → SelectCall
  | conditional call => conditional call.erase
  | addJoin type table op calls => addJoin type table op (eraseCalls calls)
  | call => call

def InsertBuilderCall.erase : InsertBuilderCall → InsertBuilderCall
  | column (.addColumnValue columnName value) => column (.addColumnValue columnName value.erase)
  | call => call

def UpdateCall.erase : UpdateCall → UpdateCall
  | conditional call => conditional call.erase
  | addColumnValue columnName value => addColumnValue columnName value.erase
  | call => call

def DeleteCall.erase : DeleteCall → DeleteCall
  | conditional call => conditional call.erase
  | call => call

def Call.erase : {k : Kind} → Call k → Call k
  | .select, c => SelectCall.erase c
  | .insert, c => InsertBuilderCall.erase c
  | .update, c => UpdateCall.erase c
  | .delete, c => DeleteCall.erase c

def Step.erase {k : Kind} : Step k → Step k
  | call c => call (Call.erase c)
  | s => s

theorem ConditionalCall.erase_apply {b b' : SqlConditionalQueryBuilderBase}
    (h : b.erase = b'.erase) (c : ConditionalCall) :
    (c.apply b).erase = (c.erase.apply b').erase := by
  have hwhere : b.whereCondition.erase = b'.whereCondition.erase :=
    congrArg SqlConditionalQueryBuilderBase.whereCondition h
  cases c with
  | setTable table =>
      exact congrArg (fun e : SqlConditionalQueryBuilderBase => { e with table := table }) h
  | whereCondition call =>
      have hcall := erase_applyCall hwhere call
      calc ((ConditionalCall.whereCondition call).apply b).erase
          = { b.erase with whereCondition := (call.apply b.whereCondition).erase } := rfl
        _ = { b'.erase with whereCondition := (call.erase.apply b'.whereCondition).erase } := by
            rw [h, hcall]
  | assignWhereCondition op calls =>
      have hcalls := erase_applyCalls (c := .new op) rfl calls
      calc ((ConditionalCall.assignWhereCondition op calls).apply b).erase
          = { b.erase with whereCondition := (applyCalls (.new op) calls).erase } := rfl
        _ = { b'.erase with
              whereCondition := (applyCalls (.new op) (eraseCalls calls)).erase } := by
            rw [h, hcalls]

theorem SelectCall.erase_apply {b b' : SqlSelectQueryBuilder} (h : b.erase = b'.erase)
    (c : SelectCall) : (c.apply b).erase = (c.erase.apply b').erase := by
  have hbase : b.toSqlConditionalQueryBuilderBase.erase
      = b'.toSqlConditionalQueryBuilderBase.erase :=
    congrArg SqlSelectQueryBuilder.toSqlConditionalQueryBuilderBase h
  -- calls without values do the same to a builder and to its erasure
  have hplain : ∀ f : SqlSelectQueryBuilder → SqlSelectQueryBuilder,
      (∀ e, (f e).erase = f e.erase) → (f b).erase = (f b').erase :=
    fun f hf => by rw [hf, hf, h]
  cases c with
  | conditional call =>
      calc ((SelectCall.conditional call).apply b).erase
          = { b.erase with toSqlConditionalQueryBuilderBase := (call.apply
                b.toSqlConditionalQueryBuilderBase).erase } := rfl
        _ = { b'.erase with toSqlConditionalQueryBuilderBase := (call.erase.apply
                b'.toSqlConditionalQueryBuilderBase).erase } := by
            rw [h, ConditionalCall.erase_apply hbase]
  | addJoin type table op calls =>
      have hjoin : ∀ (e : SqlSelectQueryBuilder) (cond : SqlCondition),
          (e.addJoin type table cond).erase = e.erase.addJoin type table cond.erase := by
        intro e cond
        simp [SqlSelectQueryBuilder.addJoin, SqlSelectQueryBuilder.erase, JoinInfo.erase]
      have hcalls := erase_applyCalls (c := .new op) rfl calls
      simp only [SelectCall.apply, SelectCall.erase, hjoin, h, hcalls]
  | setDistinct flag => exact hplain (fun e => { e with distinct := flag }) fun _ => rfl
  | setDistinctOn distinctExpr =>
      exact hplain (fun e => { e with distinctOn := distinctExpr }) fun _ => rfl
  | addColumn columnName label => exact hplain (·.addColumn columnName label) fun _ => rfl
  | addSortColumn column order => exact hplain (·.addSortColumn column order) fun _ => rfl
  | removeSortColumn fuel column =>
      refine hplain (fun e => (e.removeSortColumn fuel column).getD e) fun e => ?_
      have hcols : e.erase.sortColumns = e.sortColumns := rfl
      simp only [SqlSelectQueryBuilder.removeSortColumn, hcols]
      cases SqlSelectQueryBuilder.removeSortColumnLoop column 0 fuel e.sortColumns <;> rfl
  | addGroupColumn column => exact hplain (·.addGroupColumn column) fun _ => rfl
  | addLimit offset length => exact hplain (·.addLimit offset length) fun _ => rfl
  | lockExclusive table => exact hplain (·.lockExclusive table) fun _ => rfl
  | tryLockExclusive table => exact hplain (·.tryLockExclusive table) fun _ => rfl

theorem UpdateCall.erase_apply {b b' : SqlUpdateQueryBuilder} (h : b.erase = b'.erase)
    (c : UpdateCall) : (c.apply b).erase = (c.erase.apply b').erase := by
  have hbase : b.toSqlConditionalQueryBuilderBase.erase
      = b'.toSqlConditionalQueryBuilderBase.erase :=
    congrArg SqlUpdateQueryBuilder.toSqlConditionalQueryBuilderBase h
  cases c with
  | conditional call =>
      calc ((UpdateCall.conditional call).apply b).erase
          = { b.erase with toSqlConditionalQueryBuilderBase := (call.apply
                b.toSqlConditionalQueryBuilderBase).erase } := rfl
        _ = { b'.erase with toSqlConditionalQueryBuilderBase := (call.erase.apply
                b'.toSqlConditionalQueryBuilderBase).erase } := by
            rw [h, ConditionalCall.erase_apply hbase]
  | addColumnValue columnName value =>
      have hcolumn : ∀ (e : SqlUpdateQueryBuilder) (v : QVariant),
          (e.addColumnValue columnName v).erase = e.erase.addColumnValue columnName v.erase := by
        intro e v
        simp [SqlUpdateQueryBuilder.addColumnValue, SqlUpdateQueryBuilder.erase]
      simp only [UpdateCall.apply, UpdateCall.erase, hcolumn, h, QVariant.erase_erase]
  | setIncludesubTales flag =>
      exact congrArg (fun e : SqlUpdateQueryBuilder => { e with includeSubTables := flag }) h

theorem DeleteCall.erase_apply {b b' : SqlDeleteQueryBuilder} (h : b.erase = b'.erase)
    (c : DeleteCall) : (c.apply b).erase = (c.erase.apply b').erase := by
  have hbase : b.toSqlConditionalQueryBuilderBase.erase
      = b'.toSqlConditionalQueryBuilderBase.erase :=
    congrArg SqlDeleteQueryBuilder.toSqlConditionalQueryBuilderBase h
  cases c with
  | conditional call =>
      calc ((DeleteCall.conditional call).apply b).erase
          = { b.erase with toSqlConditionalQueryBuilderBase := (call.apply
                b.toSqlConditionalQueryBuilderBase).erase } := rfl
        _ = { b'.erase with toSqlConditionalQueryBuilderBase := (call.erase.apply
                b'.toSqlConditionalQueryBuilderBase).erase } := by
            rw [h, ConditionalCall.erase_apply hbase]
  | setIncludeSubTables flag =>
      exact congrArg (fun e : SqlDeleteQueryBuilder => { e with includeSubTables := flag }) h

omit [CaseFolding] in
theorem InsertBuilderCall.erase_apply {b b' : SqlInsertQueryBuilder} (h : b.erase = b'.erase)
    (c : InsertBuilderCall) : (c.apply b).erase = (c.erase.apply b').erase := by
  have hplain : ∀ f : SqlInsertQueryBuilder → SqlInsertQueryBuilder,
      (∀ e, (f e).erase = f e.erase) → (f b).erase = (f b').erase :=
    fun f hf => by rw [hf, hf, h]
  cases c with
  | setTable table => exact hplain (fun e => { e with table := table }) fun _ => rfl
  | column call =>
      cases call with
      | addColumnValue columnName value =>
          have hcolumn : ∀ (e : SqlInsertQueryBuilder) (v : QVariant),
              (e.addColumnValue columnName v).erase
                = e.erase.addColumnValue columnName v.erase := by
            intro e v
            simp [SqlInsertQueryBuilder.addColumnValue, SqlInsertQueryBuilder.erase,
              SortedMap.mapValues_insert]
          simp only [InsertBuilderCall.apply, InsertBuilderCall.erase, InsertCall.apply, hcolumn,
            h, QVariant.erase_erase]
      | addColumn columnName => exact hplain (·.addColumn columnName) fun _ => rfl
  | setToDefaultValues => exact hplain (·.setToDefaultValues) fun _ => rfl

end

namespace Builder

def erase : {k : Kind} → Builder k → Builder k
  | .select, (b : SqlSelectQueryBuilder) => b.erase
  | .insert, (b : SqlInsertQueryBuilder) => b.erase
  | .update, (b : SqlUpdateQueryBuilder) => b.erase
  | .delete, (b : SqlDeleteQueryBuilder) => b.erase

theorem erase_assemble {k : Kind} (b : Builder k) : b.assemble.erase = b.erase.assemble := by
  cases k with
  | select => exact SqlSelectQueryBuilder.erase_assemble b
  | insert => exact SqlInsertQueryBuilder.erase_assemble b
  | update => exact SqlUpdateQueryBuilder.erase_assemble b
  | delete => exact SqlDeleteQueryBuilder.erase_assemble b

theorem erase_invalidateQuery {k : Kind} (b : Builder k) :
    b.invalidateQuery.erase = b.erase.invalidateQuery := by
  cases k <;> rfl

theorem queryString_erase {k : Kind} (b : Builder k) :
    b.erase.queryString = b.queryString.erase := by
  cases k <;> rfl

/-- The text of a builder can be read off its erasure. -/
theorem toQString_queryString_congr {k : Kind} {b b' : Builder k} (h : b.erase = b'.erase) :
    b.queryString.toQString = b'.queryString.toQString := by
  rw [← SqlText.toQString_erase, ← queryString_erase, h, queryString_erase,
    SqlText.toQString_erase]

section
variable [CaseFolding]

theorem erase_apply {k : Kind} {b b' : Builder k} (h : b.erase = b'.erase) (c : Call k) :
    (b.apply c).erase = (b'.apply (Call.erase c)).erase := by
  cases k with
  | select => exact SelectCall.erase_apply h c
  | insert => exact InsertBuilderCall.erase_apply h c
  | update => exact UpdateCall.erase_apply h c
  | delete => exact DeleteCall.erase_apply h c

/-- **The erasure of a builder after a step depends on erasures only.** -/
theorem erase_step {k : Kind} {b b' : Builder k} (h : b.erase = b'.erase) (s : Step k) :
    (b.step s).erase = (b'.step s.erase).erase := by
  cases s with
  | call c => exact erase_apply h c
  | query => simp only [step, Step.erase, erase_assemble, h]
  | invalidateQuery => simp only [step, Step.erase, erase_invalidateQuery, h]

end

end Builder

/-! ### Runs that differ in values only -/

/-- Two steps with the same names, operators, nesting and flags, and with
values of the same types at the same places. -/
def Step.SameButValues {k : Kind} (s s' : Step k) : Prop := s.erase = s'.erase

def PoolStep.erase : PoolStep → PoolStep
  | step i s => step i s.erase
  | combineQueries this query1 query2 type => combineQueries this query1 query2 type

def PoolStep.SameButValues (e e' : PoolStep) : Prop := e.erase = e'.erase

namespace SelectPool

def erase (p : SelectPool) : SelectPool := fun i => (p i).erase

theorem erase_set (p : SelectPool) (i : Nat) (b : SqlSelectQueryBuilder) :
    (p.set i b).erase = p.erase.set i b.erase := by
  funext j
  by_cases hj : j = i
  · subst hj
    simp [erase]
  · simp [erase, hj]

theorem erase_at (p : SelectPool) (i : Nat) : p.erase i = (p i).erase := rfl

theorem setBindedValuesOffset_erase (b : SqlSelectQueryBuilder) (offset : Nat) :
    b.erase.setBindedValuesOffset offset = (b.setBindedValuesOffset offset).erase := rfl

theorem length_bindValues_erase (b : SqlSelectQueryBuilder) :
    b.erase.bindValues.length = b.bindValues.length :=
  List.length_map _

theorem acceptsCombination_erase (b : SqlSelectQueryBuilder) :
    b.erase.acceptsCombination = b.acceptsCombination := by
  simp [SqlSelectQueryBuilder.acceptsCombination, SqlSelectQueryBuilder.erase,
    SqlConditionalQueryBuilderBase.erase, SqlText.erase]

theorem erase_combineQueries (p : SelectPool) (this query1 query2 : Nat) (type : UnionType) :
    (p.combineQueries this query1 query2 type).erase
      = p.erase.combineQueries this query1 query2 type := by
  have hname : SqlText.erase (unionName type) = unionName type := by
    cases type <;> exact SqlText.erase_sql _
  -- every write to the pool commutes with the erasure
  rw [combineQueries, combineQueries]
  simp only [erase_at, acceptsCombination_erase, SqlSelectQueryBuilder.toString_erase,
    ← erase_set, setBindedValuesOffset_erase, length_bindValues_erase]
  split
  · rw [erase_set]
    simp only [SqlSelectQueryBuilder.erase, SqlConditionalQueryBuilderBase.erase,
      SqlText.erase_append, hname, List.map_append]
  · rfl

variable [CaseFolding]

theorem erase_step {p p' : SelectPool} (h : p.erase = p'.erase) (e : PoolStep) :
    (p.step e).erase = (p'.step e.erase).erase := by
  cases e with
  | step i s =>
      have hi : (p i).erase = (p' i).erase := congrFun h i
      have hs := Builder.erase_step (k := .select) hi s
      calc (p.step (.step i s)).erase
          = p.erase.set i (Builder.step (k := .select) (p i) s : SqlSelectQueryBuilder).erase :=
            erase_set _ _ _
        _ = p'.erase.set i
              (Builder.step (k := .select) (p' i) s.erase : SqlSelectQueryBuilder).erase := by
            rw [h]
            exact congrArg _ hs
        _ = (p'.step (PoolStep.erase (.step i s))).erase := (erase_set _ _ _).symm
  | combineQueries this query1 query2 type =>
      simp only [step, PoolStep.erase, erase_combineQueries, h]

end SelectPool

/-- **No value reaches the statement text**: builders of the same kind whose
calls differ in the values only, where corresponding values have the same type
and validity, have the same text; and so have select builders of programs that
form unions. -/
theorem toQString_queryString_eq [CaseFolding] (db : QString) :
    (∀ (k : Kind) (steps steps' : List (Step k)), List.Forall₂ Step.SameButValues steps steps' →
      (Builder.after db steps).queryString.toQString
        = (Builder.after db steps').queryString.toQString) ∧
    ∀ (es es' : List PoolStep), List.Forall₂ PoolStep.SameButValues es es' → ∀ i,
      (Runs.run SelectPool.step (SelectPool.new db) es i).queryString.toQString
        = (Runs.run SelectPool.step (SelectPool.new db) es' i).queryString.toQString := by
  constructor
  · intro k steps steps' hsteps
    refine Builder.toQString_queryString_congr ?_
    refine Runs.run_related (R := fun b b' : Builder k => b.erase = b'.erase) ?_ rfl hsteps
    intro b b' s s' hb hs
    calc (b.step s).erase = (b'.step s.erase).erase := Builder.erase_step hb s
      _ = (b'.step s'.erase).erase := by rw [hs]
      _ = (b'.step s').erase := (Builder.erase_step rfl s').symm
  · intro es es' hes i
    have hpool : (Runs.run SelectPool.step (SelectPool.new db) es).erase
        = (Runs.run SelectPool.step (SelectPool.new db) es').erase := by
      refine Runs.run_related (R := fun p p' => SelectPool.erase p = SelectPool.erase p') ?_ rfl hes
      intro p p' e e' hp he
      calc (p.step e).erase = (p'.step e.erase).erase := SelectPool.erase_step hp e
        _ = (p'.step e'.erase).erase := by rw [he]
        _ = (p'.step e').erase := (SelectPool.erase_step rfl e').symm
    exact Builder.toQString_queryString_congr (k := .select) (congrFun hpool i)

/-- A string, a number and a time in a condition, under case folding. -/
def searchSteps (name : QString) (payload : List UInt8) : List (Step .select) :=
  let where_ (call : ConditionCall) := Step.call (k := .select) (.conditional (.whereCondition call))
  [where_ (.setCaseSensitive false),
   where_ (.addValueCondition idColumn .like (.string name)),
   where_ (.addCondition .or [.addValueCondition idColumn .less (.other 2 payload),
     .addValueCondition idColumn .equals .sqlNow]),
   .query]

theorem toQString_queryString_eq_searchSteps :
    let _ : CaseFolding := .ascii
    (Builder.after [] (searchSteps (latin1 "x' OR '1'='1") [7])).queryString.toQString
      = (Builder.after [] (searchSteps (latin1 "bob") [1, 2])).queryString.toQString :=
  (@toQString_queryString_eq .ascii []).1 .select _ _
    (.cons rfl (.cons rfl (.cons rfl (.cons rfl .nil))))

end Sqlate
