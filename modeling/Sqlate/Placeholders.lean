/-
Sqlate/Placeholders.lean

Generated placeholders of one builder over its whole life.

The builders number placeholders by a side effect inside the recursion over
the condition trees, once per join and once for WHERE, after the SET list in
an UPDATE.  As long as the builder is not an operand of `combineQueries`, its
offset is zero, and every assembly leaves text and bind list in step
(`placeholders_numberedSoundly`): an assembly appends the values of the
leaves to a list `old` and numbers the leaves from `old.length` on.  For a
select builder `old` is what earlier assemblies left, for the others it is
empty.
-/
import Sqlate.QueryBuilders

namespace Sqlate

/-- Each generated placeholder of the text is the position of its value in the
bind list. -/
def SqlText.NumberedIn (text : SqlText) (bindValues : List QVariant) : Prop :=
  ∀ v n, (v, n) ∈ text.marks → n < bindValues.length ∧ bindValues[n]? = some v

/-- The placeholders of a text belong to the given leaf values, in order, and
to pairwise distinct positions of the bind list. -/
structure NumberedSoundly (text : SqlText) (leafValues bindValues : List QVariant) : Prop where
  emitted : text.marks.map Prod.fst = leafValues
  bound : text.NumberedIn bindValues
  distinct : (text.marks.map Prod.snd).Nodup
  noSqlNow : QVariant.sqlNow ∉ bindValues

namespace SqlText

/-- Registering more values keeps the earlier placeholders in place. -/
theorem NumberedIn.append {text : SqlText} {bindValues : List QVariant}
    (h : text.NumberedIn bindValues) (more : List QVariant) :
    text.NumberedIn (bindValues ++ more) := by
  intro v n hmem
  obtain ⟨hlt, hget⟩ := h v n hmem
  exact ⟨by rw [List.length_append]; omega, by rw [List.getElem?_append_left hlt, hget]⟩

theorem NumberedIn.concat {s t : SqlText} {bindValues : List QVariant}
    (hs : s.NumberedIn bindValues) (ht : t.NumberedIn bindValues) :
    NumberedIn (s ++ t) bindValues := by
  intro v n hmem
  rw [marks_append] at hmem
  exact (List.mem_append.mp hmem).elim (hs v n) (ht v n)

/-- A text without generated placeholders. -/
theorem numberedIn_of_marks_eq_nil {text : SqlText} (h : text.marks = [])
    (bindValues : List QVariant) : text.NumberedIn bindValues := by
  intro v n hmem
  rw [h] at hmem
  exact absurd hmem List.not_mem_nil

/-- Values numbered from `old.length` on are found in `old ++ values`. -/
theorem numberedIn_of_zipIdx {text : SqlText} {old values : List QVariant}
    (hmarks : text.marks = values.zipIdx old.length) : text.NumberedIn (old ++ values) := by
  intro v n hmem
  rw [hmarks, List.mem_zipIdx_iff_le_and_getElem?_sub] at hmem
  obtain ⟨hle, hget⟩ := hmem
  have hbound : (old ++ values)[n]? = some v := by
    rw [List.getElem?_append_right hle, hget]
  exact ⟨(List.getElem?_eq_some_iff.mp hbound).1, hbound⟩

end SqlText

/-! ### `SqlNow` takes no number -/

mutual

theorem sqlNow_not_mem_boundValues : (c : SqlCondition) → QVariant.sqlNow ∉ c.boundValues
  | ⟨subConditions, column, comparedColumn, placeholder, comparedValue, compareOp, logicOp, _⟩ => by
      simp only [SqlCondition.boundValues]
      split_ifs with hleaf htakes
      · intro hmem
        obtain rfl := (List.mem_singleton.mp hmem).symm
        simp [takesNumber, QVariant.userType] at htakes
      · simp
      · exact sqlNow_not_mem_boundValuesOf subConditions

theorem sqlNow_not_mem_boundValuesOf :
    (cs : List SqlCondition) → QVariant.sqlNow ∉ boundValuesOf cs
  | [] => by simp [boundValuesOf]
  | c :: cs => by
      simp [boundValuesOf, sqlNow_not_mem_boundValues c, sqlNow_not_mem_boundValuesOf cs]

end

theorem sqlNow_not_mem_whereValues (b : SqlConditionalQueryBuilderBase) :
    QVariant.sqlNow ∉ b.whereValues := by
  rw [SqlConditionalQueryBuilderBase.whereValues]
  split_ifs
  · exact sqlNow_not_mem_boundValues _
  · simp

namespace Builder

/-- The values of the leaves and SET columns that take a number, in text
order. -/
def leafValues : {k : Kind} → Builder k → List QVariant
  | .select, (b : SqlSelectQueryBuilder) => b.boundValues
  | .insert, (b : SqlInsertQueryBuilder) => b.toText.marks.map Prod.fst
  | .update, (b : SqlUpdateQueryBuilder) => b.boundValues
  | .delete, (b : SqlDeleteQueryBuilder) => b.whereValues

theorem sqlNow_not_mem_leafValues {k : Kind} (hk : k ≠ .insert) (b : Builder k) :
    QVariant.sqlNow ∉ b.leafValues := by
  cases k with
  | select =>
      simp [leafValues, SqlSelectQueryBuilder.boundValues, sqlNow_not_mem_whereValues,
        sqlNow_not_mem_boundValues]
  | insert => exact absurd rfl hk
  | update =>
      simp [leafValues, SqlUpdateQueryBuilder.boundValues, SqlUpdateQueryBuilder.columnValues,
        sqlNow_not_mem_whereValues, QVariant.userType]
  | delete => exact sqlNow_not_mem_whereValues _

end Builder

/-! ### The invariant -/

namespace Builder

/-- The builder was never the second operand of `combineQueries`, and no
`SqlNow` value is registered. -/
structure Plain {k : Kind} (b : Builder k) : Prop where
  offset : b.numbering.1 = 0
  noSqlNow : QVariant.sqlNow ∉ b.numbering.2

theorem plain_new (db : QString) (k : Kind) : (new db k).Plain := by
  cases k <;> exact ⟨rfl, List.not_mem_nil⟩

theorem assemble_of_assembled {k : Kind} {b : Builder k} (h : b.assembled = true) :
    b.assemble = b := by
  cases k with
  | select => exact SqlSelectQueryBuilder.assemble_of_assembled b h
  | insert => exact SqlInsertQueryBuilder.assemble_of_assembled b h
  | update => exact SqlUpdateQueryBuilder.assemble_of_assembled b h
  | delete => exact SqlDeleteQueryBuilder.assemble_of_assembled b h

/-- **Specification of an assembly**: the values of the leaves are appended to
what the builder keeps of its bind list, and numbered accordingly. -/
theorem assemble_spec {k : Kind} (hk : k ≠ .insert) {b : Builder k} (hb : b.Plain)
    (h : b.assembled = false) :
    ∃ old, b.assemble.bindList = old ++ b.leafValues ∧
      b.assemble.numbering = (0, old ++ b.leafValues) ∧
      b.assemble.queryString.marks = b.leafValues.zipIdx old.length ∧
      QVariant.sqlNow ∉ old ∧ (b.numbering.2 = [] → old = []) := by
  have hoffset := hb.offset
  cases k with
  | insert => exact absurd rfl hk
  | select =>
      -- the only builder that keeps its bind list
      have hassemble := SqlSelectQueryBuilder.assemble_eq b h
      refine ⟨b.numbering.2, ?_, ?_, ?_, hb.noSqlNow, id⟩
      · simp [assemble, bindList, numbering, leafValues, hassemble,
          SqlConditionalQueryBuilderBase.register]
      · simp_all [assemble, numbering, leafValues, SqlConditionalQueryBuilderBase.register]
      · simp_all [assemble, numbering, queryString, leafValues,
          SqlSelectQueryBuilder.marks_textFrom, SqlConditionalQueryBuilderBase.nextNumber]
  | update =>
      have hassemble := SqlUpdateQueryBuilder.assemble_eq b h
      refine ⟨[], ?_, ?_, ?_, List.not_mem_nil, fun _ => rfl⟩
      · simp [assemble, bindList, leafValues, hassemble]
      · simp_all [assemble, numbering, leafValues]
      · simp_all [assemble, numbering, queryString, leafValues,
          SqlUpdateQueryBuilder.marks_textFrom]
  | delete =>
      have hassemble := SqlDeleteQueryBuilder.assemble_eq b h
      refine ⟨[], ?_, ?_, ?_, List.not_mem_nil, fun _ => rfl⟩
      · simp [assemble, bindList, leafValues, hassemble]
      · simp_all [assemble, numbering, leafValues]
      · simp_all [assemble, numbering, queryString, leafValues,
          SqlDeleteQueryBuilder.marks_textFrom]

/-! ### The invariant along a run -/

section
variable [CaseFolding]

omit [CaseFolding] in
theorem plain_assemble {k : Kind} {b : Builder k} (hb : b.Plain) : b.assemble.Plain := by
  by_cases hk : k = .insert
  · subst hk
    exact ⟨rfl, List.not_mem_nil⟩
  · cases h : b.assembled with
    | true => rwa [assemble_of_assembled h]
    | false =>
        obtain ⟨old, -, hnumbering, -, hold, -⟩ := assemble_spec hk hb h
        refine ⟨by rw [hnumbering], ?_⟩
        rw [hnumbering]
        exact fun hmem => (List.mem_append.mp hmem).elim hold (sqlNow_not_mem_leafValues hk b)

theorem plain_step {k : Kind} (b : Builder k) (e : Step k) (hb : b.Plain) : (b.step e).Plain := by
  cases e with
  | call c => exact ⟨by rw [step, (frame_apply b c).numbering, hb.offset],
      by rw [step, (frame_apply b c).numbering]; exact hb.noSqlNow⟩
  | query => exact plain_assemble hb
  | invalidateQuery => exact ⟨by rw [step, (frame_invalidateQuery b).numbering, hb.offset],
      by rw [step, (frame_invalidateQuery b).numbering]; exact hb.noSqlNow⟩

theorem plain_after (db : QString) {k : Kind} (steps : List (Step k)) :
    (after db steps).Plain :=
  Runs.run_invariant_of_forall plain_step (plain_new db k) steps

/-- Before its first `query()` a builder has registered nothing. -/
theorem registered_after_eq_nil (db : QString) {k : Kind} {steps : List (Step k)}
    (hsteps : Step.query ∉ steps) : (after db steps).numbering.2 = [] := by
  refine Runs.run_invariant (P := fun _ e => e ≠ Step.query)
    (I := fun b : Builder k => b.numbering.2 = []) ?_ ?_ ?_
  · intro b e hb he
    cases e with
    | call c => rwa [step, (frame_apply b c).numbering]
    | query => exact absurd rfl he
    | invalidateQuery => rwa [step, (frame_invalidateQuery b).numbering]
  · cases k <;> rfl
  · rw [Runs.along_iff]
    rintro pre e post rfl rfl
    exact hsteps (by simp)

end

end Builder

/-! ### The numbering theorem -/

/-- **Placeholder numbering**: whatever was done with a select, update or
delete builder before, an assembly numbers the values of the leaves soundly;
on the first one the numbers are `0, 1, …`; and a deferred placeholder is
never called like a generated one. -/
theorem placeholders_numberedSoundly [CaseFolding] (db : QString) {k : Kind}
    (hk : k ≠ .insert) (steps : List (Step k))
    (hassembled : (Builder.after db steps).assembled = false) :
    let b : Builder k := Builder.after db steps
    NumberedSoundly b.assemble.queryString b.leafValues b.assemble.bindList ∧
      (Step.query ∉ steps →
        b.assemble.queryString.marks.map Prod.snd = List.range b.leafValues.length) ∧
      ∀ (p : PlaceholderName) (n : Nat), p.name ≠ placeholderName n := by
  intro b
  obtain ⟨old, hbind, -, hmarks, hold, hfirst⟩ :=
    Builder.assemble_spec hk (Builder.plain_after db steps) hassembled
  refine ⟨?_, ?_, PlaceholderName.name_ne_placeholderName⟩
  · have hleaves := Builder.sqlNow_not_mem_leafValues hk b
    rw [hbind]
    exact {
      emitted := by rw [hmarks, List.zipIdx_map_fst]
      bound := SqlText.numberedIn_of_zipIdx hmarks
      distinct := by
        rw [hmarks, List.zipIdx_map_snd]
        exact List.nodup_range'
      noSqlNow := fun hmem => (List.mem_append.mp hmem).elim hold hleaves }
  · intro hsteps
    obtain rfl := hfirst (Builder.registered_after_eq_nil db hsteps)
    rw [hmarks, List.zipIdx_map_snd, List.length_nil, List.range_eq_range']

/-- A column for examples. -/
def idColumn : ColumnName := ⟨latin1 "id", by decide⟩

/-- A join and a WHERE condition, assembled, and assembled again after one
more condition. -/
def reassembledSteps : List (Step .select) :=
  let where_ (call : ConditionCall) := Step.call (k := .select) (.conditional (.whereCondition call))
  [.call (.addJoin .innerJoin (latin1 "t") .and [.addValueCondition idColumn .less (.other 2 [7])]),
   where_ (.addValueCondition idColumn .equals .sqlNow),
   where_ (.addValueCondition idColumn .is .invalid),
   .query, .invalidateQuery,
   where_ (.setCaseSensitive false),
   where_ (.addValueCondition idColumn .like (.string (latin1 "A%")))]

theorem placeholders_numberedSoundly_reassembledSteps :
    let _ : CaseFolding := .ascii
    let b : Builder .select := Builder.after (latin1 "db") reassembledSteps
    NumberedSoundly b.assemble.queryString b.leafValues b.assemble.bindList ∧
      b.assemble.queryString.marks
        = [(.other 2 [7], 1), (.string (latin1 "a%"), 2)] :=
  ⟨(@placeholders_numberedSoundly .ascii (latin1 "db") .select (by decide) reassembledSteps
    (by decide)).1, by decide⟩

end Sqlate
