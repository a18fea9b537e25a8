/-
Sqlate/Reassembly.lean

Assembling a builder again.

An `Assembly` is a builder with the values that its last assembly has bound.
What an assembly writes is the `rendering` of the builder.  For the insert,
update and delete builders it depends on the members that describe the
statement, and on nothing an assembly changes.  The select builder numbers its
values from the end of the bind list and does not clear the list, so that the
next rendering is another one as soon as there is a value (`repeats_iff`).

In a run of all the builders of a program (`Assemblies.step`), every builder can
be assembled again and again, in every state, if and only if assembled builders
are left alone, no select builder has values, and none is filled by
`combineQueries` (`repeats_run_iff`).
-/
import Mathlib.Logic.Function.Iterate
import Sqlate.CombinedQueries

namespace Sqlate

/-- A builder with the values bound in `m_query`. -/
structure Assembly (k : Kind) where
  builder : Builder k
  bound : List QVariant

namespace Builder

/-- The text and the bind list that an assembly would write. -/
def rendering : {k : Kind} → Builder k → SqlText × List QVariant
  | .select, (b : SqlSelectQueryBuilder) =>
      (b.textFrom b.nextNumber, b.bindValues ++ b.boundValues)
  | .insert, (b : SqlInsertQueryBuilder) => (b.toText, b.bindList)
  | .update, (b : SqlUpdateQueryBuilder) => (b.textFrom b.bindedValuesOffset, b.boundValues)
  | .delete, (b : SqlDeleteQueryBuilder) => (b.textFrom b.bindedValuesOffset, b.whereValues)

theorem rendering_invalidateQuery {k : Kind} (b : Builder k) :
    b.invalidateQuery.rendering = b.rendering := by
  cases k <;> rfl

theorem assembled_invalidateQuery {k : Kind} (b : Builder k) :
    b.invalidateQuery.assembled = false := by
  cases k <;> rfl

/-- What an UPDATE would write does not depend on what it has written. -/
theorem rendering_update (b : SqlUpdateQueryBuilder) (values : List QVariant) (text : SqlText) :
    rendering (k := .update)
        { b with bindValues := values, queryString := text, assembled := true } =
      rendering (k := .update) b := rfl

/-- **What an assembly writes**, and what the next one would write. -/
structure Wrote {k : Kind} (b b' : Builder k) : Prop where
  assembled : b'.assembled = true
  queryString : b'.queryString = b.rendering.1
  bindList : b'.bindList = b.rendering.2
  leafValues : k = .select → b'.leafValues = b.leafValues
  rendering : (k = .select → b.leafValues = []) → b'.rendering = b.rendering

theorem wrote_assemble {k : Kind} {b : Builder k} (h : b.assembled = false) :
    Wrote b b.assemble := by
  cases k with
  | select =>
      have hassemble : b.assemble = _ := SqlSelectQueryBuilder.assemble_eq b h
      rw [hassemble]
      refine ⟨rfl, rfl, rfl, fun _ => rfl, fun hnone => ?_⟩
      have hvalues : SqlSelectQueryBuilder.boundValues b = [] := hnone rfl
      show (SqlSelectQueryBuilder.textFrom
          (b.bindedValuesOffset + (b.bindValues ++ SqlSelectQueryBuilder.boundValues b).length) b,
        (b.bindValues ++ SqlSelectQueryBuilder.boundValues b)
          ++ SqlSelectQueryBuilder.boundValues b) = _
      rw [hvalues, List.append_nil]
      show _ = (_, b.bindValues ++ SqlSelectQueryBuilder.boundValues b)
      rw [hvalues]
      simp [SqlConditionalQueryBuilderBase.nextNumber]
  | insert =>
      have hassemble : b.assemble = { b with queryString := SqlInsertQueryBuilder.toText b, assembled := true } :=
        if_pos (congrArg not h)
      rw [hassemble]
      exact ⟨rfl, rfl, rfl, (fun hselect => by cases hselect), fun _ => rfl⟩
  | update =>
      have hassemble : b.assemble = _ := SqlUpdateQueryBuilder.assemble_eq b h
      rw [hassemble]
      exact ⟨rfl, rfl, rfl, (fun hselect => by cases hselect), fun _ => rendering_update b _ _⟩
  | delete =>
      have hassemble : b.assemble = _ := SqlDeleteQueryBuilder.assemble_eq b h
      rw [hassemble]
      exact ⟨rfl, rfl, rfl, (fun hselect => by cases hselect), fun _ => rfl⟩

end Builder

/-! ### Calling `query()` again and again -/

namespace Assembly

variable {k : Kind}

/-- `query()`, with the binding of the values. -/
def query (a : Assembly k) : Assembly k :=
  if a.builder.assembled then a
  else ⟨a.builder.assemble, a.builder.assemble.bindList⟩

/-- `invalidateQuery()` and `query()`. -/
def requery (a : Assembly k) : Assembly k := query { a with builder := a.builder.invalidateQuery }

/-- The text and the bound values. -/
def statement (a : Assembly k) : QString × List QVariant :=
  (a.builder.queryString.toQString, a.bound)

/-- The statement stays the same, however often it is assembled again. -/
def Repeats (a : Assembly k) : Prop := ∀ n, (requery^[n] a.query).statement = a.query.statement

/-- What is assembled is what the members of the builder describe. -/
def Current (a : Assembly k) : Prop :=
  a.statement = (a.builder.rendering.1.toQString, a.builder.rendering.2)

theorem requery_eq (a : Assembly k) :
    requery a = ⟨a.builder.invalidateQuery.assemble, a.builder.invalidateQuery.assemble.bindList⟩ := by
  rw [requery, query, if_neg (by simp [Builder.assembled_invalidateQuery])]

theorem wrote_requery (a : Assembly k) :
    Builder.Wrote a.builder.invalidateQuery a.requery.builder := by
  rw [requery_eq]
  exact Builder.wrote_assemble a.builder.assembled_invalidateQuery

/-- Assembling again gives what the members describe. -/
theorem statement_requery (a : Assembly k) :
    a.requery.statement = (a.builder.rendering.1.toQString, a.builder.rendering.2) := by
  have hwrote := a.wrote_requery
  have hbound : a.requery.bound = a.requery.builder.bindList := by rw [requery_eq]
  rw [statement, hbound, hwrote.queryString, hwrote.bindList, Builder.rendering_invalidateQuery]

/-- Without values in a SELECT, what the members describe stays the same. -/
theorem rendering_requery {a : Assembly k} (h : k = .select → a.builder.leafValues = []) :
    a.requery.builder.rendering = a.builder.rendering := by
  have hvalues : k = .select → a.builder.invalidateQuery.leafValues = [] := by
    rintro rfl
    exact h rfl
  rw [a.wrote_requery.rendering hvalues, Builder.rendering_invalidateQuery]

theorem leafValues_requery (a : Assembly k) (hk : k = .select) :
    a.requery.builder.leafValues = a.builder.leafValues := by
  rw [a.wrote_requery.leafValues hk]
  subst hk
  rfl

theorem current_query {a : Assembly k} (h : a.builder.assembled = false)
    (hvalues : k = .select → a.builder.leafValues = []) : a.query.Current := by
  have hwrote := Builder.wrote_assemble h
  rw [query, if_neg (by simp [h]), Current, statement, hwrote.rendering hvalues, hwrote.queryString,
    hwrote.bindList]

theorem repeats_of_current {a : Assembly k} (hcurrent : a.Current)
    (hvalues : k = .select → a.builder.leafValues = []) (n : Nat) :
    (requery^[n] a).statement = a.statement := by
  induction n generalizing a with
  | zero => rfl
  | succ n ih =>
      have hsame : a.requery.statement = a.statement := a.statement_requery.trans hcurrent.symm
      have hnext : a.requery.Current := by
        rw [Current, rendering_requery hvalues]
        exact a.statement_requery
      rw [Function.iterate_succ_apply, ih hnext fun hk => (a.leafValues_requery hk).trans (hvalues hk),
        hsame]

theorem query_of_assembled {a : Assembly k} (h : a.builder.assembled = true) : a.query = a := by
  rw [query, if_pos h]

theorem leafValues_query (a : Assembly k) (hk : k = .select) :
    a.query.builder.leafValues = a.builder.leafValues := by
  cases h : a.builder.assembled with
  | true => rw [query_of_assembled h]
  | false =>
      rw [query, if_neg (by simp [h])]
      exact (Builder.wrote_assemble h).leafValues hk

/-- The bind list of a SELECT with values grows with every assembly. -/
theorem statement_requery_ne {a : Assembly .select} (h : a.builder.leafValues ≠ []) :
    a.requery.requery.statement ≠ a.requery.statement := by
  intro hsame
  have hbound : a.requery.bound = a.requery.builder.bindList := by rw [requery_eq]
  have hgrown : a.requery.builder.bindList ++ a.requery.builder.leafValues =
      a.requery.builder.bindList := by
    rw [← hbound]
    conv_lhs => rw [hbound]
    exact (congrArg Prod.snd a.requery.statement_requery).symm.trans (congrArg Prod.snd hsame)
  rw [List.append_right_eq_self, leafValues_requery a rfl] at hgrown
  exact h hgrown

/-- **When assembling again changes nothing**: the builder is not assembled, or not
modified since, and it is no select builder with values in its conditions. -/
theorem repeats_iff (a : Assembly k) :
    a.Repeats ↔ (a.builder.assembled = true → a.Current) ∧
      (k = .select → a.builder.leafValues = []) := by
  constructor
  · intro h
    constructor
    · intro hassembled
      have hfirst := h 1
      rw [query_of_assembled hassembled] at hfirst
      exact hfirst.symm.trans a.statement_requery
    · rintro rfl
      by_contra hvalues
      rw [← leafValues_query a rfl] at hvalues
      exact statement_requery_ne hvalues ((h 2).trans (h 1).symm)
  · rintro ⟨hcurrent, hvalues⟩ n
    have hvalues' : k = .select → a.query.builder.leafValues = [] := fun hk =>
      (leafValues_query a hk).trans (hvalues hk)
    cases h : a.builder.assembled with
    | true =>
        rw [query_of_assembled h]
        exact repeats_of_current (hcurrent h) hvalues n
    | false => exact repeats_of_current (current_query h hvalues) hvalues' n

/-- A builder that is assembled now can be assembled again as before. -/
theorem repeats_query {a : Assembly k} (h : a.Repeats) : a.query.Repeats := by
  have hassembled : a.query.builder.assembled = true := by
    cases hflag : a.builder.assembled with
    | true => rwa [query_of_assembled hflag]
    | false =>
        rw [query, if_neg (by simp [hflag])]
        exact (Builder.wrote_assemble hflag).assembled
  intro n
  rw [query_of_assembled hassembled]
  exact h n

theorem repeats_invalidateQuery {a : Assembly k} (h : a.Repeats) :
    Repeats { a with builder := a.builder.invalidateQuery } := by
  rw [repeats_iff]
  refine ⟨fun hassembled => ?_, fun hk => ?_⟩
  · rw [Builder.assembled_invalidateQuery] at hassembled
    cases hassembled
  · subst hk
    exact ((repeats_iff a).1 h).2 rfl

end Assembly

/-! ### Runs of all builders -/

namespace Builder

/-- What the members of a builder say: a text, and the values that are bound to it. -/
def described : {k : Kind} → Builder k → QString × List QVariant
  | .select, (b : SqlSelectQueryBuilder) => ((b.textFrom 0).toQString, b.boundValues)
  | .insert, (b : SqlInsertQueryBuilder) => (b.toText.toQString, b.bindList)
  | .update, (b : SqlUpdateQueryBuilder) =>
      ((b.textFrom b.bindedValuesOffset).toQString, b.boundValues)
  | .delete, (b : SqlDeleteQueryBuilder) =>
      ((b.textFrom b.bindedValuesOffset).toQString, b.whereValues)

/-- Nothing has been registered in a select builder. -/
def Unnumbered {k : Kind} (b : Builder k) : Prop := k = .select → b.numbering = (0, [])

theorem described_eq {k : Kind} {b : Builder k} (h : b.Unnumbered) :
    b.described = (b.rendering.1.toQString, b.rendering.2) := by
  cases k with
  | select =>
      obtain ⟨hoffset, hvalues⟩ := Prod.mk.inj (h rfl)
      show _ = ((SqlSelectQueryBuilder.textFrom (b.bindedValuesOffset + b.bindValues.length) b).toQString,
        b.bindValues ++ SqlSelectQueryBuilder.boundValues b)
      rw [hoffset, hvalues]
      rfl
  | insert => rfl
  | update => rfl
  | delete => rfl

theorem Unnumbered.apply [CaseFolding] {k : Kind} {b : Builder k} (h : b.Unnumbered) (c : Call k) :
    (b.apply c).Unnumbered :=
  fun hk => (frame_apply b c).numbering.trans (h hk)

theorem Unnumbered.invalidateQuery {k : Kind} {b : Builder k} (h : b.Unnumbered) :
    b.invalidateQuery.Unnumbered :=
  fun hk => (frame_invalidateQuery b).numbering.trans (h hk)

theorem Unnumbered.assemble {k : Kind} {b : Builder k} (h : b.Unnumbered) (hassembled : b.assembled = false)
    (hvalues : k = .select → b.leafValues = []) : b.assemble.Unnumbered := by
  rintro rfl
  have hassemble : b.assemble = _ := SqlSelectQueryBuilder.assemble_eq b hassembled
  have hnone : SqlSelectQueryBuilder.boundValues b = [] := hvalues rfl
  obtain ⟨hoffset, hregistered⟩ := Prod.mk.inj (h rfl)
  rw [hassemble]
  show (b.bindedValuesOffset, b.bindValues ++ SqlSelectQueryBuilder.boundValues b) = _
  rw [hoffset, hregistered, hnone]
  rfl

end Builder

/-- Rendering changes nothing in a builder without values. -/
theorem SqlSelectQueryBuilder.toString_of_unnumbered {b : SqlSelectQueryBuilder}
    (h : Builder.Unnumbered (k := .select) b) (hvalues : b.boundValues = []) :
    b.toString = (b.textFrom 0, b) := by
  obtain ⟨hoffset, hregistered⟩ : b.bindedValuesOffset = 0 ∧ b.bindValues = [] := Prod.mk.inj (h rfl)
  have hnumber : b.nextNumber = 0 := by
    rw [SqlConditionalQueryBuilderBase.nextNumber, hoffset, hregistered]
    rfl
  have hregister : b.register b.boundValues = b.toSqlConditionalQueryBuilderBase := by
    rw [SqlConditionalQueryBuilderBase.register, hvalues, List.append_nil]
  rw [toString_eq, hnumber, hregister]

/-- What a step does with one builder. -/
def Assembly.step [CaseFolding] {k : Kind} (a : Assembly k) : Step k → Assembly k
  | .call c => { a with builder := a.builder.apply c }
  | .query => a.query
  | .invalidateQuery => { a with builder := a.builder.invalidateQuery }

/-- The builders of a program, with what they have bound. -/
abbrev Assemblies := (k : Kind) → Nat → Assembly k

inductive AssemblyStep
  | step (k : Kind) (i : Nat) (s : Step k)
  | combineQueries (this query1 query2 : Nat) (type : UnionType)

namespace Assemblies

def new (db : QString) : Assemblies := fun k _ => ⟨Builder.new db k, []⟩

def selects (w : Assemblies) : SelectPool := fun i => (w .select i).builder

/-- `combineQueries`; the values of the union are bound. -/
def combineQueries (w : Assemblies) (this query1 query2 : Nat) (type : UnionType) : Assemblies :=
  if (w.selects this).acceptsCombination then
    let p := w.selects.combineQueries this query1 query2 type
    Function.update w .select fun i =>
      ⟨p i, if i = this then (p this).bindValues else (w .select i).bound⟩
  else w

section
variable [CaseFolding]

def step (w : Assemblies) : AssemblyStep → Assemblies
  | .step k i s => Function.update w k (Function.update (w k) i ((w k i).step s))
  | .combineQueries this query1 query2 type => w.combineQueries this query1 query2 type

/-- Every builder can be assembled again and again. -/
def Repeat (w : Assemblies) : Prop := ∀ k i, (w k i).Repeats

/-- What a step must not do: modify an assembled builder so that its members say something
else, give a select builder a value, or fill one with a union that its members do not say
themselves. -/
def Harmless (w : Assemblies) : AssemblyStep → Prop
  | .step k i (.call c) =>
      ((w k i).builder.assembled = true → ((w k i).builder.apply c).described = (w k i).builder.described) ∧
        (k = .select → ((w k i).builder.apply c).leafValues = [])
  | .step _ _ _ => True
  | .combineQueries this query1 query2 type =>
      (w.selects this).acceptsCombination = true →
        (((w.selects query1).textFrom 0 ++ unionName type
          ++ (w.selects query2).textFrom 0).toQString, []) = Builder.described (k := .select) (w.selects this)

end

/-- A state in which nothing has gone wrong. -/
structure Sound (w : Assemblies) : Prop where
  repeats : w.Repeat
  unnumbered : ∀ k i, (w k i).builder.Unnumbered

theorem Sound.boundValues {w : Assemblies} (h : w.Sound) (i : Nat) : (w.selects i).boundValues = [] :=
  ((Assembly.repeats_iff (w .select i)).1 (h.repeats .select i)).2 rfl

/-- Without values, a union only writes its text. -/
theorem Sound.combineQueries_eq {w : Assemblies} (h : w.Sound) {this : Nat}
    (haccepts : (w.selects this).acceptsCombination = true) (query1 query2 : Nat) (type : UnionType) :
    w.combineQueries this query1 query2 type =
      Function.update w .select (Function.update (w .select) this
        ⟨{ w.selects this with
            queryString := (w.selects query1).textFrom 0 ++ unionName type ++ (w.selects query2).textFrom 0
            assembled := true
            bindValues := [] }, []⟩) := by
  have htoString : ∀ i, (w.selects i).toString = ((w.selects i).textFrom 0, w.selects i) := fun i =>
    SqlSelectQueryBuilder.toString_of_unnumbered (h.unnumbered .select i) (h.boundValues i)
  have hnumbering : ∀ i, (w.selects i).bindedValuesOffset = 0 ∧ (w.selects i).bindValues = [] := fun i =>
    Prod.mk.inj (h.unnumbered .select i rfl)
  have hset : ∀ i, w.selects.set i (w.selects i) = w.selects := fun i => Function.update_eq_self i w.selects
  have hoffset : ∀ i, (w.selects i).setBindedValuesOffset 0 = w.selects i := by
    intro i
    rw [SqlSelectQueryBuilder.setBindedValuesOffset, ← (hnumbering i).1]
  have hpool : w.selects.combineQueries this query1 query2 type =
      w.selects.set this { w.selects this with
        queryString := (w.selects query1).textFrom 0 ++ unionName type ++ (w.selects query2).textFrom 0
        assembled := true
        bindValues := [] } := by
    rw [SelectPool.combineQueries, if_pos haccepts]
    simp only [htoString, hset, (hnumbering _).2, List.length_nil, hoffset, List.append_nil]
  rw [combineQueries, if_pos haccepts, hpool]
  show Function.update w .select _ = _
  refine congrArg (Function.update w .select) (funext fun i => ?_)
  by_cases hi : i = this
  · subst hi
    simp only [SelectPool.set_same, if_pos, Function.update_self]
  · simp only [SelectPool.set_of_ne hi, if_neg hi, Function.update_of_ne hi]
    rfl

section
variable [CaseFolding] {w : Assemblies}

omit [CaseFolding] in
/-- After a step of one builder, all depends on this one. -/
theorem Sound.repeat_update_iff (h : w.Sound) {k : Kind} {i : Nat} {a : Assembly k} :
    Repeat (Function.update w k (Function.update (w k) i a)) ↔ a.Repeats := by
  constructor
  · intro hall
    have hself := hall k i
    rwa [Function.update_self, Function.update_self] at hself
  · intro ha
    exact Runs.forall_update (P := fun _ (a : Assembly _) => a.Repeats)
      (fun k i => h.repeats k i) i ha

/-- **Which steps leave all builders so that they can be assembled again.** -/
theorem Sound.repeat_step_iff (h : w.Sound) (e : AssemblyStep) :
    (w.step e).Repeat ↔ w.Harmless e := by
  cases e with
  | step k i s =>
      have ha := (Assembly.repeats_iff _).1 (h.repeats k i)
      show Repeat (Function.update w k _) ↔ _
      rw [h.repeat_update_iff]
      cases s with
      | call c =>
          have hunnumbered := h.unnumbered k i
          have hsame := Builder.frame_apply (w k i).builder c
          show Assembly.Repeats ⟨(w k i).builder.apply c, (w k i).bound⟩ ↔ _
          rw [Assembly.repeats_iff, Harmless, Builder.described_eq hunnumbered,
            Builder.described_eq (hunnumbered.apply c)]
          refine and_congr_left fun _ => ?_
          show ((Builder.apply _ c).assembled = true → _) ↔ _
          rw [Builder.assembled_apply]
          refine imp_congr_right fun hassembled => ?_
          -- the statement is still the one from before
          have hstatement : Assembly.statement ⟨(w k i).builder.apply c, (w k i).bound⟩
              = (w k i).statement := by
            rw [Assembly.statement, Assembly.statement, hsame.queryString]
          rw [Assembly.Current, hstatement, (ha.1 hassembled : _ = _)]
          exact eq_comm
      | query => exact iff_of_true (Assembly.repeats_query (h.repeats k i)) trivial
      | invalidateQuery => exact iff_of_true (Assembly.repeats_invalidateQuery (h.repeats k i)) trivial
  | combineQueries this query1 query2 type =>
      rw [Harmless]
      show (w.combineQueries this query1 query2 type).Repeat ↔ _
      cases haccepts : (w.selects this).acceptsCombination with
      | false =>
          rw [combineQueries, haccepts]
          exact iff_of_true h.repeats fun hfalse => by cases hfalse
      | true =>
          rw [h.combineQueries_eq haccepts, h.repeat_update_iff, Assembly.repeats_iff]
          have hvalues := h.boundValues this
          have hunnumbered : ∀ text, Builder.Unnumbered (k := .select)
              { w.selects this with queryString := text, assembled := true, bindValues := [] } :=
            fun _ _ => Prod.ext (Prod.mk.inj (h.unnumbered .select this rfl)).1 rfl
          constructor
          · intro hrepeats _
            have hcurrent := hrepeats.1 rfl
            rw [Assembly.Current, ← Builder.described_eq (hunnumbered _)] at hcurrent
            exact hcurrent
          · intro hdescribed
            refine ⟨fun _ => ?_, fun _ => hvalues⟩
            rw [Assembly.Current, ← Builder.described_eq (hunnumbered _)]
            exact hdescribed rfl

theorem Sound.step (h : w.Sound) {e : AssemblyStep} (he : w.Harmless e) : (w.step e).Sound := by
  refine ⟨(h.repeat_step_iff e).2 he, ?_⟩
  cases e with
  | step k i s =>
      apply Runs.forall_update (P := fun _ (a : Assembly _) => a.builder.Unnumbered) h.unnumbered
      have hvalues := ((Assembly.repeats_iff _).1 (h.repeats k i)).2
      cases s with
      | call c => exact (h.unnumbered k i).apply c
      | query =>
          show (w k i).query.builder.Unnumbered
          rw [Assembly.query]
          split
          · exact h.unnumbered k i
          · next hassembled => exact (h.unnumbered k i).assemble (by simpa using hassembled) hvalues
      | invalidateQuery => exact (h.unnumbered k i).invalidateQuery
  | combineQueries this query1 query2 type =>
      show ∀ k i, (w.combineQueries this query1 query2 type k i).builder.Unnumbered
      cases haccepts : (w.selects this).acceptsCombination with
      | false =>
          rw [combineQueries, haccepts]
          exact h.unnumbered
      | true =>
          rw [h.combineQueries_eq haccepts]
          apply Runs.forall_update (P := fun _ (a : Assembly _) => a.builder.Unnumbered) h.unnumbered
          exact fun _ => Prod.ext (Prod.mk.inj (h.unnumbered .select this rfl)).1 rfl

omit [CaseFolding] in
theorem sound_new (db : QString) : (new db).Sound := by
  constructor
  · intro k i
    rw [Assembly.repeats_iff]
    constructor
    · intro hassembled
      cases k <;> cases hassembled
    · rintro rfl
      rfl
  · rintro k i rfl
    rfl

/-- **When every builder can be assembled again and again**, in every state of a run: no step
modifies what an assembled builder says, gives a select builder a value, or fills one by
`combineQueries`. -/
theorem repeats_run_iff (db : QString) (es : List AssemblyStep) :
    Runs.Along step (fun w e => (w.step e).Repeat) (new db) es ↔
      Runs.Along step Harmless (new db) es :=
  Runs.along_congr_of_kept (I := Sound) (fun _ _ hw he => hw.step he)
    (fun _ e hw => hw.repeat_step_iff e) (sound_new db) es

end

end Assemblies

namespace Assembly

variable {k : Kind}

/-- A builder after some steps, with what it has bound. -/
def after [CaseFolding] (db : QString) (steps : List (Step k)) : Assembly k :=
  ⟨Builder.after db steps, (Builder.after db steps : Builder k).bindList⟩

/-- `SELECT  WHERE id = 7`. -/
def whereSteps : List (Step .select) :=
  [.call (.conditional (.whereCondition (.addValueCondition idColumn .equals (.other 2 [7]))))]

/-- The union of two queries without conditions. -/
def unionOfPlain [CaseFolding] : Assembly .select :=
  let p := Runs.run SelectPool.step (SelectPool.new [])
    [.step 0 (.call (.addColumn (latin1 "a") [])), .combineQueries 2 0 1 .union]
  ⟨p 2, (p 2).bindValues⟩

/-- The value is bound once more, under the next number; and of the union nothing
is left. -/
theorem not_repeats_whereSteps :
    let _ : CaseFolding := .ascii
    (after [] whereSteps).query.statement =
        (latin1 "SELECT  WHERE id = :0", [.other 2 [7]])
      ∧ (after [] whereSteps).query.requery.statement =
        (latin1 "SELECT  WHERE id = :1", [.other 2 [7], .other 2 [7]])
      ∧ unionOfPlain.query.statement.1 = latin1 "SELECT a UNION SELECT "
      ∧ unionOfPlain.query.requery.statement.1 = latin1 "SELECT "
      ∧ ¬ (after [] whereSteps).Repeats ∧ ¬ unionOfPlain.Repeats := by
  intro _
  refine ⟨by decide, by decide, by decide, by decide, ?_, ?_⟩
  · intro h
    exact absurd (h 1) (by decide)
  · intro h
    exact absurd (congrArg Prod.fst (h 1)) (by decide)

end Assembly

end Sqlate
