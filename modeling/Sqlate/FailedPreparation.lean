/-
Sqlate/FailedPreparation.lean

Statements that cannot be prepared.

A `Holder` is a builder with the text of the statement in its `m_query`.  The
text, the flag and, in a SELECT, the bind list are written before the
statement is prepared, so that a builder that is left by the exception counts
as assembled (`keeps_query_iff`): the next call hands out whatever statement
is in `m_query`.  Whether a statement can be prepared is up to the environment,
and may be different at each call.  In a run, the calls keep their promises if
and only if no preparation fails (`along_honest_iff`).
-/
import Sqlate.Reassembly

namespace Sqlate

/-- A builder with the text of the statement in `m_query`, if there is one. -/
structure Holder (k : Kind) where
  builder : Builder k
  object : Option QString

/-- How a call is left. -/
inductive Outcome
  /-- By the exception of a statement that cannot be prepared. -/
  | threw
  /-- After this statement was returned, or executed. -/
  | used (object : Option QString)
  | done
  deriving DecidableEq, Repr

namespace Holder

variable {k : Kind}

/-- `query()`; also `exec()`, which executes what `query()` returns.  A statement
that is in the cache is never prepared again, and counts as one that can be. -/
def query (a : Holder k) (prepares : QString → Bool) : Holder k × Outcome :=
  if a.builder.assembled then (a, .used a.object)
  else
    let b := a.builder.assemble
    let text := b.queryString.toQString
    if prepares text then (⟨b, some text⟩, .used (some text))
    -- text and flag stay written, and so does the object of an earlier statement
    else (⟨b, a.object⟩, .threw)

/-- The object is that of the text. -/
def Current (a : Holder k) : Prop := a.object = some a.builder.queryString.toQString

/-- What a call promises that leaves this builder behind: after an exception it is
unassembled, and a statement that is used is that of its text. -/
def Keeps (a : Holder k) : Outcome → Prop
  | .threw => a.builder.assembled = false
  | .used object => object = some a.builder.queryString.toQString
  | .done => True

/-- The statement that `query()` has to prepare can be prepared. -/
def Prepares (a : Holder k) (prepares : QString → Bool) : Prop :=
  a.builder.assembled = true ∨ prepares a.builder.assemble.queryString.toQString = true

end Holder

/-! ### Builders of all kinds -/

/-- The builders of a program. -/
abbrev Holders := (k : Kind) → Nat → Holder k

inductive HolderStep
  | modify (k : Kind) (i : Nat) (c : Call k)
  | invalidateQuery (k : Kind) (i : Nat)
  | query (k : Kind) (i : Nat) (prepares : QString → Bool)
  | combineQueries (this query1 query2 : Nat) (type : UnionType) (prepares : QString → Bool)

namespace Holders

def new (db : QString) : Holders := fun k _ => ⟨Builder.new db k, none⟩

def set (w : Holders) {k : Kind} (i : Nat) (a : Holder k) : Holders :=
  Function.update w k (Function.update (w k) i a)

def selects (w : Holders) : SelectPool := fun i => (w .select i).builder

/-- The same objects, with other select builders. -/
def setSelects (w : Holders) (p : SelectPool) : Holders :=
  Function.update w .select fun i => ⟨p i, (w .select i).object⟩

/-- `combineQueries`; a builder that is not empty only gets a warning. -/
def combineQueries (w : Holders) (this query1 query2 : Nat) (type : UnionType)
    (prepares : QString → Bool) : Holders × Outcome :=
  if (w.selects this).acceptsCombination then
    let p := w.selects.combineQueries this query1 query2 type
    let text := (p this).queryString.toQString
    if prepares text then ((w.setSelects p).set (k := .select) this ⟨p this, some text⟩, .done)
    else (w.setSelects p, .threw)
  else (w, .done)

section
variable [CaseFolding]

def exec (w : Holders) : HolderStep → Holders × Outcome
  | .modify k i c => (w.set i ⟨(w k i).builder.apply c, (w k i).object⟩, .done)
  | .invalidateQuery k i => (w.set i ⟨(w k i).builder.invalidateQuery, (w k i).object⟩, .done)
  | .query k i prepares =>
      (w.set i ((w k i).query prepares).1, ((w k i).query prepares).2)
  | .combineQueries this query1 query2 type prepares =>
      w.combineQueries this query1 query2 type prepares

def step (w : Holders) (e : HolderStep) : Holders := (w.exec e).1

/-- The call keeps its promises; a union that is left by an exception can be combined
again. -/
def Honest (w : Holders) (e : HolderStep) : Prop :=
  match e with
  | .modify _ _ _ => True
  | .invalidateQuery _ _ => True
  | .query k i _ => (w.step e k i).Keeps (w.exec e).2
  | .combineQueries this _ _ _ _ =>
      (w.step e .select this).Keeps (w.exec e).2 ∧
        ((w.exec e).2 = .threw → ((w.step e).selects this).acceptsCombination = true)

end

/-- The statement that a step has to prepare can be prepared. -/
def Prepares (w : Holders) : HolderStep → Prop
  | .modify _ _ _ => True
  | .invalidateQuery _ _ => True
  | .query k i prepares => (w k i).Prepares prepares
  | .combineQueries this query1 query2 type prepares =>
      (w.selects this).acceptsCombination = false ∨
        prepares (w.selects.combineQueries this query1 query2 type this).queryString.toQString = true

end Holders

/-! ### Text and flag -/

namespace Builder

/-- Text and flag are the same. -/
structure SameText {k : Kind} (b b' : Builder k) : Prop where
  assembled : b'.assembled = b.assembled
  queryString : b'.queryString = b.queryString

/-- Modifications change neither. -/
theorem sameText_apply [CaseFolding] {k : Kind} (b : Builder k) (c : Call k) :
    SameText b (b.apply c) :=
  ⟨b.assembled_apply c, (frame_apply b c).queryString⟩

end Builder

namespace SelectPool

open Builder (SameText)

/-- A pool in which one builder more has got the text and the flag it had. -/
theorem sameText_set {p q : SelectPool} (h : ∀ j, SameText (k := .select) (p j) (q j)) {i : Nat}
    {b : SqlSelectQueryBuilder} (hb : SameText (k := .select) (q i) b) :
    ∀ j, SameText (k := .select) (p j) (q.set i b j) := by
  intro j
  by_cases hj : j = i
  · subst hj
    rw [set_same]
    exact ⟨hb.assembled.trans (h j).assembled, hb.queryString.trans (h j).queryString⟩
  · rw [set_of_ne hj]
    exact h j

theorem sameText_toString (b : SqlSelectQueryBuilder) : SameText (k := .select) b b.toString.2 := by
  rw [SqlSelectQueryBuilder.toString_eq]
  exact ⟨rfl, rfl⟩

theorem sameText_setBindedValuesOffset (b : SqlSelectQueryBuilder) (offset : Nat) :
    SameText (k := .select) b (b.setBindedValuesOffset offset) := ⟨rfl, rfl⟩

/-- A union writes neither text nor flag of other builders. -/
theorem sameText_combineQueries (p : SelectPool) (this query1 query2 : Nat) (type : UnionType) {j : Nat}
    (hj : j ≠ this) : SameText (k := .select) (p j) (p.combineQueries this query1 query2 type j) := by
  rw [combineQueries]
  split
  · rw [set_of_ne hj]
    have hsame : ∀ j, SameText (k := .select) (p j) (p j) := fun _ => ⟨rfl, rfl⟩
    have hfirst := sameText_set hsame (sameText_toString (p query1))
    have hoffset := sameText_set hfirst (i := query2) (sameText_setBindedValuesOffset _
      (p.set query1 (p query1).toString.2 query1).bindValues.length)
    exact sameText_set hoffset (sameText_toString _) j
  · exact ⟨rfl, rfl⟩

/-- The builder of a union is assembled. -/
theorem assembled_combineQueries {p : SelectPool} {this : Nat}
    (h : (p this).acceptsCombination = true) (query1 query2 : Nat) (type : UnionType) :
    (p.combineQueries this query1 query2 type this).assembled = true := by
  rw [combineQueries, if_pos h, set_same]

end SelectPool

/-! ### Objects and texts -/

namespace Holder

variable {k : Kind} {a : Holder k} {prepares : QString → Bool}

theorem query_of_assembled (h : a.builder.assembled = true) :
    a.query prepares = (a, .used a.object) := if_pos h

theorem query_of_prepares (h : a.builder.assembled = false)
    (hprepares : prepares a.builder.assemble.queryString.toQString = true) :
    a.query prepares =
      (⟨a.builder.assemble, some a.builder.assemble.queryString.toQString⟩,
        .used (some a.builder.assemble.queryString.toQString)) := by
  rw [query, if_neg (by simp [h])]
  exact if_pos hprepares

theorem query_of_not_prepares (h : a.builder.assembled = false)
    (hprepares : prepares a.builder.assemble.queryString.toQString = false) :
    a.query prepares = (⟨a.builder.assemble, a.object⟩, .threw) := by
  rw [query, if_neg (by simp [h])]
  exact if_neg (by simp [hprepares])

/-- An assembled builder has the object of its text. -/
def Good (a : Holder k) : Prop := a.builder.assembled = true → a.Current

theorem good_query (ha : a.Good) (h : a.Prepares prepares) : (a.query prepares).1.Good := by
  cases hassembled : a.builder.assembled with
  | true =>
      rw [query_of_assembled hassembled]
      exact ha
  | false =>
      rw [query_of_prepares hassembled (h.resolve_left (by simp [hassembled]))]
      exact fun _ => rfl

/-- **When `query()` keeps its promises**: a builder that is left by the exception
counts as assembled. -/
theorem keeps_query_iff (ha : a.Good) :
    (a.query prepares).1.Keeps (a.query prepares).2 ↔ a.Prepares prepares := by
  cases hassembled : a.builder.assembled with
  | true =>
      rw [query_of_assembled hassembled]
      exact ⟨fun _ => .inl hassembled, fun _ => ha hassembled⟩
  | false =>
      cases hprepares : prepares a.builder.assemble.queryString.toQString with
      | true =>
          rw [query_of_prepares hassembled hprepares]
          exact ⟨fun _ => .inr hprepares, fun _ => rfl⟩
      | false =>
          have hflag : a.builder.assemble.assembled = true :=
            (Builder.wrote_assemble hassembled).assembled
          rw [query_of_not_prepares hassembled hprepares, Keeps, hflag, Prepares, hassembled, hprepares]
          simp

theorem Good.of_sameText {b : Builder k} (ha : a.Good) (h : Builder.SameText a.builder b) :
    Good ⟨b, a.object⟩ := by
  intro hassembled
  rw [h.assembled] at hassembled
  rw [Current, h.queryString]
  exact ha hassembled

end Holder

namespace Holders

variable {w : Holders}

theorem good_set (hw : ∀ k i, (w k i).Good) {k : Kind} (i : Nat) {a : Holder k} (ha : a.Good) :
    ∀ l j, (w.set i a l j).Good :=
  Runs.forall_update (P := fun _ (a : Holder _) => a.Good) hw i ha

theorem builder_setSelects (p : SelectPool) (i : Nat) : (w.setSelects p .select i).builder = p i := by
  rw [setSelects, Function.update_self]

/-- The union gets the object of its text, and the other builders keep text and flag. -/
theorem good_union (hw : ∀ k i, (w k i).Good) {p : SelectPool} {this : Nat}
    (hp : ∀ j, j ≠ this → Builder.SameText (k := .select) (w.selects j) (p j)) :
    ∀ l j, ((w.setSelects p).set (k := .select) this
      ⟨p this, some (p this).queryString.toQString⟩ l j).Good := by
  intro l j
  by_cases hl : l = .select
  · subst hl
    rw [set, Function.update_self]
    by_cases hj : j = this
    · subst hj
      rw [Function.update_self]
      exact fun _ => rfl
    · rw [Function.update_of_ne hj, setSelects, Function.update_self]
      exact (hw .select j).of_sameText (hp j hj)
  · rw [set, Function.update_of_ne hl, setSelects, Function.update_of_ne hl]
    exact hw l j

@[simp] theorem set_same {k : Kind} (i : Nat) (a : Holder k) : w.set i a k i = a := by
  rw [set, Function.update_self, Function.update_self]

section
variable [CaseFolding]

omit [CaseFolding] in
theorem combineQueries_of_prepares {this query1 query2 : Nat} {type : UnionType}
    {prepares : QString → Bool} (h : (w.selects this).acceptsCombination = true)
    (hprepares : prepares
      (w.selects.combineQueries this query1 query2 type this).queryString.toQString = true) :
    w.combineQueries this query1 query2 type prepares =
      ((w.setSelects (w.selects.combineQueries this query1 query2 type)).set (k := .select) this
        ⟨w.selects.combineQueries this query1 query2 type this,
          some (w.selects.combineQueries this query1 query2 type this).queryString.toQString⟩, .done) := by
  rw [combineQueries, if_pos h]
  exact if_pos hprepares

omit [CaseFolding] in
theorem combineQueries_of_not_prepares {this query1 query2 : Nat} {type : UnionType}
    {prepares : QString → Bool} (h : (w.selects this).acceptsCombination = true)
    (hprepares : prepares
      (w.selects.combineQueries this query1 query2 type this).queryString.toQString = false) :
    w.combineQueries this query1 query2 type prepares =
      (w.setSelects (w.selects.combineQueries this query1 query2 type), .threw) := by
  rw [combineQueries, if_pos h]
  exact if_neg (by simp [hprepares])

omit [CaseFolding] in
theorem combineQueries_of_not_accepts {this : Nat} (h : (w.selects this).acceptsCombination = false)
    (query1 query2 : Nat) (type : UnionType) (prepares : QString → Bool) :
    w.combineQueries this query1 query2 type prepares = (w, .done) :=
  if_neg (by simp [h])

theorem good_step (hw : ∀ k i, (w k i).Good) {e : HolderStep} (he : w.Prepares e) :
    ∀ k i, (w.step e k i).Good := by
  cases e with
  | modify k i c => exact good_set hw i ((hw k i).of_sameText ((w k i).builder.sameText_apply c))
  | invalidateQuery k i =>
      apply good_set hw i
      intro hassembled
      rw [Builder.assembled_invalidateQuery] at hassembled
      cases hassembled
  | query k i prepares => exact good_set hw i (Holder.good_query (hw k i) he)
  | combineQueries this query1 query2 type prepares =>
      cases haccepts : (w.selects this).acceptsCombination with
      | false =>
          rw [step, exec, combineQueries_of_not_accepts haccepts]
          exact hw
      | true =>
          have hprepares := he.resolve_left (by simp [haccepts])
          rw [step, exec, combineQueries_of_prepares haccepts hprepares]
          exact good_union hw fun j hj =>
            SelectPool.sameText_combineQueries w.selects this query1 query2 type hj

/-- The exception leaves a builder that counts as assembled. -/
theorem honest_iff (hw : ∀ k i, (w k i).Good) (e : HolderStep) : w.Honest e ↔ w.Prepares e := by
  cases e with
  | modify k i c => exact Iff.rfl
  | invalidateQuery k i => exact Iff.rfl
  | query k i prepares =>
      show (w.set i ((w k i).query prepares).1 k i).Keeps ((w k i).query prepares).2 ↔ _
      rw [set_same]
      exact Holder.keeps_query_iff (hw k i)
  | combineQueries this query1 query2 type prepares =>
      rw [Honest, step, exec]
      cases haccepts : (w.selects this).acceptsCombination with
      | false =>
          rw [combineQueries_of_not_accepts haccepts]
          exact ⟨fun _ => .inl haccepts, fun _ => ⟨trivial, nofun⟩⟩
      | true =>
          cases hprepares : prepares
              (w.selects.combineQueries this query1 query2 type this).queryString.toQString with
          | true =>
              rw [combineQueries_of_prepares haccepts hprepares]
              exact ⟨fun _ => .inr hprepares, fun _ => ⟨trivial, nofun⟩⟩
          | false =>
              rw [combineQueries_of_not_prepares haccepts hprepares]
              have hflag := SelectPool.assembled_combineQueries haccepts query1 query2 type
              constructor
              · rintro ⟨hkeeps, -⟩
                have hunassembled : ((w.setSelects
                  (w.selects.combineQueries this query1 query2 type)) .select this).builder.assembled =
                    false := hkeeps
                rw [builder_setSelects] at hunassembled
                exact absurd (hflag.symm.trans hunassembled) Bool.noConfusion
              · intro h
                simp [Prepares, haccepts, hprepares] at h

/-- **When all calls keep their promises**: no statement fails to be prepared. -/
theorem along_honest_iff (db : QString) (es : List HolderStep) :
    Runs.Along step Honest (new db) es ↔ Runs.Along step Prepares (new db) es := by
  have hnew : ∀ k i, (new db k i).Good := by
    intro k i hassembled
    cases k <;> cases hassembled
  exact Runs.along_congr_of_kept (I := fun w : Holders => ∀ k i, (w k i).Good)
    (fun _ _ hw he => good_step hw he) (fun _ e hw => honest_iff hw e) hnew es

end

/-- An UPDATE that is executed, gets a column more, and cannot be prepared. -/
def failedSteps : List HolderStep :=
  [.modify .update 0 (.conditional (.setTable (latin1 "t"))),
    .modify .update 0 (.addColumnValue (latin1 "a") (.other 2 [1])),
    .query .update 0 (fun _ => true),
    .modify .update 0 (.addColumnValue (latin1 "b") (.other 2 [2])),
    .invalidateQuery .update 0,
    .query .update 0 (fun _ => false)]

/-- The next call executes the earlier statement. -/
theorem not_along_honest_failedSteps :
    let _ : CaseFolding := .ascii
    ((Runs.run step (new []) failedSteps).exec (.query .update 0 fun _ => true)).2 =
        .used (some (latin1 "UPDATE t SET a = :0"))
      ∧ (Runs.run step (new []) failedSteps .update 0).builder.queryString.toQString =
        latin1 "UPDATE t SET a = :0, b = :1"
      ∧ ¬ Runs.Along step Honest (new []) failedSteps := by
  intro _
  refine ⟨by decide, by decide, ?_⟩
  intro h
  have hfailed := Runs.along_iff.1 h (failedSteps.take 5) (.query .update 0 fun _ => false) [] rfl
  have hflag : (Runs.run step (new []) failedSteps .update 0).builder.assembled = false := hfailed
  exact absurd hflag (by decide)

end Holders

end Sqlate
