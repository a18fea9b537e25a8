/-
Sqlate/CombinedQueries.lean

Unions: a pool of select builders and `combineQueries`.

`combineQueries` renders both operands again, which registers their values
once more in the operands themselves, and shifts the numbers of the second
operand by an offset that it writes into that operand.  The offset stays
there.  The numbers are right as long as a builder with an offset is only
ever used as a second operand again (`numbered_run`); a builder that is
assembled on its own, or taken as a first operand, after it has been a second
one asks for positions beyond its bind list (`numbered_assemble_iff`).
-/
import Sqlate.Placeholders

namespace Sqlate

/-- The select builders of a program. -/
abbrev SelectPool := Nat → SqlSelectQueryBuilder

inductive PoolStep
  | step (i : Nat) (s : Step .select)
  | combineQueries (this query1 query2 : Nat) (type : UnionType)

def unionName : UnionType → SqlText
  | .unionAll => sql " UNION ALL "
  | .union => sql " UNION "

namespace SqlSelectQueryBuilder

/-- The guard of `combineQueries`. -/
def acceptsCombination (b : SqlSelectQueryBuilder) : Bool :=
  !b.assembled && b.bindValues.isEmpty && b.queryString.isEmpty

def setBindedValuesOffset (b : SqlSelectQueryBuilder) (offset : Nat) : SqlSelectQueryBuilder :=
  { b with bindedValuesOffset := offset }

/-- Each placeholder of the text finds its value in the bind list. -/
def Numbered (b : SqlSelectQueryBuilder) : Prop := b.queryString.NumberedIn b.bindValues

/-- The numbers that the next text of this builder gets are positions of its
own bind list. -/
def Unshifted (b : SqlSelectQueryBuilder) : Prop := b.bindedValuesOffset = 0 ∨ b.boundValues = []

instance (b : SqlSelectQueryBuilder) : Decidable b.Unshifted := inferInstanceAs (Decidable (_ ∨ _))

end SqlSelectQueryBuilder

namespace SelectPool

def new (db : QString) : SelectPool := fun _ => SqlSelectQueryBuilder.new db

def set (p : SelectPool) (i : Nat) (b : SqlSelectQueryBuilder) : SelectPool := Function.update p i b

/-- `combineQueries`, called on the builder `this`; the three builders need
not be different ones. -/
def combineQueries (p : SelectPool) (this query1 query2 : Nat) (type : UnionType) : SelectPool :=
  if (p this).acceptsCombination then
    let query1String := (p query1).toString.1
    let p := p.set query1 (p query1).toString.2
    -- nothing resets this offset later
    let p := p.set query2 ((p query2).setBindedValuesOffset (p query1).bindValues.length)
    let query2String := (p query2).toString.1
    let p := p.set query2 (p query2).toString.2
    p.set this { p this with
      queryString := query1String ++ unionName type ++ query2String
      assembled := true
      bindValues := (p query1).bindValues ++ (p query2).bindValues }
  else p

section
variable [CaseFolding]

def step (p : SelectPool) : PoolStep → SelectPool
  | .step i s => p.set i (Builder.step (k := .select) (p i) s)
  | .combineQueries this query1 query2 type => p.combineQueries this query1 query2 type

end

/-- What the numbering asks of a step: a text that is put at the start of a
bind list must not be numbered from an offset left over from an earlier
union. -/
def NumbersFromZero (p : SelectPool) : PoolStep → Prop
  | .step i .query => (p i).assembled = true ∨ (p i).Unshifted
  | .step _ _ => True
  | .combineQueries this query1 _ _ =>
      (p this).acceptsCombination = false ∨ (p query1).Unshifted

instance (p : SelectPool) : (e : PoolStep) → Decidable (p.NumbersFromZero e)
  | .step _ .query => inferInstanceAs (Decidable (_ ∨ _))
  | .step _ (.call _) => isTrue trivial
  | .step _ .invalidateQuery => isTrue trivial
  | .combineQueries _ _ _ _ => inferInstanceAs (Decidable (_ ∨ _))

end SelectPool

/-! ### Steps of single builders -/

namespace SqlSelectQueryBuilder

theorem marks_textFrom_nextNumber {b : SqlSelectQueryBuilder} (h : b.Unshifted) :
    SqlText.marks (b.textFrom b.nextNumber) = b.boundValues.zipIdx b.bindValues.length := by
  rw [marks_textFrom]
  rcases h with h | h
  · rw [SqlConditionalQueryBuilderBase.nextNumber, h, Nat.zero_add]
  · simp [h]

/-- **An assembly is numbered soundly exactly when the builder carries no
offset**, or has nothing to number. -/
theorem numbered_assemble_iff (b : SqlSelectQueryBuilder) (h : b.assembled = false) :
    b.assemble.Numbered ↔ b.Unshifted := by
  rw [assemble_eq b h]
  constructor
  · intro hnum
    by_contra hshift
    obtain ⟨hoffset, hvalues⟩ := not_or.mp hshift
    -- the last placeholder is the one that is out of range for sure
    have hlast : (b.boundValues.getLast hvalues, b.nextNumber + (b.boundValues.length - 1))
        ∈ SqlText.marks (b.textFrom b.nextNumber) := by
      rw [marks_textFrom, List.mem_zipIdx_iff_le_and_getElem?_sub]
      refine ⟨by omega, ?_⟩
      rw [Nat.add_sub_cancel_left, ← List.getLast?_eq_getElem?, List.getLast?_eq_some_getLast]
    have hlt := (hnum _ _ hlast).1
    have hpos := List.length_pos_iff.mpr hvalues
    simp only [SqlConditionalQueryBuilderBase.nextNumber,
      SqlConditionalQueryBuilderBase.register, List.length_append] at hlt
    omega
  · intro hunshifted
    exact SqlText.numberedIn_of_zipIdx (marks_textFrom_nextNumber hunshifted)

theorem Numbered.of_sameAssembly {b b' : SqlSelectQueryBuilder} (hb : b.Numbered)
    (h : Builder.SameAssembly (k := .select) b b') : b'.Numbered := by
  have htext : b'.queryString = b.queryString := h.queryString
  have hbinds : b'.bindValues = b.bindValues := congrArg Prod.snd h.numbering
  rwa [Numbered, htext, hbinds]

theorem numbered_step [CaseFolding] {b : SqlSelectQueryBuilder} (hb : b.Numbered)
    {s : Step .select} (hs : s = .query → b.assembled = true ∨ b.Unshifted) :
    Numbered (Builder.step (k := .select) b s) := by
  cases s with
  | call c => exact hb.of_sameAssembly (Builder.frame_apply (k := .select) b c)
  | query =>
      cases h : b.assembled with
      | true =>
          have hsame : Builder.step (k := .select) b .query = b := assemble_of_assembled b h
          rwa [hsame]
      | false => exact (numbered_assemble_iff b h).mpr ((hs rfl).resolve_left (by simp [h]))
  | invalidateQuery => exact hb

/-! ### Rendering an operand -/

@[simp] theorem bindValues_toString (b : SqlSelectQueryBuilder) :
    b.toString.2.bindValues = b.bindValues ++ b.boundValues := by
  rw [toString_eq]
  rfl

@[simp] theorem boundValues_toString (b : SqlSelectQueryBuilder) :
    b.toString.2.boundValues = b.boundValues := by
  rw [toString_eq]
  rfl

theorem marks_toString (b : SqlSelectQueryBuilder) :
    b.toString.1.marks = b.boundValues.zipIdx (b.bindedValuesOffset + b.bindValues.length) := by
  rw [toString_eq, marks_textFrom]
  rfl

/-- Rendering a builder once more only appends to its bind list. -/
theorem Numbered.toString {b : SqlSelectQueryBuilder} (hb : b.Numbered) :
    b.toString.2.Numbered := by
  rw [toString_eq]
  exact hb.append b.boundValues

theorem Numbered.setBindedValuesOffset {b : SqlSelectQueryBuilder} (hb : b.Numbered)
    (offset : Nat) : (b.setBindedValuesOffset offset).Numbered := hb

@[simp] theorem bindValues_setBindedValuesOffset (b : SqlSelectQueryBuilder) (offset : Nat) :
    (b.setBindedValuesOffset offset).bindValues = b.bindValues := rfl

@[simp] theorem boundValues_setBindedValuesOffset (b : SqlSelectQueryBuilder) (offset : Nat) :
    (b.setBindedValuesOffset offset).boundValues = b.boundValues := rfl

@[simp] theorem bindedValuesOffset_setBindedValuesOffset (b : SqlSelectQueryBuilder)
    (offset : Nat) : (b.setBindedValuesOffset offset).bindedValuesOffset = offset := rfl

/-- The text of a first operand, in front of everything that is registered
later. -/
theorem numberedIn_toString {b : SqlSelectQueryBuilder} (h : b.Unshifted)
    (more : List QVariant) : b.toString.1.NumberedIn (b.bindValues ++ b.boundValues ++ more) := by
  have hmarks : b.toString.1.marks = b.boundValues.zipIdx b.bindValues.length := by
    rw [toString_eq, marks_textFrom_nextNumber h]
  exact (SqlText.numberedIn_of_zipIdx hmarks).append more

/-- The text of a second operand: its numbers are shifted by what stands in
front of its own values in the bind list of the union. -/
theorem numberedIn_toString_setBindedValuesOffset (b : SqlSelectQueryBuilder)
    (offset : Nat) (before more : List QVariant)
    (hoffset : offset + b.bindValues.length = before.length) :
    (b.setBindedValuesOffset offset).toString.1.NumberedIn (before ++ b.boundValues ++ more) := by
  have hmarks := marks_toString (b.setBindedValuesOffset offset)
  simp only [bindedValuesOffset_setBindedValuesOffset, bindValues_setBindedValuesOffset,
    boundValues_setBindedValuesOffset, hoffset] at hmarks
  exact (SqlText.numberedIn_of_zipIdx hmarks).append more

end SqlSelectQueryBuilder

/-! ### Steps of the pool -/

namespace SelectPool

variable {p : SelectPool}

@[simp] theorem set_same (i : Nat) (b : SqlSelectQueryBuilder) : p.set i b i = b := by
  simp [set]

@[simp] theorem set_of_ne {i j : Nat} (h : j ≠ i) (b : SqlSelectQueryBuilder) :
    p.set i b j = p j := by
  simp [set, h]

theorem numbered_set (hp : ∀ j, (p j).Numbered) (i : Nat) {b : SqlSelectQueryBuilder}
    (hb : b.Numbered) : ∀ j, (p.set i b j).Numbered := by
  intro j
  by_cases hij : j = i
  · subst hij
    rwa [set_same]
  · rw [set_of_ne hij]
    exact hp j

/-- The builder that is the union of two texts. -/
theorem numbered_union {b : SqlSelectQueryBuilder} {text1 text2 : SqlText}
    {values1 values2 : List QVariant} (type : UnionType) (assembled : Bool)
    (h1 : text1.NumberedIn values1) (h2 : text2.NumberedIn (values1 ++ values2)) :
    SqlSelectQueryBuilder.Numbered { b with
      queryString := text1 ++ unionName type ++ text2
      assembled := assembled
      bindValues := values1 ++ values2 } := by
  have hname : (unionName type).marks = [] := by cases type <;> exact SqlText.marks_sql _
  exact ((h1.append values2).concat (SqlText.numberedIn_of_marks_eq_nil hname _)).concat h2

/-- **An accepted union with an unshifted first operand is numbered soundly**,
also when the operands are the same builder. -/
theorem numbered_combineQueries (hp : ∀ j, (p j).Numbered) {query1 : Nat}
    (h1 : (p query1).Unshifted) (this query2 : Nat) (type : UnionType) :
    ∀ j, (p.combineQueries this query1 query2 type j).Numbered := by
  rw [combineQueries]
  split
  · -- the four writes in order: both operands, the offset between them, the union
    have hp1 := numbered_set hp query1 (hp query1).toString
    have hp2 := numbered_set hp1 query2
      ((hp1 query2).setBindedValuesOffset (p.set query1 (p query1).toString.2 query1).bindValues.length)
    refine numbered_set (numbered_set hp2 query2 (hp2 query2).toString) this
      (numbered_union type true ?_ ?_)
    · -- the first text
      by_cases h12 : query2 = query1
      · subst h12
        simpa using SqlSelectQueryBuilder.numberedIn_toString h1 (p query2).boundValues
      · simpa [Ne.symm h12] using SqlSelectQueryBuilder.numberedIn_toString h1 []
    · by_cases h12 : query2 = query1
      · subst h12
        -- both halves of the bind list are the operand's own, rendered twice
        have hsecond := (p query2).toString.2.numberedIn_toString_setBindedValuesOffset
          (p query2).toString.2.bindValues.length
          ((p query2).bindValues ++ (p query2).boundValues ++ (p query2).boundValues
            ++ (p query2).bindValues) (p query2).boundValues
          (by simp; omega)
        simpa using hsecond
      · have hsecond := (p query2).numberedIn_toString_setBindedValuesOffset
          (p query1).toString.2.bindValues.length
          ((p query1).toString.2.bindValues ++ (p query2).bindValues) [] (by simp; omega)
        simpa [h12, Ne.symm h12] using hsecond
  · exact hp

section
variable [CaseFolding]

theorem numbered_step (e : PoolStep) (hp : ∀ j, (p j).Numbered) (he : p.NumbersFromZero e) :
    ∀ j, (p.step e j).Numbered := by
  cases e with
  | step i s =>
      refine numbered_set hp i (SqlSelectQueryBuilder.numbered_step (hp i) ?_)
      rintro rfl
      exact he
  | combineQueries this query1 query2 type =>
      rcases he with hrejected | hunshifted
      · rw [step, combineQueries, if_neg (by simp [hrejected])]
        exact hp
      · exact numbered_combineQueries hp hunshifted this query2 type

/-- **Placeholder numbering under unions**: in a run in which no text at the
start of a bind list is numbered from a left-over offset, every placeholder of
every builder's text finds its value in the bind list of that builder. -/
theorem numbered_run (db : QString) (es : List PoolStep)
    (hes : Runs.Along step NumbersFromZero (new db) es) :
    ∀ j, (Runs.run step (new db) es j).Numbered :=
  Runs.run_invariant (P := NumbersFromZero) (I := fun p => ∀ j, (p j).Numbered)
    (fun _ e hp he => numbered_step e hp he) (fun _ => SqlText.numberedIn_of_marks_eq_nil rfl _) hes

end

/-! ### Runs -/

/-- Give builder `i` a condition on `id`. -/
def whereStep (i : Nat) (value : QVariant) : PoolStep :=
  .step i (.call (.conditional (.whereCondition
    (.addValueCondition idColumn .equals value))))

/-- Two unions with the same operands, and a union of a query with itself. -/
def unionSteps : List PoolStep :=
  [whereStep 0 (.other 2 [3]), whereStep 1 (.other 2 [2]), .combineQueries 2 0 1 .union,
   .combineQueries 3 0 1 .unionAll, .combineQueries 4 0 0 .union, .step 2 .query]

theorem numbered_run_unionSteps :
    (Runs.run (@step .ascii) (new []) unionSteps 2).Numbered ∧
      (Runs.run (@step .ascii) (new []) unionSteps 4).Numbered := by
  have hnumbered := @numbered_run .ascii [] unionSteps (by decide)
  exact ⟨hnumbered 2, hnumbered 4⟩

/-- The second operand of a union is executed on its own. -/
def operandReusedSteps : List PoolStep :=
  [whereStep 0 (.other 2 [3]), whereStep 1 (.other 2 [2]), .combineQueries 2 0 1 .union,
   .step 1 .query]

/-- **A second operand loses its values**: its text asks for `:2`, but its
bind list has two entries. -/
theorem not_numbered_operandReusedSteps :
    ¬ (Runs.run (@step .ascii) (new []) operandReusedSteps 1).Numbered := by
  intro h
  exact absurd (h (.other 2 [2]) 2 (by decide)).1 (by decide)

end SelectPool

end Sqlate
