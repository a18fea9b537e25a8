/-
Sqlate/CaseInsensitivity.lean

`setCaseSensitive( false )`: "the operands are converted to the same case
before comparison".

Two strings are the same text when `toLower` makes them equal, and LOWER of the
server is that function.  The condition added last is rendered as one
comparison; it has a truth value once its two sides are read in a row of the
table, with the placeholder of the caller bound, and compared by the server's
own operators, which are a parameter.  The flag keeps its promise when this
truth value is the same for all rows and values that are the same text.

It does for values.  For a deferred placeholder the name is converted and not
the value that is bound later, and for two columns nothing is:
`caseInsensitive_iff` says what is left to the server then.
-/
import Sqlate.ConditionReading

namespace Sqlate

section
variable [CaseFolding]

/-! ### Strings up to case -/

/-- LOWER of a string or of NULL. -/
def folded (x : Option QString) : Option QString := x.map CaseFolding.toLower

/-- The two differ at most in the case of their letters. -/
def SameFolded (x y : Option QString) : Prop := folded x = folded y

theorem SameFolded.refl (x : Option QString) : SameFolded x x := rfl

/-! ### The calls and what they add -/

/-- A call that adds a comparison of strings.  The string a value condition or
a placeholder condition compares with is not part of it: the one gets it when
it is added, the other when the placeholder is bound. -/
inductive StringCall
  | value (column : ColumnName) (op : CompareOperator)
  | placeholder (column : ColumnName) (op : CompareOperator) (p : PlaceholderName)
  | columns (column : ColumnName) (op : CompareOperator) (column2 : ColumnName)

namespace StringCall

/-- The call, when the string to compare with is `v`. -/
def call (v : QString) : StringCall → ConditionCall
  | value column op => .addValueCondition column op (.string v)
  | placeholder column op p => .addPlaceholderCondition column op p
  | columns column op column2 => .addColumnCondition column op column2

def column : StringCall → ColumnName
  | value column _ => column
  | placeholder column _ _ => column
  | columns column _ _ => column

def placeholder? : StringCall → Option PlaceholderName
  | placeholder _ _ p => some p
  | _ => none

end StringCall

/-- The comparison that the condition added last is rendered as, when the next
number is `n`. -/
def SqlCondition.lastComparison (cond : SqlCondition) (n : Nat) : Comparison :=
  let c := cond.subConditions.getLastD (.new .and)
  ⟨c.column, c.comparedColumn, c.placeholder, c.comparedValue, c.compareOp, n⟩

/-- Every one of the calls adds one leaf. -/
theorem StringCall.apply_eq_push (cond : SqlCondition) (k : StringCall) (v : QString) :
    ∃ c, (k.call v).apply cond = cond.push c ∧ c.subConditions = [] := by
  cases k with
  | value column op =>
      refine ⟨_, rfl, ?_⟩
      cases cond.isCaseSensitive <;> rfl
  | placeholder column op p =>
      refine ⟨_, rfl, ?_⟩
      cases cond.isCaseSensitive <;> rfl
  | columns column op column2 => exact ⟨_, rfl, rfl⟩

/-- **The call adds that comparison**: one more sub-condition, which is
rendered as the text of the comparison. -/
theorem StringCall.textFrom_added (cond : SqlCondition) (k : StringCall) (v : QString) (n : Nat) :
    ∃ c, ((k.call v).apply cond).subConditions = cond.subConditions ++ [c]
      ∧ c.textFrom n = (((k.call v).apply cond).lastComparison n).text := by
  obtain ⟨⟨subConditions, column, comparedColumn, placeholder, comparedValue, op, logicOp, flag⟩,
    hpush, hleaf⟩ := k.apply_eq_push cond v
  rw [hpush]
  refine ⟨_, rfl, ?_⟩
  subst hleaf
  simp only [SqlCondition.lastComparison, SqlCondition.push, List.getLastD_concat]
  rfl

/-- The flag stays as it is until it is set again. -/
theorem isCaseSensitive_applyCalls (cond : SqlCondition) (calls : List ConditionCall)
    (h : ∀ flag, .setCaseSensitive flag ∉ calls) :
    (applyCalls cond calls).isCaseSensitive = cond.isCaseSensitive := by
  induction calls generalizing cond with
  | nil => rfl
  | cons call calls ih =>
      rw [applyCalls, ih _ fun flag hmem => h flag (List.mem_cons_of_mem _ hmem)]
      cases call with
      | setCaseSensitive flag => exact absurd List.mem_cons_self (h flag)
      | _ => rfl

/-! ### The truth value of a comparison -/

/-- The contents of a row, NULL for none. -/
abbrev Row := ColumnName → Option QString

/-- How the server compares two strings or NULLs. -/
abbrev StringOperators := CompareOperator → Option QString → Option QString → Truth

/-- The value of an expression over a column: the column, or LOWER of it. -/
def Row.value (row : Row) (column : ColumnName) (text : SqlText) : Option QString :=
  if text = raw column.name then row column
  else if text = raw (SqlCondition.lowerOf column.name) then folded (row column)
  else none

@[simp] theorem Row.value_column (row : Row) (column : ColumnName) :
    row.value column (raw column.name) = row column := if_pos rfl

@[simp] theorem Row.value_lowerOf (row : Row) (column : ColumnName) :
    row.value column (raw (SqlCondition.lowerOf column.name)) = folded (row column) := by
  have hne : raw (SqlCondition.lowerOf column.name) ≠ raw column.name := by
    intro h
    have hlength := congrArg List.length (raw_injective h)
    simp only [SqlCondition.lowerOf, latin1, List.length_append, List.length_map] at hlength
    have hopening : 0 < ("LOWER( ").toList.length := by decide
    omega
  rw [Row.value, if_neg hne, if_pos rfl]

namespace StringCall

/-- The value of the right-hand side.  The caller has bound the name it gave to
`v`; under any other name nothing is bound. -/
def operand (row : Row) (v : QString) : StringCall → SqlText → Option QString
  | value _ _, [.bound _ (.string s)] => some s
  | value _ _, _ => none
  | placeholder _ _ p, text => if text = raw p.name then some v else none
  | columns _ _ column2, text => row.value column2 text

def truth (compare : StringOperators) (row : Row) (v : QString) (k : StringCall)
    (a : Comparison) : Truth :=
  compare a.compareOp (row.value k.column (raw a.column)) (k.operand row v a.rightHandSide)

end StringCall

/-- What the flag promises of a call: the truth value does not see the case of
the strings, and the placeholder has the name the caller gave it. -/
structure CaseInsensitive (compare : StringOperators) (cond : SqlCondition) (k : StringCall) :
    Prop where
  blind : ∀ n row row' v v', (∀ column, SameFolded (row column) (row' column)) →
    SameFolded (some v) (some v') →
    k.truth compare row v (((k.call v).apply cond).lastComparison n)
      = k.truth compare row' v' (((k.call v').apply cond).lastComparison n)
  named : ∀ p ∈ k.placeholder?, ∀ n v,
    (((k.call v).apply cond).lastComparison n).rightHandSide = raw p.name

/-- What is left to the server's operators and to the caller. -/
def ComparesUpToCase (compare : StringOperators) : StringCall → Prop
  | .value _ _ => True
  | .placeholder _ op p =>
      CaseFolding.toLower p.name = p.name
        ∧ ∀ x v v', SameFolded (some v) (some v') →
            compare op (folded x) (some v) = compare op (folded x) (some v')
  | .columns column op column2 =>
      ∀ x x' y y', SameFolded x x' → SameFolded y y' → (column = column2 → x = y ∧ x' = y') →
        compare op x y = compare op x' y'

/-! ### One lemma for each call -/

variable {compare : StringOperators} {cond : SqlCondition}

theorem lastComparison_value (hflag : cond.isCaseSensitive = false) (column : ColumnName)
    (op : CompareOperator) (s : QString) (n : Nat) :
    (((StringCall.value column op).call s).apply cond).lastComparison n
      = ⟨SqlCondition.lowerOf column.name, [], [], .string (CaseFolding.toLower s), op, n⟩ := by
  show (cond.addValueCondition column op (.string s)).lastComparison n = _
  simp only [SqlCondition.lastComparison, SqlCondition.addValueCondition, SqlCondition.push,
    hflag, List.getLastD_concat]
  rfl

theorem lastComparison_placeholder (hflag : cond.isCaseSensitive = false) (column : ColumnName)
    (op : CompareOperator) (p : PlaceholderName) (v : QString) (n : Nat) :
    (((StringCall.placeholder column op p).call v).apply cond).lastComparison n
      = ⟨SqlCondition.lowerOf column.name, [], CaseFolding.toLower p.name, .invalid, op, n⟩ := by
  show (cond.addPlaceholderCondition column op p).lastComparison n = _
  simp only [SqlCondition.lastComparison, SqlCondition.addPlaceholderCondition, SqlCondition.push,
    hflag, List.getLastD_concat]
  rfl

theorem lastComparison_columns (column : ColumnName) (op : CompareOperator) (column2 : ColumnName)
    (v : QString) (n : Nat) :
    (((StringCall.columns column op column2).call v).apply cond).lastComparison n
      = ⟨column.name, column2.name, [], .invalid, op, n⟩ := by
  show (cond.addColumnCondition column op column2).lastComparison n = _
  simp only [SqlCondition.lastComparison, SqlCondition.addColumnCondition, SqlCondition.push,
    List.getLastD_concat]
  rfl

/-- A deferred placeholder stands in the text as it was given exactly when
`toLower` leaves it alone. -/
theorem rightHandSide_placeholder_iff (p : PlaceholderName) (n : Nat) :
    rightHandSide n [] (CaseFolding.toLower p.name) .invalid = raw p.name
      ↔ CaseFolding.toLower p.name = p.name := by
  have hnone : takesNumber [] .invalid = false := rfl
  have hne : p.name ≠ [] := by
    intro h
    have hsize := p.size
    rw [h] at hsize
    cases hsize
  constructor
  · intro h
    rw [rightHandSide, hnone] at h
    rcases hlower : CaseFolding.toLower p.name with - | ⟨c, cs⟩
    · -- nothing is left of the name, the text is NULL
      rw [hlower] at h
      have hnull : p.name = latin1 "NULL" := (raw_injective h).symm
      have hcolon := p.startsWithColon
      rw [hnull] at hcolon
      exact absurd hcolon (by decide)
    · rw [hlower] at h
      exact raw_injective h
  · intro h
    rcases hname : p.name with - | ⟨c, cs⟩
    · exact absurd hname hne
    · rw [← hname, rightHandSide, hnone, h, hname]
      rfl

theorem truth_value (hflag : cond.isCaseSensitive = false) (column : ColumnName)
    (op : CompareOperator) (row : Row) (v : QString) (n : Nat) :
    StringCall.truth compare row v (.value column op)
        ((((StringCall.value column op).call v).apply cond).lastComparison n)
      = compare op (folded (row column)) (some (CaseFolding.toLower v)) := by
  rw [lastComparison_value hflag]
  show compare op (row.value column _) _ = _
  rw [Row.value_lowerOf]
  rfl

theorem truth_placeholder (hflag : cond.isCaseSensitive = false) (column : ColumnName)
    (op : CompareOperator) {p : PlaceholderName} (hname : CaseFolding.toLower p.name = p.name)
    (row : Row) (v : QString) (n : Nat) :
    StringCall.truth compare row v (.placeholder column op p)
        ((((StringCall.placeholder column op p).call v).apply cond).lastComparison n)
      = compare op (folded (row column)) (some v) := by
  rw [lastComparison_placeholder hflag]
  have hright := (rightHandSide_placeholder_iff p n).mpr hname
  show compare op (row.value column _) _ = _
  rw [Row.value_lowerOf]
  exact congrArg _ (if_pos hright)

theorem truth_columns (column : ColumnName) (op : CompareOperator) (column2 : ColumnName)
    (row : Row) (v : QString) (n : Nat) :
    StringCall.truth compare row v (.columns column op column2)
        ((((StringCall.columns column op column2).call v).apply cond).lastComparison n)
      = compare op (row column) (row column2) := by
  rw [lastComparison_columns]
  have hright : rightHandSide n column2.name [] .invalid = raw column2.name := by
    rcases hname : column2.name with - | ⟨c, cs⟩
    · exact absurd hname column2.nonempty
    · rfl
  show compare op (row.value column _) (row.value column2 (rightHandSide n _ _ _)) = _
  rw [hright, Row.value_column, Row.value_column]

/-! ### What the flag is worth -/

theorem caseInsensitive_value (hflag : cond.isCaseSensitive = false) (column : ColumnName)
    (op : CompareOperator) : CaseInsensitive compare cond (.value column op) where
  blind n row row' v v' hrow hv := by
    rw [truth_value hflag, truth_value hflag, hrow column]
    exact congrArg _ hv
  named p hp := by cases hp

theorem caseInsensitive_placeholder_iff (hflag : cond.isCaseSensitive = false)
    (column : ColumnName) (op : CompareOperator) (p : PlaceholderName) :
    CaseInsensitive compare cond (.placeholder column op p)
      ↔ ComparesUpToCase compare (.placeholder column op p) := by
  constructor
  · intro h
    have hname : CaseFolding.toLower p.name = p.name := by
      have hright := h.named p rfl 0 []
      rw [lastComparison_placeholder hflag] at hright
      exact (rightHandSide_placeholder_iff p 0).mp hright
    refine ⟨hname, fun x v v' hv => ?_⟩
    have hblind := h.blind 0 (fun _ => x) (fun _ => x) v v' (fun _ => .refl x) hv
    rwa [truth_placeholder hflag column op hname, truth_placeholder hflag column op hname] at hblind
  · rintro ⟨hname, hcompare⟩
    constructor
    · intro n row row' v v' hrow hv
      rw [truth_placeholder hflag column op hname, truth_placeholder hflag column op hname,
        hrow column]
      exact hcompare _ _ _ hv
    · intro q hq n v
      obtain rfl : p = q := Option.some.inj hq
      rw [lastComparison_placeholder hflag]
      exact (rightHandSide_placeholder_iff p n).mpr hname

theorem caseInsensitive_columns_iff (column : ColumnName) (op : CompareOperator)
    (column2 : ColumnName) :
    CaseInsensitive compare cond (.columns column op column2)
      ↔ ComparesUpToCase compare (.columns column op column2) := by
  constructor
  · intro h x x' y y' hx hy hsame
    -- the row that has `x` in the first column and `y` in the second
    let row (x y : Option QString) : Row := fun c => if c = column then x else y
    have hfirst : ∀ x y, row x y column = x := fun x y => if_pos rfl
    have hsecond : ∀ x y, (column = column2 → x = y) → row x y column2 = y := by
      intro x y hxy
      show (if column2 = column then x else y) = y
      split
      · next h => exact hxy h.symm
      · rfl
    have hrow : ∀ c, SameFolded (row x y c) (row x' y' c) := by
      intro c
      show SameFolded (if c = column then x else y) (if c = column then x' else y')
      split
      · exact hx
      · exact hy
    have hblind := h.blind 0 (row x y) (row x' y') [] [] hrow (.refl _)
    rwa [truth_columns, truth_columns, hfirst, hfirst, hsecond x y fun h => (hsame h).1,
      hsecond x' y' fun h => (hsame h).2] at hblind
  · intro h
    constructor
    · intro n row row' v v' hrow _
      rw [truth_columns, truth_columns]
      refine h _ _ _ _ (hrow column) (hrow column2) fun hsame => ?_
      rw [hsame]
      exact ⟨rfl, rfl⟩
    · intro p hp
      cases hp

/-- **What case insensitivity depends on.**  Comparisons with values always
keep the promise.  One with a deferred placeholder does when the name has no
letter to convert and the server takes a bound value for the same in any case,
and one of two columns when the server does so with their contents. -/
theorem caseInsensitive_iff (compare : StringOperators) (cond : SqlCondition) (k : StringCall)
    (hflag : cond.isCaseSensitive = false) :
    CaseInsensitive compare cond k ↔ ComparesUpToCase compare k := by
  cases k with
  | value column op =>
      exact iff_of_true (caseInsensitive_value hflag column op) trivial
  | placeholder column op p => exact caseInsensitive_placeholder_iff hflag column op p
  | columns column op column2 => exact caseInsensitive_columns_iff column op column2

/-- An operator that is true of equal strings only is never enough, as soon as
there is a letter that `toLower` converts. -/
theorem not_comparesUpToCase_of_equality {op : CompareOperator}
    (hA : CaseFolding.toLower (latin1 "A") = latin1 "a")
    (ha : CaseFolding.toLower (latin1 "a") = latin1 "a")
    (hop : ∀ s t, compare op (some s) (some t) = .true ↔ s = t) :
    (∀ column p, ¬ ComparesUpToCase compare (.placeholder column op p))
      ∧ ∀ column column2, column ≠ column2 →
          ¬ ComparesUpToCase compare (.columns column op column2) := by
  have hsame : SameFolded (some (latin1 "a")) (some (latin1 "A")) :=
    congrArg some (ha.trans hA.symm)
  have hne : latin1 "a" ≠ latin1 "A" := by decide
  have hequal : compare op (some (latin1 "a")) (some (latin1 "a")) = .true :=
    (hop _ _).mpr rfl
  constructor
  · rintro column p ⟨-, h⟩
    have htruth := h (some (latin1 "a")) _ _ hsame
    rw [show folded (some (latin1 "a")) = some (latin1 "a") from congrArg some ha, hequal]
      at htruth
    exact hne ((hop _ _).mp htruth.symm)
  · intro column column2 hcolumns h
    have htruth := h _ _ _ _ (.refl (some (latin1 "a"))) hsame fun heq => absurd heq hcolumns
    rw [hequal] at htruth
    exact hne ((hop _ _).mp htruth.symm)

end

/-! ### A placeholder with a capital letter -/

def nameColumn : ColumnName := ⟨latin1 "name", by decide⟩

def whoPlaceholder : PlaceholderName where
  name := latin1 ":Who"
  size := by decide
  startsWithColon := by decide
  notDigit := by
    rintro c ⟨⟩
    rfl

/-- The condition `name = :Who` is rendered with the placeholder `:who`, which
the caller never binds. -/
theorem not_caseInsensitive_capitalName :
    let _ : CaseFolding := .ascii
    let cond := (SqlCondition.new .and).setCaseSensitive false
    cond.isCaseSensitive = false
      ∧ ((cond.addPlaceholderCondition nameColumn .equals whoPlaceholder).textFrom 0).toQString
          = latin1 "LOWER( name )  = :who"
      ∧ ∀ compare, ¬ CaseInsensitive compare cond (.placeholder nameColumn .equals whoPlaceholder) := by
  intro _
  refine ⟨rfl, by decide, fun compare h => ?_⟩
  have hright := h.named whoPlaceholder rfl 0 []
  exact absurd hright (by decide)

/-- With the name in lower case, equality still tells bound values apart. -/
theorem caseInsensitive_iff_lowerCaseName :
    let _ : CaseFolding := .ascii
    let cond := (SqlCondition.new .and).setCaseSensitive false
    let compare : StringOperators := fun _ x y => if x = y then .true else .false
    let p : PlaceholderName := ⟨latin1 ":who", by decide, by decide, by rintro c ⟨⟩; rfl⟩
    cond.isCaseSensitive = false
      ∧ (CaseInsensitive compare cond (.placeholder nameColumn .equals p)
        ↔ ComparesUpToCase compare (.placeholder nameColumn .equals p)) := by
  intro _ cond compare p
  exact ⟨rfl, caseInsensitive_iff compare cond (.placeholder nameColumn .equals p) rfl⟩

end Sqlate
