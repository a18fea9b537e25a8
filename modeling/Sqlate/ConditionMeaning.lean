/-
Sqlate/ConditionMeaning.lean

What the calls on a condition ask of a row, and what the server finds.

`truthsOf` are the truth values of the comparisons that calls add to a condition, for
a row whose columns have names (`Scope`); the calls say it without texts and numbers.
The server gets the text and the values bound to its placeholders.  If the calls name
columns (`NamedCalls`), it reads a condition that has, in every row, the truth value
that is asked for (`conditionRead_of_named`).

`setCaseSensitive( false )` puts LOWER around the column; the string of a value is
converted, and of a deferred placeholder the name.
-/
import Sqlate.StatementServer
import Sqlate.QueryBuilders

namespace Sqlate

/-! ### What the calls ask for -/

def isColumn (scope : Scope) (w : QString) : Bool :=
  match operandOf scope [w] with
  | some (.column _) => true
  | _ => false

/-- A placeholder that is not generated. -/
structure IsDeferred (w : QString) : Prop where
  isPlaceholder : isPlaceholder w
  notGenerated : ∀ n, w ≠ placeholderName n

theorem IsDeferred.isName {w : QString} (h : IsDeferred w) : isName w = true :=
  isName_of_isPlaceholder h.isPlaceholder

def ConditionCall.caseSensitivity (flag : Bool) : ConditionCall → Bool
  | .setCaseSensitive flag => flag
  | _ => flag

def ConditionCall.operator (op : LogicOperator) : ConditionCall → LogicOperator
  | .setLogicOperator op => op
  | _ => op

/-- The logic operator after some calls. -/
def lastOperator (op : LogicOperator) (calls : List ConditionCall) : LogicOperator :=
  calls.foldl ConditionCall.operator op

section
variable [CaseFolding]

mutual

/-- The names in a call are those of columns, and of placeholders. -/
def ConditionCall.Named (scope : Scope) (isCaseSensitive : Bool) : ConditionCall → Prop
  | .addValueCondition column _ _ => isColumn scope column.name
  | .addPlaceholderCondition column _ p =>
      isColumn scope column.name
        ∧ IsDeferred (if isCaseSensitive then p.name else CaseFolding.toLower p.name)
  | .addColumnCondition column _ column2 => isColumn scope column.name ∧ isColumn scope column2.name
  | .addCondition op calls =>
      NamedCalls scope true calls ∧ (applyCalls (.new op) calls).subConditions ≠ []
  | .setLogicOperator _ => True
  | .setCaseSensitive _ => True

def NamedCalls (scope : Scope) (isCaseSensitive : Bool) : List ConditionCall → Prop
  | [] => True
  | call :: calls =>
      call.Named scope isCaseSensitive
        ∧ NamedCalls scope (call.caseSensitivity isCaseSensitive) calls

end

end

namespace Server

/-- The value that is asked for. -/
def asked (S : Server) : QVariant → QVariant
  | .sqlNow => S.now
  | v => v.bindForm

section
variable (S : Server) (scope : Scope) (given : QString → QVariant) (r : Record)

/-- What a column of a row holds. -/
def columnValue (w : QString) : QVariant :=
  ((scope.column w).map r).getD .invalid

variable [CaseFolding]

mutual

/-- The truth value of what a call adds, if it adds something; `given` are the values
the caller has bound to the deferred placeholders. -/
def truths (isCaseSensitive : Bool) : ConditionCall → List Truth
  | .addValueCondition column op value =>
      match isCaseSensitive, value with
      | false, .string s =>
          [S.compare op (S.toLower (columnValue scope r column.name)) (.string (CaseFolding.toLower s))]
      | _, value => [S.compare op (columnValue scope r column.name) (S.asked value)]
  | .addPlaceholderCondition column op p =>
      if isCaseSensitive then [S.compare op (columnValue scope r column.name) (given p.name)]
      else
        [S.compare op (S.toLower (columnValue scope r column.name)) (given (CaseFolding.toLower p.name))]
  | .addColumnCondition column op column2 =>
      [S.compare op (columnValue scope r column.name) (columnValue scope r column2.name)]
  | .addCondition op calls => [(lastOperator op calls).connective.fold (truthsOf true calls)]
  | .setLogicOperator _ => []
  | .setCaseSensitive _ => []

def truthsOf (isCaseSensitive : Bool) : List ConditionCall → List Truth
  | [] => []
  | call :: calls =>
      truths isCaseSensitive call ++ truthsOf (call.caseSensitivity isCaseSensitive) calls

end

end

end Server

/-! ### What a leaf asks for -/

/-- The names of a leaf are those of columns, and of placeholders. -/
structure Comparison.Named (scope : Scope) (a : Comparison) : Prop where
  column : isColumn scope a.column
    ∨ ∃ name, isColumn scope name ∧ a.column = SqlCondition.lowerOf name
  comparedColumn : a.comparedColumn = [] ∨ isColumn scope a.comparedColumn
  placeholder : a.placeholder = [] ∨ IsDeferred a.placeholder

theorem exists_of_isColumn {scope : Scope} {w : QString} (h : isColumn scope w) :
    ∃ c, operandOf scope [w] = some (.column c) ∧ scope.column w = some c ∧ isName w = true := by
  rw [isColumn] at h
  split at h
  case h_1 c hoperand =>
    have hcolumn : scope.column w = some c := by
      rw [operandOf] at hoperand
      split_ifs at hoperand
      · cases hoperand
      · cases hoperand
      · obtain ⟨c', hc', heq⟩ := Option.map_eq_some_iff.1 hoperand
        cases heq
        exact hc'
    exact ⟨c, hoperand, hcolumn, scope.isName_of_column hcolumn⟩
  case h_2 => cases h

theorem Comparison.Named.readable {scope : Scope} {a : Comparison} (h : a.Named scope) :
    a.Readable where
  column := by
    obtain hcolumn | ⟨name, hname, hcolumn⟩ := h.column
    · obtain ⟨-, -, -, hname⟩ := exists_of_isColumn hcolumn
      exact .inl hname
    · obtain ⟨-, -, -, hname⟩ := exists_of_isColumn hname
      exact .inr ⟨name, hname, hcolumn⟩
  comparedColumn := by
    refine h.comparedColumn.imp_right fun hcolumn => ?_
    obtain ⟨-, -, -, hname⟩ := exists_of_isColumn hcolumn
    exact hname
  placeholder := h.placeholder.imp_right IsDeferred.isName

/-- The two sides of a leaf, without its number. -/
def Comparison.leftOperand (scope : Scope) (a : Comparison) : Operand :=
  (operandOf scope (words a.column)).getD .null

namespace Server

variable (S : Server) (scope : Scope) (given : QString → QVariant) (r : Record)

/-- The value of the right-hand side. -/
def rightValue (a : Comparison) : QVariant :=
  if takesNumber a.comparedColumn a.comparedValue then a.comparedValue.bindForm
  else if !a.comparedColumn.isEmpty then columnValue scope r a.comparedColumn
  else if a.comparedValue.isValid then S.now
  else if !a.placeholder.isEmpty then given a.placeholder
  else .invalid

/-- The truth value that a leaf asks for. -/
def leafTruth (a : Comparison) : Truth :=
  S.compare a.compareOp (S.operandValue (fun _ => none) r (a.leftOperand scope))
    (S.rightValue scope given r a)

end Server

/-! ### What the server finds -/

section
variable {S : Server} {scope : Scope} {given : QString → QVariant} {r : Record}
  {parameters : Parameters} {a : Comparison}

/-- The placeholders of a leaf are bound to its value, or to what is given. -/
structure Comparison.Bound (given : QString → QVariant) (parameters : Parameters) (a : Comparison) :
    Prop where
  generated : takesNumber a.comparedColumn a.comparedValue →
    parameters (placeholderName a.number) = some a.comparedValue.bindForm
  deferred : ∀ w, IsDeferred w → (parameters w).getD .invalid = given w

theorem words_lowerOf {name : QString} (h : isName name = true) :
    words (SqlCondition.lowerOf name) = [latin1 "LOWER", latin1 "(", name, latin1 ")"] := by
  have hleft : words (latin1 "LOWER( ") = [latin1 "LOWER", latin1 "("] := by decide
  have hright : words (latin1 " ) ") = [latin1 ")"] := by decide
  rw [SqlCondition.lowerOf, words_append_of_right (separates_of_mem rfl separates_space),
    words_append_of_left (separates_of_mem rfl separates_space), words_of_isName h, hleft, hright]
  rfl

/-- The left-hand side is a column, or LOWER of one, and no placeholder. -/
theorem Comparison.Named.left (h : a.Named scope) :
    operandOf scope a.read.left = some (a.leftOperand scope)
      ∧ ∀ P Q : Parameters, S.operandValue P r (a.leftOperand scope)
          = S.operandValue Q r (a.leftOperand scope) := by
  have hleft : a.read.left = words a.column := rfl
  rw [hleft, Comparison.leftOperand]
  obtain hcolumn | ⟨name, hname, hcolumn⟩ := h.column
  · obtain ⟨c, hoperand, -, hname⟩ := exists_of_isColumn hcolumn
    rw [words_of_isName hname, hoperand]
    exact ⟨rfl, fun _ _ => rfl⟩
  · obtain ⟨c, -, hc, hname⟩ := exists_of_isColumn hname
    have hlower : lower (latin1 "LOWER") = latin1 "lower" := by decide
    have hoperand : operandOf scope [latin1 "LOWER", latin1 "(", name, latin1 ")"]
        = some (.lowerColumn c) := by
      rw [operandOf, if_pos hlower, hc]
      rfl
    rw [hcolumn, words_lowerOf hname, hoperand]
    exact ⟨rfl, fun _ _ => rfl⟩

theorem operandOf_placeholder {w : QString} (h : isPlaceholder w = true) :
    operandOf scope [w] = some (.parameter w) := by
  rw [operandOf, if_pos h]

/-- The right-hand side has the value that is asked for. -/
theorem Comparison.Named.right (h : a.Named scope) (hbound : a.Bound given parameters) :
    ∃ o, operandOf scope a.read.right = some o
      ∧ S.operandValue parameters r o = S.rightValue scope given r a := by
  have hright : a.read.right = words a.rightHandSide.toQString := rfl
  rw [hright, Comparison.rightHandSide, Sqlate.rightHandSide, Server.rightValue]
  split_ifs with hnumber hcolumn hvalue hplaceholder
  · have htext : SqlText.toQString [Sym.bound a.number a.comparedValue]
        = placeholderName a.number := by simp [Sym.toQString]
    rw [htext, words_of_isName (isName_placeholderName a.number), 
      operandOf_placeholder (isPlaceholder_placeholderName a.number)]
    refine ⟨_, rfl, ?_⟩
    rw [Server.operandValue, hbound.generated hnumber]
    rfl
  · -- the branches of `rightHandSide` in its order: column, `now()`, placeholder, NULL
    obtain hnil | hcompared := h.comparedColumn
    · simp [hnil] at hcolumn
    obtain ⟨c, hoperand, hc, hname⟩ := exists_of_isColumn hcompared
    rw [SqlText.toQString_raw, words_of_isName hname, hoperand, Server.columnValue, hc]
    exact ⟨_, rfl, rfl⟩
  · have hwords : words (latin1 "now()") = [latin1 "now", latin1 "(", latin1 ")"] := by decide
    have hlower : lower (latin1 "now") = latin1 "now" := by decide
    rw [currentDateTime, SqlText.toQString_sql, hwords, operandOf, if_pos hlower]
    exact ⟨_, rfl, rfl⟩
  · obtain hnil | hdeferred := h.placeholder
    · simp [hnil] at hplaceholder
    rw [SqlText.toQString_raw, words_of_isName hdeferred.isName,
      operandOf_placeholder hdeferred.isPlaceholder]
    exact ⟨_, rfl, hbound.deferred _ hdeferred⟩
  · have hname : isName (latin1 "NULL") = true := by decide
    have hhead : isPlaceholder (latin1 "NULL") = false := by decide
    have hlower : lower (latin1 "NULL") = latin1 "null" := by decide
    rw [SqlText.toQString_sql, words_of_isName hname, operandOf, hhead, if_neg Bool.false_ne_true,
      if_pos hlower]
    exact ⟨_, rfl, rfl⟩

/-- **A leaf has the truth value that it asks for.** -/
theorem Comparison.Named.truth (h : a.Named scope) (hbound : a.Bound given parameters) :
    a.read.resolves scope
      ∧ S.truth parameters scope r a.read = S.leafTruth scope given r a := by
  obtain ⟨hleft, hsame⟩ := h.left (S := S) (r := r)
  obtain ⟨o, hright, hvalue⟩ := h.right (S := S) (r := r) hbound
  constructor
  · rw [ReadComparison.resolves, hleft, hright]
    rfl
  · rw [Server.truth, hleft, hright]
    show S.compare _ _ (S.operandValue parameters r o) = _
    rw [hvalue, hsame parameters fun _ => none]
    rfl

end

/-! ### The trees of the calls -/

theorem toTrees_append (n : Nat) (cs ds : List SqlCondition) :
    toTrees n (cs ++ ds) = toTrees n cs ++ toTrees (n + (boundValuesOf cs).length) ds := by
  induction cs generalizing n with
  | nil => rfl
  | cons c cs ih =>
      rw [List.cons_append, toTrees, ih, toTrees, boundValuesOf, List.length_append, Nat.add_assoc]
      rfl

/-- What holds of all leaves, with one more condition behind the others. -/
theorem forall_leavesOf_push {P : Comparison → Prop} {cs : List SqlCondition} {c : SqlCondition}
    (hcs : ∀ n, ∀ a ∈ ConnTree.leavesOf (toTrees n cs), P a) (hc : ∀ n, ∀ a ∈ (c.toTree n).leaves, P a)
    (n : Nat) : ∀ a ∈ ConnTree.leavesOf (toTrees n (cs ++ [c])), P a := by
  intro a ha
  rw [toTrees_append, ConnTree.leavesOf_append, List.mem_append] at ha
  obtain ha | ha := ha
  · exact hcs n a ha
  · simp only [toTrees, ConnTree.leavesOf, List.append_nil] at ha
    exact hc _ a ha

mutual

/-- **The number of a leaf is the position of its value.** -/
theorem number_of_mem_leaves (n : Nat) : (c : SqlCondition) → ∀ a ∈ (c.toTree n).leaves,
    takesNumber a.comparedColumn a.comparedValue →
    ∃ i, a.number = n + i ∧ c.boundValues[i]? = some a.comparedValue
  | ⟨subConditions, column, comparedColumn, placeholder, comparedValue, compareOp, logicOp, _⟩ => by
      intro a ha htakes
      rw [SqlCondition.toTree] at ha
      rw [SqlCondition.boundValues]
      split at ha
      · next hleaf =>
          obtain rfl := List.mem_singleton.1 ha
          refine ⟨0, rfl, ?_⟩
          rw [if_pos hleaf, if_pos htakes]
          rfl
      · next hnode =>
          rw [if_neg hnode]
          exact number_of_mem_leavesOf n subConditions a ha htakes

theorem number_of_mem_leavesOf (n : Nat) : (cs : List SqlCondition) →
    ∀ a ∈ ConnTree.leavesOf (toTrees n cs), takesNumber a.comparedColumn a.comparedValue →
    ∃ i, a.number = n + i ∧ (boundValuesOf cs)[i]? = some a.comparedValue
  | [], _, ha, _ => by cases ha
  | c :: cs, a, ha, htakes => by
      rw [toTrees, ConnTree.leavesOf, List.mem_append] at ha
      rw [boundValuesOf]
      obtain ha | ha := ha
      · obtain ⟨i, hi, hvalue⟩ := number_of_mem_leaves n c a ha htakes
        refine ⟨i, hi, ?_⟩
        rw [List.getElem?_append_left (List.getElem?_eq_some_iff.1 hvalue).1, hvalue]
      · obtain ⟨i, hi, hvalue⟩ := number_of_mem_leavesOf _ cs a ha htakes
        refine ⟨c.boundValues.length + i, by rw [hi, Nat.add_assoc], ?_⟩
        rw [List.getElem?_append_right (Nat.le_add_right _ i), Nat.add_sub_cancel_left, hvalue]

end

section
variable (S : Server) (scope : Scope) (given : QString → QVariant) (r : Record)

/-- A condition has a truth value, and its names are good, with any numbers. -/
structure SqlCondition.Means (c : SqlCondition) (x : Truth) : Prop where
  value : ∀ n, (c.toTree n).eval (S.leafTruth scope given r) = x
  named : ∀ n, ∀ a ∈ (c.toTree n).leaves, a.Named scope

/-- The same for the sub-conditions of a condition. -/
structure MeanAll (cs : List SqlCondition) (xs : List Truth) : Prop where
  values : ∀ n, (toTrees n cs).map (ConnTree.eval (S.leafTruth scope given r)) = xs
  named : ∀ n, ∀ a ∈ ConnTree.leavesOf (toTrees n cs), a.Named scope

variable {S scope given r} {cs : List SqlCondition} {xs : List Truth} {c : SqlCondition} {x : Truth}

theorem MeanAll.nil : MeanAll S scope given r [] [] :=
  ⟨fun _ => rfl, fun _ _ ha => by cases ha⟩

theorem MeanAll.push (hcs : MeanAll S scope given r cs xs) (hc : c.Means S scope given r x) :
    MeanAll S scope given r (cs ++ [c]) (xs ++ [x]) where
  values n := by
    rw [toTrees_append, List.map_append, hcs.values]
    show xs ++ [ConnTree.eval _ _] = _
    rw [hc.value]
  named := forall_leavesOf_push hcs.named hc.named

/-- A node folds its operator over what its sub-conditions mean. -/
theorem MeanAll.node (hcs : MeanAll S scope given r c.subConditions xs)
    (hne : c.subConditions ≠ []) :
    c.Means S scope given r (c.logicOp.connective.fold xs) := by
  obtain ⟨subConditions, column, comparedColumn, placeholder, comparedValue, op, logicOp, flag⟩ := c
  have htree : ∀ n, SqlCondition.toTree n ⟨subConditions, column, comparedColumn, placeholder,
      comparedValue, op, logicOp, flag⟩ = .node logicOp.connective (toTrees n subConditions) := by
    intro n
    have hempty : subConditions.isEmpty = false := by simpa using hne
    rw [SqlCondition.toTree, hempty]
    rfl
  constructor
  · intro n
    rw [htree, ConnTree.eval, ConnTree.evalOf_eq_fold]
    exact congrArg _ (hcs.values n)
  · intro n a ha
    rw [htree] at ha
    exact hcs.named n a ha

/-- A leaf, whatever its number. -/
theorem SqlCondition.means_leaf {column comparedColumn placeholder : QString}
    {comparedValue : QVariant} {op : CompareOperator} {logicOp : LogicOperator} {flag : Bool}
    (hnamed : ∀ n, Comparison.Named scope ⟨column, comparedColumn, placeholder, comparedValue, op, n⟩)
    (hvalue : ∀ n, S.leafTruth scope given r
      ⟨column, comparedColumn, placeholder, comparedValue, op, n⟩ = x) :
    SqlCondition.Means S scope given r
      ⟨[], column, comparedColumn, placeholder, comparedValue, op, logicOp, flag⟩ x where
  value n := by
    rw [SqlCondition.toTree]
    exact hvalue n
  named n a ha := by
    rw [SqlCondition.toTree] at ha
    obtain rfl := List.mem_singleton.1 ha
    exact hnamed n

/-! ### The calls -/

theorem leftValue_column {name : QString} (h : isColumn scope name) (a : Comparison)
    (ha : a.column = name) :
    S.operandValue (fun _ => none) r (a.leftOperand scope) = Server.columnValue scope r name := by
  obtain ⟨c, hoperand, hc, hname⟩ := exists_of_isColumn h
  rw [Comparison.leftOperand, ha, words_of_isName hname, hoperand, Server.columnValue, hc]
  rfl

theorem leftValue_lowerOf {name : QString} (h : isColumn scope name) (a : Comparison)
    (ha : a.column = SqlCondition.lowerOf name) :
    S.operandValue (fun _ => none) r (a.leftOperand scope)
      = S.toLower (Server.columnValue scope r name) := by
  obtain ⟨c, -, hc, hname⟩ := exists_of_isColumn h
  have hlower : lower (latin1 "LOWER") = latin1 "lower" := by decide
  rw [Comparison.leftOperand, ha, words_lowerOf hname, operandOf, if_pos hlower,
    Server.columnValue, hc]
  rfl

/-- A value that is no column, bound or written as `now()` or NULL. -/
theorem rightValue_value (a : Comparison) (hcolumn : a.comparedColumn = [])
    (hplaceholder : a.placeholder = []) :
    S.rightValue scope given r a = S.asked a.comparedValue := by
  obtain ⟨column, comparedColumn, placeholder, comparedValue, op, n⟩ := a
  obtain rfl : comparedColumn = [] := hcolumn
  obtain rfl : placeholder = [] := hplaceholder
  cases comparedValue <;> rfl

theorem rightValue_placeholder (a : Comparison) (hcolumn : a.comparedColumn = [])
    (hvalue : a.comparedValue = .invalid) (hplaceholder : a.placeholder ≠ []) :
    S.rightValue scope given r a = given a.placeholder := by
  obtain ⟨column, comparedColumn, placeholder, comparedValue, op, n⟩ := a
  obtain rfl : comparedColumn = [] := hcolumn
  obtain rfl : comparedValue = .invalid := hvalue
  cases placeholder with
  | nil => exact absurd rfl hplaceholder
  | cons c s => rfl

theorem rightValue_column (a : Comparison) (hcolumn : a.comparedColumn ≠ []) :
    S.rightValue scope given r a = Server.columnValue scope r a.comparedColumn := by
  obtain ⟨column, comparedColumn, placeholder, comparedValue, op, n⟩ := a
  cases comparedColumn with
  | nil => exact absurd rfl hcolumn
  | cons c s => rfl

theorem IsDeferred.ne_nil {w : QString} (h : IsDeferred w) : w ≠ [] := by
  rintro rfl
  cases h.isPlaceholder

variable [CaseFolding]

theorem isCaseSensitive_apply (cond : SqlCondition) (call : ConditionCall) :
    (call.apply cond).isCaseSensitive = call.caseSensitivity cond.isCaseSensitive := by
  cases call <;> rfl

theorem logicOp_apply (cond : SqlCondition) (call : ConditionCall) :
    (call.apply cond).logicOp = call.operator cond.logicOp := by
  cases call <;> rfl

theorem logicOp_applyCalls (cond : SqlCondition) (calls : List ConditionCall) :
    (applyCalls cond calls).logicOp = lastOperator cond.logicOp calls := by
  induction calls generalizing cond with
  | nil => rfl
  | cons call calls ih =>
      rw [applyCalls, ih, logicOp_apply]
      rfl

mutual

/-- A call adds what it asks for. -/
theorem MeanAll.call : (call : ConditionCall) → {cond : SqlCondition} → {xs : List Truth} →
    call.Named scope cond.isCaseSensitive → MeanAll S scope given r cond.subConditions xs →
    MeanAll S scope given r (call.apply cond).subConditions
      (xs ++ S.truths scope given r cond.isCaseSensitive call)
  | .addValueCondition column op value, cond, xs, hnamed, h => by
      obtain ⟨subConditions, _, _, _, _, _, _, flag⟩ := cond
      have hcolumn : isColumn scope column.name := hnamed
      have hplain : MeanAll S scope given r
          (subConditions ++ [{ SqlCondition.new .and with
            compareOp := op, comparedValue := value, column := column.name }])
          (xs ++ [S.compare op (Server.columnValue scope r column.name) (S.asked value)]) := by
        apply h.push
        apply SqlCondition.means_leaf
        · exact fun n => ⟨.inl hcolumn, .inl rfl, .inl rfl⟩
        · intro n
          rw [Server.leafTruth, leftValue_column hcolumn _ rfl, rightValue_value _ rfl rfl]
      cases flag with
      | true => exact hplain
      | false =>
          cases value with
          | string s =>
              apply h.push
              apply SqlCondition.means_leaf
              · exact fun n => ⟨.inr ⟨column.name, hcolumn, rfl⟩, .inl rfl, .inl rfl⟩
              · intro n
                rw [Server.leafTruth, leftValue_lowerOf hcolumn _ rfl, rightValue_value _ rfl rfl]
                rfl
          | _ => exact hplain
  | .addPlaceholderCondition column op p, cond, xs, hnamed, h => by
      obtain ⟨subConditions, _, _, _, _, _, _, flag⟩ := cond
      obtain ⟨hcolumn, hdeferred⟩ := hnamed
      cases flag with
      | true =>
          apply h.push
          apply SqlCondition.means_leaf
          · exact fun n => ⟨.inl hcolumn, .inl rfl, .inr hdeferred⟩
          · intro n
            rw [Server.leafTruth, leftValue_column hcolumn _ rfl,
              rightValue_placeholder _ rfl rfl hdeferred.ne_nil]
      | false =>
          apply h.push
          apply SqlCondition.means_leaf
          · exact fun n => ⟨.inr ⟨column.name, hcolumn, rfl⟩, .inl rfl, .inr hdeferred⟩
          · intro n
            rw [Server.leafTruth, leftValue_lowerOf hcolumn _ rfl,
              rightValue_placeholder _ rfl rfl hdeferred.ne_nil]
  | .addColumnCondition column op column2, cond, xs, hnamed, h => by
      obtain ⟨hcolumn, hcolumn2⟩ := hnamed
      apply h.push
      apply SqlCondition.means_leaf
      · exact fun n => ⟨.inl hcolumn, .inr hcolumn2, .inl rfl⟩
      · intro n
        rw [Server.leafTruth, leftValue_column hcolumn _ rfl, rightValue_column _ column2.nonempty]
  | .addCondition op calls, cond, xs, hnamed, h => by
      obtain ⟨hcalls, hne⟩ := hnamed
      have hnested : MeanAll S scope given r (applyCalls (.new op) calls).subConditions
          (S.truthsOf scope given r true calls) := by
        have hnil : MeanAll S scope given r (SqlCondition.new op).subConditions [] := MeanAll.nil
        exact MeanAll.calls calls hcalls hnil
      have hmeans := hnested.node hne
      rw [logicOp_applyCalls] at hmeans
      exact h.push hmeans
  | .setLogicOperator _, cond, xs, _, h => by
      show MeanAll S scope given r cond.subConditions (xs ++ [])
      rwa [List.append_nil]
  | .setCaseSensitive _, cond, xs, _, h => by
      show MeanAll S scope given r cond.subConditions (xs ++ [])
      rwa [List.append_nil]

theorem MeanAll.calls : (calls : List ConditionCall) → {cond : SqlCondition} → {xs : List Truth} →
    NamedCalls scope cond.isCaseSensitive calls → MeanAll S scope given r cond.subConditions xs →
    MeanAll S scope given r (applyCalls cond calls).subConditions
      (xs ++ S.truthsOf scope given r cond.isCaseSensitive calls)
  | [], cond, xs, _, h => by
      show MeanAll S scope given r cond.subConditions (xs ++ [])
      rwa [List.append_nil]
  | call :: calls, cond, xs, hnamed, h => by
      obtain ⟨hcall, hcalls⟩ := hnamed
      rw [← isCaseSensitive_apply] at hcalls
      have hrest := MeanAll.calls calls hcalls (MeanAll.call call hcall h)
      rw [applyCalls, Server.truthsOf, ← List.append_assoc, ← isCaseSensitive_apply]
      exact hrest

end

/-- **The condition asks for what its calls ask for.** -/
theorem means_applyCalls {op : LogicOperator} {calls : List ConditionCall}
    (hnamed : NamedCalls scope true calls) (hne : (applyCalls (.new op) calls).subConditions ≠ []) :
    (applyCalls (.new op) calls).Means S scope given r
      ((lastOperator op calls).connective.fold (S.truthsOf scope given r true calls)) := by
  have hnil : MeanAll S scope given r (SqlCondition.new op).subConditions [] := MeanAll.nil
  have hcalls : MeanAll S scope given r (applyCalls (.new op) calls).subConditions
      (S.truthsOf scope given r true calls) := MeanAll.calls calls hnamed hnil
  have hmeans := hcalls.node hne
  rwa [logicOp_applyCalls] at hmeans

end

/-! ### The condition as the server reads it -/

/-- The numbers from `n` on are bound to the values. -/
def BoundFrom (parameters : Parameters) (n : Nat) (values : List QVariant) : Prop :=
  ∀ i v, values[i]? = some v → parameters (placeholderName (n + i)) = some v.bindForm

section
variable {parameters : Parameters} {n : Nat} {vs ws : List QVariant}

theorem BoundFrom.left (h : BoundFrom parameters n (vs ++ ws)) : BoundFrom parameters n vs := by
  intro i v hv
  apply h
  rw [List.getElem?_append_left (List.getElem?_eq_some_iff.1 hv).1, hv]

/-- What is behind other values is bound behind them. -/
theorem BoundFrom.right (h : BoundFrom parameters n (vs ++ ws)) : BoundFrom parameters (n + vs.length) ws := by
  intro i v hv
  rw [Nat.add_assoc]
  apply h
  rw [List.getElem?_append_right (Nat.le_add_right _ i), Nat.add_sub_cancel_left, hv]

end

/-- **The server finds the truth value that is asked for**, in every row, when the
numbers from `n` on are bound to the values and the deferred placeholders to what is
given. -/
theorem conditionRead_of_named [CaseFolding] (S : Server) {scope : Scope}
    {given : QString → QVariant} {parameters : Parameters} {op : LogicOperator}
    {calls : List ConditionCall} (hnamed : NamedCalls scope true calls)
    (hne : (applyCalls (.new op) calls).subConditions ≠ []) (n : Nat)
    (hbound : BoundFrom parameters n (applyCalls (.new op) calls).boundValues)
    (hdeferred : ∀ w, IsDeferred w → (parameters w).getD .invalid = given w) :
    ∃ e, conditionGrammar.read (words ((applyCalls (.new op) calls).textFrom n).toQString) = some e
      ∧ e.atoms = ((applyCalls (.new op) calls).toTree n).leaves.map Comparison.read
      ∧ e.atoms.all (ReadComparison.resolves scope)
      ∧ ∀ r, e.eval (S.truth parameters scope r)
          = (lastOperator op calls).connective.fold (S.truthsOf scope given r true calls) := by
  have hfull := (applyCalls (.new op) calls).toTree_full n
  have hmeans : ∀ r, (applyCalls (.new op) calls).Means S scope given r
      ((lastOperator op calls).connective.fold (S.truthsOf scope given r true calls)) :=
    fun r => means_applyCalls hnamed hne
  have hnames := (hmeans fun _ => .invalid).named n
  have htruth : ∀ r, ∀ a ∈ ((applyCalls (.new op) calls).toTree n).leaves,
      a.read.resolves scope ∧ S.truth parameters scope r a.read = S.leafTruth scope given r a := by
    intro r a ha
    apply (hnames a ha).truth
    refine ⟨fun htakes => ?_, hdeferred⟩
    obtain ⟨i, hi, hvalue⟩ := number_of_mem_leaves n _ a ha htakes
    rw [hi]
    exact hbound i _ hvalue
  obtain ⟨e, hread, hagrees⟩ := Grammar.read_write (β := Truth) (φ := Comparison.read)
    conditionGrammar_fits _ hfull fun a ha =>
      atomReads_of_isOperand a.compareOp (hnames a ha).readable.isOperand_column
        (hnames a ha).readable.isOperand_rightHandSide
  refine ⟨e, ?_, hagrees.atoms, ?_, fun r => ?_⟩
  · rw [textFrom_eq_write, words_write _ hfull]
    exact hread
  · rw [hagrees.atoms, List.all_map, List.all_eq_true]
    exact fun a ha => (htruth (fun _ => .invalid) a ha).1
  · rw [hagrees.eval, ConnTree.eval_congr _ fun a ha => (htruth r a ha).2]
    exact (hmeans r).value n

end Sqlate
