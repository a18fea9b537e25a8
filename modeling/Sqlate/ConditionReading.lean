/-
Sqlate/ConditionReading.lean

What a condition's text means to the reader of the SQL statement.

A condition is a tree whose leaves are comparisons and whose inner nodes carry
a logic operator; `conditionToString` drops the parentheses of a node with one
child and adds them for all others.  Here its text is read back with the
precedence of SQL, twice:

* as a sequence of comparisons, connectives and parentheses, where the text of
  a comparison stands for itself, whatever characters its names contain;
* as a `QString`, split into words, when the names are plain words: then the
  comparisons are recognised in the characters too.

Both readings have the leaves of the tree from left to right, each once, and
the value that the tree has by folding the operator of every node over its
children, for all assignments of SQL's three truth values.
-/
import Sqlate.BuilderBase
import Sqlate.SqlReader

namespace Sqlate

/-! ### Three-valued truth -/

inductive Truth
  | false | unknown | true
  deriving DecidableEq, Repr

namespace Truth

def rank : Truth → Nat
  | false => 0
  | unknown => 1
  | true => 2

theorem rank_injective : Function.Injective rank := by
  intro x y h
  cases x <;> cases y <;> first | rfl | cases h

/-- FALSE is below UNKNOWN is below TRUE: AND is the minimum, OR the maximum. -/
instance : LinearOrder Truth := LinearOrder.lift' rank rank_injective

instance : BoundedOrder Truth where
  top := true
  le_top x := by cases x <;> decide
  bot := false
  bot_le x := by cases x <;> decide

end Truth

/-! ### The tree of a condition -/

/-- A leaf of a condition; `number` is the next number when it is rendered. -/
structure Comparison where
  column : QString
  comparedColumn : QString
  placeholder : QString
  comparedValue : QVariant
  compareOp : CompareOperator
  number : Nat

def Comparison.rightHandSide (a : Comparison) : SqlText :=
  Sqlate.rightHandSide a.number a.comparedColumn a.placeholder a.comparedValue

def Comparison.text (a : Comparison) : SqlText :=
  raw a.column ++ compareOperatorToString a.compareOp ++ a.rightHandSide

def LogicOperator.connective : LogicOperator → Connective
  | .and => .and
  | .or => .or

mutual

/-- A condition without sub-conditions is a leaf, any other a node. -/
def SqlCondition.toTree (n : Nat) : SqlCondition → ConnTree Comparison
  | ⟨subConditions, column, comparedColumn, placeholder, comparedValue, compareOp, logicOp, _⟩ =>
      if subConditions.isEmpty then
        .leaf ⟨column, comparedColumn, placeholder, comparedValue, compareOp, n⟩
      else
        .node logicOp.connective (toTrees n subConditions)

def toTrees (n : Nat) : List SqlCondition → List (ConnTree Comparison)
  | [] => []
  | c :: cs => c.toTree n :: toTrees (n + c.boundValues.length) cs

end

mutual

theorem SqlCondition.toTree_full (n : Nat) : (c : SqlCondition) → (c.toTree n).Full
  | ⟨subConditions, _, _, _, _, _, _, _⟩ => by
      rw [SqlCondition.toTree]
      split
      · trivial
      · next h =>
          refine ⟨?_, toTrees_full n subConditions⟩
          cases subConditions with
          | nil => exact absurd rfl h
          | cons c cs => exact List.cons_ne_nil _ _

theorem toTrees_full (n : Nat) : (cs : List SqlCondition) → ConnTree.FullAll (toTrees n cs)
  | [] => trivial
  | c :: cs => ⟨c.toTree_full n, toTrees_full _ cs⟩

end

/-- How conditions are written. -/
def sqlLayout : Layout Sym Comparison where
  opening := sql "("
  closing := sql ")"
  separator
    | .and => sql " AND "
    | .or => sql " OR "
  leaf := Comparison.text

theorem separator_connective (op : LogicOperator) :
    sqlLayout.separator op.connective = logicOperatorToString op := by
  cases op <;> rfl

mutual

/-- **The text of a condition is its tree, written down.** -/
theorem textFrom_eq_write (n : Nat) : (c : SqlCondition) →
    c.textFrom n = sqlLayout.write (c.toTree n)
  | ⟨subConditions, column, comparedColumn, placeholder, comparedValue, compareOp, logicOp, _⟩ => by
      have hsub := textsFrom_eq_writeAll n subConditions
      rw [SqlCondition.textFrom, SqlCondition.toTree]
      split
      · rfl
      · rw [Layout.write, hsub, separator_connective]
        rcases sqlLayout.writeAll (toTrees n subConditions) with - | ⟨t, - | ⟨u, ts⟩⟩ <;> rfl

theorem textsFrom_eq_writeAll (n : Nat) : (cs : List SqlCondition) →
    textsFrom n cs = sqlLayout.writeAll (toTrees n cs)
  | [] => rfl
  | c :: cs => by
      rw [textsFrom, toTrees, Layout.writeAll, textFrom_eq_write n c, textsFrom_eq_writeAll _ cs]

end

/-! ### Comparisons that stand for themselves -/

/-- The tokens of a condition. -/
inductive Token
  | opening | closing
  | connective (op : Connective)
  | comparison (a : Comparison)

namespace Token

def text : Token → SqlText
  | opening => sqlLayout.opening
  | closing => sqlLayout.closing
  | connective op => sqlLayout.separator op
  | comparison a => a.text

def punctuation : Punctuation Token where
  opening := opening
  closing := closing
  connective := connective

def grammar : Grammar Token Comparison where
  isOpening
    | opening => true
    | _ => false
  isClosing
    | closing => true
    | _ => false
  isConnective op
    | connective op' => op = op'
    | _ => false
  atom
    | comparison a :: rest => some (a, rest)
    | _ => none

/-- The tokens of a tree. -/
def write (t : ConnTree Comparison) : List Token :=
  (punctuation.layout fun a => [comparison a]).write t

theorem flatMap_text_write (t : ConnTree Comparison) (ht : t.Full) :
    (write t).flatMap text = sqlLayout.write t := by
  apply Layout.map_write _ t ht
  · intro a _
    exact List.append_nil _
  · constructor
    · intro x
      simp [punctuation, Punctuation.layout, text]
    · intro op x y
      simp [punctuation, Punctuation.layout, text]

theorem grammar_fits : grammar.Fits punctuation where
  opening := rfl
  closing := rfl
  connective _ _ := rfl
  closing_not_connective _ := rfl
  atom_opening _ := rfl

theorem read_write (t : ConnTree Comparison) (ht : t.Full) :
    ∃ e, grammar.read (write t) = some e ∧ Grammar.Agrees Truth id t e := by
  apply Grammar.read_write grammar_fits t ht
  intro a _ rest _
  rfl

end Token

/-! ### Comparisons in words -/

/-- The names of a leaf are plain words, the column possibly as the argument
of LOWER. -/
structure Comparison.Readable (a : Comparison) : Prop where
  column : isName a.column = true ∨ ∃ name, isName name = true ∧ a.column = SqlCondition.lowerOf name
  comparedColumn : a.comparedColumn = [] ∨ isName a.comparedColumn = true
  placeholder : a.placeholder = [] ∨ isName a.placeholder = true

/-- A leaf as it is read. -/
def Comparison.read (a : Comparison) : ReadComparison where
  left := words a.column
  compareOp := a.compareOp
  right := words a.rightHandSide.toQString

theorem isName_placeholderName (n : Nat) : isName (placeholderName n) = true := by
  have hcolon : charKind (QChar.ofChar ':') = .name := by decide
  have hdigit : ∀ c ∈ QString.number n, charKind c = .name := by
    intro c hc
    have hval := QString.val_of_mem_number hc
    have hspace : c.isSpace = false := by
      simp [QChar.isSpace]
      omega
    simp only [charKind, hspace]
    rw [if_neg (by simp), if_pos (by omega)]
  have hkeyword : ∀ w ∈ keywords, w.head? ≠ some (QChar.ofChar ':') := by decide
  have hnot : lower (placeholderName n) ∉ keywords := fun hmem => hkeyword _ hmem rfl
  have hall : ∀ c ∈ placeholderName n, charKind c = .name := by
    intro c hc
    obtain rfl | hc := List.mem_cons.mp hc
    · exact hcolon
    · exact hdigit c hc
  have hne : (placeholderName n).isEmpty = false := rfl
  simpa [isName, hne, hnot] using hall

theorem isOperand_of_isName {w : QString} (h : isName w = true) : IsOperand (words w) := by
  rw [words_of_isName h]
  exact .name h

theorem Comparison.Readable.isOperand_column {a : Comparison} (h : a.Readable) :
    IsOperand (words a.column) := by
  obtain hname | ⟨name, hname, hcolumn⟩ := h.column
  · exact isOperand_of_isName hname
  · -- case-insensitive: the column is the argument of LOWER
    have hwords : words a.column = [latin1 "LOWER", latin1 "(", name, latin1 ")"] := by
      have hleft : words (latin1 "LOWER( ") = [latin1 "LOWER", latin1 "("] := by decide
      have hright : words (latin1 " ) ") = [latin1 ")"] := by decide
      rw [hcolumn, SqlCondition.lowerOf, words_append_of_right (separates_of_mem rfl separates_space),
        words_append_of_left (separates_of_mem rfl separates_space), words_of_isName hname, hleft, hright]
      rfl
    rw [hwords]
    exact .callName (by decide) hname

theorem Comparison.Readable.isOperand_rightHandSide {a : Comparison} (h : a.Readable) :
    IsOperand (words a.rightHandSide.toQString) := by
  rw [Comparison.rightHandSide, Sqlate.rightHandSide]
  split_ifs with hnumber hcolumn hvalue hplaceholder
  · simpa [Sym.toQString] using isOperand_of_isName (isName_placeholderName a.number)
  · -- the branches of `rightHandSide` in its order: column, `now()`, placeholder, NULL
    rw [SqlText.toQString_raw]
    apply isOperand_of_isName
    apply h.comparedColumn.resolve_left
    rintro hnil
    simp [hnil] at hcolumn
  · rw [currentDateTime, SqlText.toQString_sql]
    have hwords : words (latin1 "now()") = [latin1 "now", latin1 "(", latin1 ")"] := by decide
    rw [hwords]
    exact .call (by decide)
  · rw [SqlText.toQString_raw]
    apply isOperand_of_isName
    apply h.placeholder.resolve_left
    rintro hnil
    simp [hnil] at hplaceholder
  · rw [SqlText.toQString_sql]
    exact isOperand_of_isName (by decide)

theorem words_compareOperatorToString (op : CompareOperator) :
    words (compareOperatorToString op).toQString = compareWords op := by
  cases op <;> rfl

theorem Comparison.words_text (a : Comparison) :
    words a.text.toQString
      = words a.column ++ compareWords a.compareOp ++ words a.rightHandSide.toQString := by
  have hleft : (compareOperatorToString a.compareOp).toQString.head? = some (QChar.ofChar ' ') := by
    cases a.compareOp <;> rfl
  have hright :
      (compareOperatorToString a.compareOp).toQString.getLast? = some (QChar.ofChar ' ') := by
    cases a.compareOp <;> rfl
  rw [Comparison.text, SqlText.toQString_append, SqlText.toQString_append, SqlText.toQString_raw,
    words_append_append hleft hright, words_compareOperatorToString]

/-- How the words of a condition are laid out. -/
def wordLayout : Layout QString Comparison :=
  punctuation.layout fun a => words a.column ++ compareWords a.compareOp
    ++ words a.rightHandSide.toQString

theorem words_write (t : ConnTree Comparison) (ht : t.Full) :
    words (SqlText.toQString (sqlLayout.write t)) = wordLayout.write t := by
  apply Layout.map_write (h := fun x => words (SqlText.toQString x)) _ t ht
  · intro a _
    exact a.words_text
  · constructor
    · intro x
      have hopening : words (latin1 "(") = [latin1 "("] := by decide
      have hclosing : words (latin1 ")") = [latin1 ")"] := by decide
      have hleft : ∀ c ∈ (latin1 "(").getLast?, separates c = true :=
        separates_of_mem rfl (by decide)
      have hright : ∀ c ∈ (latin1 ")").head?, separates c = true :=
        separates_of_mem rfl (by decide)
      show words (SqlText.toQString (sql "(" ++ x ++ sql ")")) = _
      rw [SqlText.toQString_append, SqlText.toQString_append, SqlText.toQString_sql,
        SqlText.toQString_sql, words_append_of_right hright, words_append_of_left hleft, hopening,
        hclosing]
      rfl
    · intro op x y
      have hhead : (SqlText.toQString (sqlLayout.separator op)).head? = some (QChar.ofChar ' ') := by
        cases op <;> rfl
      have hlast : (SqlText.toQString (sqlLayout.separator op)).getLast? = some (QChar.ofChar ' ') := by
        cases op <;> rfl
      have hwords : words (SqlText.toQString (sqlLayout.separator op)) = wordLayout.separator op := by
        cases op <;> rfl
      rw [SqlText.toQString_append, SqlText.toQString_append, words_append_append hhead hlast,
        hwords]

/-! ### Both readings -/

/-- **The text of a condition means the condition.**  Read with the
precedence of SQL it has the leaves of the tree from left to right and the
value of the tree, for all truth values of the leaves; with plain names this
is so for its characters too. -/
theorem conditionToString_reads (b : SqlConditionalQueryBuilderBase) (c : SqlCondition) :
    (∃ ts, ts.flatMap Token.text = (b.conditionToString c).1 ∧
      ∃ e, Token.grammar.read ts = some e ∧ e.atoms = (c.toTree b.nextNumber).leaves ∧
        ∀ v : Nat → Truth, e.value v 0 = (c.toTree b.nextNumber).value v 0) ∧
    ((∀ a ∈ (c.toTree b.nextNumber).leaves, a.Readable) →
      ∃ e, conditionGrammar.read (words (b.conditionToString c).1.toQString) = some e ∧
        e.atoms = (c.toTree b.nextNumber).leaves.map Comparison.read ∧
        ∀ v : Nat → Truth, e.value v 0 = (c.toTree b.nextNumber).value v 0) := by
  have hfull := c.toTree_full b.nextNumber
  rw [SqlConditionalQueryBuilderBase.conditionToString_eq, textFrom_eq_write]
  constructor
  · obtain ⟨e, hread, hagrees⟩ := Token.read_write _ hfull
    refine ⟨_, Token.flatMap_text_write _ hfull, e, hread, ?_, fun v => hagrees.value v 0⟩
    rw [hagrees.atoms, List.map_id]
  · intro hreadable
    rw [words_write _ hfull]
    obtain ⟨e, hread, hagrees⟩ := Grammar.read_write (β := Truth) (φ := Comparison.read)
      conditionGrammar_fits (c.toTree b.nextNumber) hfull fun a ha =>
        atomReads_of_isOperand a.compareOp (hreadable a ha).isOperand_column
          (hreadable a ha).isOperand_rightHandSide
    exact ⟨e, hread, hagrees.atoms, fun v => hagrees.value v 0⟩

/-- `x = :n OR (y IS NULL AND LOWER( y ) LIKE :m)`. -/
def nestedCondition : SqlCondition :=
  let leaf := SqlCondition.new .and
  let inner := ((SqlCondition.new .and).push
    { leaf with column := latin1 "t.y", compareOp := .is }).push
    { leaf with
      column := SqlCondition.lowerOf (latin1 "t.y")
      comparedValue := .string (latin1 "a%")
      compareOp := .like }
  ((SqlCondition.new .or).push
    { leaf with column := latin1 "t.x", comparedValue := .other 2 [42] }).push inner

example :
    SqlText.toQString ((SqlConditionalQueryBuilderBase.new []).conditionToString nestedCondition).1
      = latin1 "(t.x = :0 OR (t.y IS NULL AND LOWER( t.y )  LIKE :1))" := by
  decide

theorem conditionToString_reads_nestedCondition :
    ∃ e, conditionGrammar.read
        (words (((SqlConditionalQueryBuilderBase.new []).conditionToString
          nestedCondition).1.toQString)) = some e ∧
      e.atoms = (nestedCondition.toTree 0).leaves.map Comparison.read ∧
      ∀ v : Nat → Truth, e.value v 0 = (nestedCondition.toTree 0).value v 0 := by
  apply (conditionToString_reads (.new []) nestedCondition).2
  intro a ha
  obtain rfl | rfl | rfl : a = _ ∨ a = _ ∨ a = _ := by
    simpa [nestedCondition, SqlCondition.push, SqlCondition.new, SqlCondition.toTree, toTrees,
      ConnTree.leaves, ConnTree.leavesOf] using ha
  · exact ⟨.inl (by decide), .inl rfl, .inl rfl⟩
  · exact ⟨.inl (by decide), .inl rfl, .inl rfl⟩
  · exact ⟨.inr ⟨latin1 "t.y", by decide, rfl⟩, .inl rfl, .inl rfl⟩

end Sqlate
