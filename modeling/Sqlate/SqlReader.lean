/-
Sqlate/SqlReader.lean

A reader of SQL conditions.

`words` splits a statement text into words, and `conditionGrammar` reads the
words of a condition: comparisons of two operands first, then AND, then OR,
and parentheses.  An operand is a name (a column, a placeholder, NULL) or a
function applied to at most one name.  Keywords are recognised in upper and
lower case; a name is anything else that is made of letters, digits and
`_ . :`.

This is the receiving side of the texts: nothing here depends on how the
library writes them.
-/
import Mathlib.Data.List.SplitBy
import Sqlate.Base.Connectives
import Sqlate.Condition

namespace Sqlate

/-! ### Words -/

inductive CharKind
  | space | name | operator | mark
  deriving DecidableEq, Repr

/-- Letters, digits, `_`, `.`, `:` and everything beyond ASCII belong to
names. -/
def charKind (c : QChar) : CharKind :=
  if c.isSpace then .space
  else if 0x30 ≤ c.val ∧ c.val ≤ 0x3A ∨ 0x41 ≤ c.val ∧ c.val ≤ 0x5A
      ∨ 0x61 ≤ c.val ∧ c.val ≤ 0x7A ∨ c.val = 0x5F ∨ c.val = 0x2E ∨ 0x80 ≤ c.val then .name
  else if 0x3C ≤ c.val ∧ c.val ≤ 0x3E then .operator
  else .mark

/-- Two neighbouring characters that are in one word. -/
def joins (c d : QChar) : Bool :=
  charKind c = charKind d && (charKind c = .name || charKind c = .operator)

def isBlank (w : QString) : Bool := w.all QChar.isSpace

/-- The words of a text; the spaces between them are dropped. -/
def words (s : QString) : List QString := (s.splitBy joins).filter (!isBlank ·)

/-- A character after and before which a new word starts. -/
def separates (c : QChar) : Bool := charKind c = .space || charKind c = .mark

theorem joins_of_separates_left {c : QChar} (h : separates c = true) (d : QChar) :
    joins c d = false := by
  simp only [separates, Bool.or_eq_true, decide_eq_true_eq] at h
  obtain h | h := h <;> simp [joins, h]

theorem joins_of_separates_right {d : QChar} (h : separates d = true) (c : QChar) :
    joins c d = false := by
  simp only [separates, Bool.or_eq_true, decide_eq_true_eq] at h
  obtain h | h := h <;> simp only [joins, h] <;> cases charKind c <;> rfl

theorem words_append_of_left {s : QString} (h : ∀ c ∈ s.getLast?, separates c = true)
    (t : QString) : words (s ++ t) = words s ++ words t := by
  have hsplit : (s ++ t).splitBy joins = s.splitBy joins ++ t.splitBy joins :=
    List.splitBy_append fun c hc d _ => joins_of_separates_left (h c hc) d
  rw [words, hsplit, List.filter_append, words, words]

theorem words_append_of_right {t : QString} (h : ∀ c ∈ t.head?, separates c = true)
    (s : QString) : words (s ++ t) = words s ++ words t := by
  have hsplit : (s ++ t).splitBy joins = s.splitBy joins ++ t.splitBy joins :=
    List.splitBy_append fun c _ d hd => joins_of_separates_right (h d hd) c
  rw [words, hsplit, List.filter_append, words, words]

theorem separates_of_mem {o : Option QChar} {c : QChar} (h : o = some c)
    (hc : separates c = true) : ∀ d ∈ o, separates d = true := by
  intro d hd
  rw [h] at hd
  rwa [← Option.mem_some.mp hd]

theorem separates_space : separates (QChar.ofChar ' ') = true := by decide

/-- A piece that starts and ends with a space. -/
theorem words_append_append {m : QString} (hhead : m.head? = some (QChar.ofChar ' '))
    (hlast : m.getLast? = some (QChar.ofChar ' ')) (s t : QString) :
    words (s ++ m ++ t) = words s ++ words m ++ words t := by
  have hhead' : (m ++ t).head? = some (QChar.ofChar ' ') := by
    rw [List.head?_append, hhead]
    rfl
  rw [List.append_assoc, words_append_of_right (separates_of_mem hhead' separates_space),
    words_append_of_left (separates_of_mem hlast separates_space), List.append_assoc]

/-! ### Names -/

def keywords : List QString :=
  [latin1 "and", latin1 "or", latin1 "is", latin1 "not", latin1 "like"]

/-- Keywords do not depend on case. -/
def lower (w : QString) : QString := CaseFolding.ascii.toLower w

def isName (w : QString) : Bool :=
  !w.isEmpty && w.all (charKind · = .name) && !keywords.contains (lower w)

theorem words_of_isName {w : QString} (h : isName w = true) : words w = [w] := by
  simp only [isName, Bool.and_eq_true, Bool.not_eq_true', List.isEmpty_eq_false_iff,
    List.all_eq_true, decide_eq_true_eq] at h
  obtain ⟨⟨hne, hall⟩, -⟩ := h
  have hchain : w.IsChain fun c d => joins c d = true := by
    apply List.Pairwise.isChain
    apply List.pairwise_of_forall_mem_list
    intro c hc d hd
    simp [joins, hall c hc, hall d hd]
  obtain ⟨c, w', rfl⟩ := List.exists_cons_of_ne_nil hne
  have hblank : isBlank (c :: w') = false := by
    have hc : c.isSpace = false := by
      have hkind := hall c List.mem_cons_self
      by_contra hspace
      simp [charKind, Bool.eq_true_of_not_eq_false hspace] at hkind
    simp [isBlank, hc]
  rw [words, List.splitBy_of_isChain hne hchain]
  simp [hblank]

/-! ### Comparisons -/

/-- A comparison as it is read: the words of both operands. -/
structure ReadComparison where
  left : List QString
  compareOp : CompareOperator
  right : List QString
  deriving DecidableEq, Repr

def readOperand : List QString → Option (List QString × List QString)
  | [] => none
  | w :: ws =>
      if isName w then
        match ws with
        | o :: ws' =>
            -- a name before a parenthesis is the name of a function
            if o = latin1 "(" then
              match ws' with
              | v :: ws'' =>
                  if v = latin1 ")" then some ([w, o, v], ws'')
                  else
                    match ws'' with
                    | c :: rest =>
                        if isName v && c = latin1 ")" then some ([w, o, v, c], rest) else none
                    | [] => none
              | [] => none
            else some ([w], ws)
        | [] => some ([w], [])
      else none

def compareSymbols : List (QString × CompareOperator) :=
  [(latin1 "=", .equals), (latin1 "<>", .notEquals), (latin1 "<", .less),
   (latin1 "<=", .lessOrEqual), (latin1 ">", .greater), (latin1 ">=", .greaterOrEqual)]

def readCompareOperator : List QString → Option (CompareOperator × List QString)
  | [] => none
  | w :: ws =>
      match compareSymbols.lookup w with
      | some op => some (op, ws)
      | none =>
          if lower w = latin1 "like" then some (.like, ws)
          else if lower w = latin1 "is" then
            match ws with
            | v :: ws' => if lower v = latin1 "not" then some (.isNot, ws') else some (.is, ws)
            | [] => some (.is, [])
          else none

/-- A comparison; which operands an operator takes is not looked at, as with NULL behind IS. -/
def readComparison (ws : List QString) : Option (ReadComparison × List QString) := do
  -- comparisons bind tighter than AND and OR
  let (left, ws) ← readOperand ws
  let (compareOp, ws) ← readCompareOperator ws
  let (right, ws) ← readOperand ws
  return (⟨left, compareOp, right⟩, ws)

def conditionGrammar : Grammar QString ReadComparison where
  isOpening w := w = latin1 "("
  isClosing w := w = latin1 ")"
  isConnective
    | .and, w => lower w = latin1 "and"
    | .or, w => lower w = latin1 "or"
  atom := readComparison

def punctuation : Punctuation QString where
  opening := latin1 "("
  closing := latin1 ")"
  connective
    | .and => latin1 "AND"
    | .or => latin1 "OR"

theorem conditionGrammar_fits : conditionGrammar.Fits punctuation where
  opening := by decide
  closing := by decide
  connective op op' := by cases op <;> cases op' <;> decide
  closing_not_connective op := by cases op <;> decide
  atom_opening rest := by
    have hname : isName (latin1 "(") = false := by decide
    show readComparison (latin1 "(" :: rest) = none
    simp [readComparison, readOperand, hname]

/-- The words of an operand. -/
inductive IsOperand : List QString → Prop
  | name {w : QString} (hw : isName w = true) : IsOperand [w]
  | call {w : QString} (hw : isName w = true) : IsOperand [w, latin1 "(", latin1 ")"]
  | callName {w v : QString} (hw : isName w = true) (hv : isName v = true) :
      IsOperand [w, latin1 "(", v, latin1 ")"]

theorem readOperand_append {ws rest : List QString} (h : IsOperand ws)
    (hrest : rest.head? ≠ some (latin1 "(")) : readOperand (ws ++ rest) = some (ws, rest) := by
  have hclose : isName (latin1 ")") = false := by decide
  cases h with
  | @name w hw =>
      cases rest with
      | nil => simp [readOperand, hw]
      | cons o rest =>
          have ho : o ≠ latin1 "(" := fun h => hrest (congrArg some h)
          simp [readOperand, hw, ho]
  | @call w hw => simp [readOperand, hw]
  | @callName w v hw hv =>
      have hne : v ≠ latin1 ")" := by
        rintro rfl
        rw [hclose] at hv
        cases hv
      simp [readOperand, hw, hv, hne]

/-- The words of a comparison operator. -/
def compareWords : CompareOperator → List QString
  | .equals => [latin1 "="]
  | .notEquals => [latin1 "<>"]
  | .is => [latin1 "IS"]
  | .isNot => [latin1 "IS", latin1 "NOT"]
  | .less => [latin1 "<"]
  | .lessOrEqual => [latin1 "<="]
  | .greater => [latin1 ">"]
  | .greaterOrEqual => [latin1 ">="]
  | .like => [latin1 "LIKE"]

theorem IsOperand.head_ne_not {ws : List QString} (h : IsOperand ws) (rest : List QString) :
    ∃ w ws', ws ++ rest = w :: ws' ∧ lower w ≠ latin1 "not" := by
  have hne : ∀ {w : QString}, isName w = true → lower w ≠ latin1 "not" := by
    intro w hw hnot
    simp [isName, hnot, keywords] at hw
  cases h with
  | @name w hw => exact ⟨w, _, rfl, hne hw⟩
  | @call w hw => exact ⟨w, _, rfl, hne hw⟩
  | @callName w v hw _ => exact ⟨w, _, rfl, hne hw⟩

/-- IS is told from IS NOT by the next word. -/
theorem readCompareOperator_append (op : CompareOperator) {ws : List QString} (h : IsOperand ws)
    (rest : List QString) :
    readCompareOperator (compareWords op ++ (ws ++ rest)) = some (op, ws ++ rest) := by
  obtain ⟨w, ws', hws, hnot⟩ := h.head_ne_not rest
  rw [hws]
  cases op with
  | is =>
      -- the only operator that looks at the word behind it
      show readCompareOperator (latin1 "IS" :: w :: ws') = _
      have hlookup : compareSymbols.lookup (latin1 "IS") = none := by decide
      have hlike : latin1 "is" ≠ latin1 "like" := by decide
      have his : lower (latin1 "IS") = latin1 "is" := by decide
      simp [readCompareOperator, hlookup, hlike, his, hnot]
  | _ => rfl

theorem compareWords_head (op : CompareOperator) (rest : List QString) :
    (compareWords op ++ rest).head? ≠ some (latin1 "(") := by
  cases op <;> simp only [compareWords, List.cons_append, List.head?_cons] <;> decide

/-- **A comparison is read back**, whatever follows that is not a parenthesis
that opens. -/
theorem readComparison_append {left right rest : List QString} (op : CompareOperator)
    (hleft : IsOperand left) (hright : IsOperand right)
    (hrest : rest.head? ≠ some (latin1 "(")) :
    readComparison (left ++ compareWords op ++ right ++ rest)
      = some (⟨left, op, right⟩, rest) := by
  rw [List.append_assoc, List.append_assoc]
  simp [readComparison, readOperand_append hleft (compareWords_head op _),
    readCompareOperator_append op hright, readOperand_append hright hrest]

theorem atomReads_of_isOperand {left right : List QString} (op : CompareOperator)
    (hleft : IsOperand left) (hright : IsOperand right) :
    Grammar.AtomReads conditionGrammar punctuation (left ++ compareWords op ++ right)
      ⟨left, op, right⟩ := by
  intro rest hrest
  apply readComparison_append op hleft hright
  intro hopening
  -- no parenthesis opens behind an operand
  obtain hclosing | ⟨op', hconnective⟩ := hrest (latin1 "(") hopening
  · revert hclosing
    decide
  · cases op' <;> revert hconnective <;> decide

end Sqlate
