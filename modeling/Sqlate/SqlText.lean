/-
Sqlate/SqlText.lean

The statement texts the builders assemble.

A text is a sequence of symbols.  A symbol is either one code unit or a
placeholder `:n` that the library generated; the latter is kept as one symbol
together with the value it was generated for, so that it can be told from
characters that merely look the same (a table name, a deferred placeholder of
the caller).  `toQString` forgets the difference and gives the `QString` that
goes to the driver; `marks` lists the generated placeholders in text order.
-/
import Sqlate.Qt.QVariant

namespace Sqlate

/-- A symbol of a statement text. -/
inductive Sym
  | ch (c : QChar)
  | bound (n : Nat) (value : QVariant)
  deriving DecidableEq, Repr

abbrev SqlText := List Sym

/-- The generated placeholder `:n`. -/
def placeholderName (n : Nat) : QString := latin1 ":" ++ QString.number n

namespace Sym

/-- The code units of a symbol. -/
def toQString : Sym → QString
  | ch c => [c]
  | bound n _ => placeholderName n

/-- Value and number of a generated placeholder. -/
def mark : Sym → Option (QVariant × Nat)
  | ch _ => none
  | bound n v => some (v, n)

def isSpace : Sym → Bool
  | ch c => c.isSpace
  | bound _ _ => false

end Sym

/-- Characters handed in by the caller. -/
def raw (s : QString) : SqlText := s.map Sym.ch

theorem raw_injective : Function.Injective raw :=
  List.map_injective_iff.mpr fun _ _ h => Sym.ch.inj h

/-- Characters of a string literal of the library. -/
def sql (s : String) : SqlText := raw (latin1 s)

namespace SqlText

def toQString (t : SqlText) : QString := t.flatMap Sym.toQString

/-- The generated placeholders of a text with their values, in text order. -/
def marks (t : SqlText) : List (QVariant × Nat) := t.filterMap Sym.mark

/-- `QStringList::join`. -/
def join (ts : List SqlText) (sep : SqlText) : SqlText := sep.intercalate ts

/-- `QString::trimmed`. -/
def trimmed (t : SqlText) : SqlText := (t.dropWhile Sym.isSpace).rdropWhile Sym.isSpace

/-- Overwrite the last character. -/
def setLast (t : SqlText) (c : QChar) : SqlText := t.dropLast ++ [Sym.ch c]

/-! ### Simp set -/

@[simp] theorem toQString_nil : toQString [] = [] := rfl

@[simp] theorem toQString_append (s t : SqlText) :
    toQString (s ++ t) = toQString s ++ toQString t := by
  simp [toQString]

@[simp] theorem toQString_cons (x : Sym) (t : SqlText) :
    toQString (x :: t) = x.toQString ++ toQString t := rfl

@[simp] theorem toQString_raw (s : QString) : toQString (raw s) = s := by
  simp [toQString, raw, Sym.toQString, List.flatMap_map]

@[simp] theorem toQString_sql (s : String) : toQString (sql s) = latin1 s :=
  toQString_raw _

@[simp] theorem marks_nil : marks [] = [] := rfl

@[simp] theorem marks_append (s t : SqlText) : marks (s ++ t) = marks s ++ marks t := by
  simp [marks]

@[simp] theorem marks_cons_bound (n : Nat) (v : QVariant) (t : SqlText) :
    marks (Sym.bound n v :: t) = (v, n) :: marks t := rfl

@[simp] theorem marks_raw (s : QString) : marks (raw s) = [] := by
  simp [marks, raw, Sym.mark]

@[simp] theorem marks_sql (s : String) : marks (sql s) = [] := marks_raw _

@[simp] theorem join_nil (sep : SqlText) : join [] sep = [] := rfl

@[simp] theorem join_singleton (t sep : SqlText) : join [t] sep = t := by
  simp [join]

theorem join_cons_cons (s t : SqlText) (ts : List SqlText) (sep : SqlText) :
    join (s :: t :: ts) sep = s ++ sep ++ join (t :: ts) sep := by
  simp [join, List.intercalate]

theorem marks_join {sep : SqlText} (hsep : marks sep = []) (ts : List SqlText) :
    marks (join ts sep) = ts.flatMap marks := by
  induction ts with
  | nil => rfl
  | cons s ts ih =>
      cases ts with
      | nil => simp
      | cons t ts => simp [join_cons_cons, hsep, ih]

/-! ### Trimming keeps the placeholders -/

theorem marks_dropWhile (t : SqlText) : marks (t.dropWhile Sym.isSpace) = marks t := by
  induction t with
  | nil => rfl
  | cons x t ih =>
      cases x with
      | bound n v =>
          -- a placeholder is no space and stops the trimming
          rfl
      | ch c =>
          have hch : marks (Sym.ch c :: t) = marks t := List.filterMap_cons_none rfl
          rw [List.dropWhile_cons]
          split
          · rw [ih, hch]
          · rfl

theorem marks_reverse (t : SqlText) : marks t.reverse = (marks t).reverse := by
  simp [marks]

@[simp] theorem marks_trimmed (t : SqlText) : marks (trimmed t) = marks t := by
  rw [trimmed, List.rdropWhile, marks_reverse, marks_dropWhile, marks_reverse,
    List.reverse_reverse, marks_dropWhile]

end SqlText

end Sqlate
