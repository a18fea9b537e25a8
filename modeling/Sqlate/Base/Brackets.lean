/-
Sqlate/Base/Brackets.lean

Marks outside of brackets.

A list of words is read from left to right; `scan` keeps the number of brackets
that are open and counts the marks that are met when none is.  A list is
enclosed if it changes neither, wherever it stands: its brackets match, and it
has marks inside of them only.  Enclosed lists are closed under concatenation
(`Enclosed.append`), and what is between a pair of brackets needs to be so at
positive depths only (`enclosed_brackets`).
-/
import Mathlib.Data.List.Basic

/-- The words that open and close, and those that are counted. -/
structure Brackets (α : Type*) where
  isOpening : α → Bool
  isClosing : α → Bool
  isMark : α → Bool

namespace Brackets

variable {α : Type*} (B : Brackets α)

/-- The depth and the number of marks behind one more word. -/
def step (s : Nat × Nat) (w : α) : Nat × Nat :=
  if B.isOpening w then (s.1 + 1, s.2)
  else if B.isClosing w then (s.1 - 1, s.2)
  else if B.isMark w && s.1 == 0 then (s.1, s.2 + 1)
  else s

def scan (s : Nat × Nat) (ws : List α) : Nat × Nat := ws.foldl B.step s

/-- The brackets match, and the marks are inside of them. -/
def Enclosed (ws : List α) : Prop := ∀ s, B.scan s ws = s

/-- A word that is neither a bracket nor a mark. -/
def plain (w : α) : Bool := !B.isOpening w && !B.isClosing w && !B.isMark w

variable {B}

theorem scan_append (s : Nat × Nat) (ws us : List α) :
    B.scan s (ws ++ us) = B.scan (B.scan s ws) us :=
  List.foldl_append

theorem scan_cons (s : Nat × Nat) (w : α) (ws : List α) :
    B.scan s (w :: ws) = B.scan (B.step s w) ws := rfl

theorem step_opening {w : α} (h : B.isOpening w) (s : Nat × Nat) :
    B.step s w = (s.1 + 1, s.2) := if_pos h

theorem step_closing {w : α} (hopening : B.isOpening w = false) (h : B.isClosing w)
    (s : Nat × Nat) : B.step s w = (s.1 - 1, s.2) := by
  rw [step, hopening, if_neg Bool.false_ne_true, if_pos h]

theorem step_plain {w : α} (h : B.plain w) (s : Nat × Nat) : B.step s w = s := by
  obtain ⟨⟨hopening, hclosing⟩, hmark⟩ :
      (B.isOpening w = false ∧ B.isClosing w = false) ∧ B.isMark w = false := by
    simpa [plain] using h
  simp [step, hopening, hclosing, hmark]

/-! ### Enclosed lists -/

theorem Enclosed.nil : B.Enclosed [] := fun _ => rfl

theorem Enclosed.append {ws us : List α} (h : B.Enclosed ws) (h' : B.Enclosed us) :
    B.Enclosed (ws ++ us) := by
  intro s
  rw [scan_append, h, h']

theorem enclosed_of_plain {ws : List α} (h : ∀ w ∈ ws, B.plain w) : B.Enclosed ws := by
  induction ws with
  | nil => exact .nil
  | cons w ws ih =>
      rw [List.forall_mem_cons] at h
      intro s
      rw [scan_cons, step_plain h.1]
      exact ih h.2 s

theorem Enclosed.ite {c : Prop} [Decidable c] {ws us : List α} (h : c → B.Enclosed ws)
    (h' : ¬ c → B.Enclosed us) : B.Enclosed (if c then ws else us) := by
  split
  · next hc => exact h hc
  · next hc => exact h' hc

theorem enclosed_flatMap {β : Type*} {f : β → List α} {bs : List β}
    (h : ∀ b ∈ bs, B.Enclosed (f b)) : B.Enclosed (bs.flatMap f) := by
  induction bs with
  | nil => exact .nil
  | cons b bs ih =>
      rw [List.forall_mem_cons] at h
      exact h.1.append (ih h.2)

theorem enclosed_intercalate {sep : List α} (hsep : B.Enclosed sep) {parts : List (List α)}
    (h : ∀ part ∈ parts, B.Enclosed part) : B.Enclosed (sep.intercalate parts) := by
  induction parts with
  | nil => exact .nil
  | cons part parts ih =>
      rw [List.forall_mem_cons] at h
      cases parts with
      | nil =>
          rw [List.intercalate_singleton]
          exact h.1
      | cons part' parts =>
          rw [List.intercalate_cons_cons, List.append_assoc]
          exact h.1.append (hsep.append (ih h.2))

/-- Between brackets, nothing is counted. -/
theorem enclosed_brackets {o c : α} (ho : B.isOpening o) (hc : B.isOpening c = false)
    (hclosing : B.isClosing c) {ws : List α}
    (h : ∀ depth marks, B.scan (depth + 1, marks) ws = (depth + 1, marks)) :
    B.Enclosed (o :: (ws ++ [c])) := by
  intro s
  rw [scan_cons, step_opening ho, scan_append, h, scan_cons, step_closing hc hclosing]
  rfl

end Brackets
