/-
Sqlate/Base/SizeLimit.lean

Lists that are cut off at a size.

Every item has a size.  `cut n xs` are the items of a list for which there is room in
`n`, up to the first for which there is none.  A list that has room is left as it is
(`cut_of_le`); of two lists, the second one is cut if there is room for the first
(`cut_append_of_le`), and otherwise does not matter (`cut_append_of_lt`).
-/
import Mathlib.Data.List.Basic

namespace SizeLimit

variable {α : Type*} (size : α → Nat)

def total : List α → Nat
  | [] => 0
  | x :: xs => size x + total xs

def cut : Nat → List α → List α
  | _, [] => []
  | n, x :: xs => if size x ≤ n then x :: cut (n - size x) xs else []

variable {size} {xs : List α} {n : Nat}

theorem total_cons (x : α) (xs : List α) : total size (x :: xs) = size x + total size xs := rfl

theorem total_append (xs ys : List α) : total size (xs ++ ys) = total size xs + total size ys := by
  induction xs with
  | nil => exact (Nat.zero_add _).symm
  | cons x xs ih => rw [List.cons_append, total_cons, total_cons, ih, Nat.add_assoc]

/-- Items of size one are counted. -/
theorem total_eq_length (h : ∀ x ∈ xs, size x = 1) : total size xs = xs.length := by
  induction xs with
  | nil => rfl
  | cons x xs ih =>
      rw [List.forall_mem_cons] at h
      rw [total_cons, h.1, ih h.2, List.length_cons, Nat.add_comm]

/-- Room for the first list. -/
theorem cut_append_of_le (h : total size xs ≤ n) (ys : List α) :
    cut size n (xs ++ ys) = xs ++ cut size (n - total size xs) ys := by
  induction xs generalizing n with
  | nil => rfl
  | cons x xs ih =>
      rw [total_cons] at h ⊢
      rw [List.cons_append, cut, if_pos (by omega), ih (by omega), Nat.sub_sub]
      rfl

/-- No room for the first list. -/
theorem cut_append_of_lt (h : n < total size xs) (ys : List α) :
    cut size n (xs ++ ys) = cut size n xs := by
  induction xs generalizing n with
  | nil => exact absurd h (Nat.not_lt_zero n)
  | cons x xs ih =>
      rw [total_cons] at h
      rw [List.cons_append, cut, cut]
      split_ifs with hroom
      · rw [ih (by omega)]
      · rfl

theorem cut_of_le (h : total size xs ≤ n) : cut size n xs = xs := by
  have happend := cut_append_of_le h []
  rw [List.append_nil, cut, List.append_nil] at happend
  exact happend

end SizeLimit
