/-
Sqlate/Base/Processes.lean

Processes that run side by side.

Each process of a family is at a place of its program.  `Held p place owner` says that
the processes at the places with `p` are those inside of a mutex: none, or the owner.
A process goes on (`Held.update`), locks the mutex or unlocks it.

If every step of a process that is not blocked uses up something of its own, the process makes
so many steps and then rests (`Runs.Along.countP_le`).
-/
import Mathlib.Data.Bool.Basic
import Mathlib.Data.List.Count
import Sqlate.Base.Runs

namespace Processes

variable {ι α : Type*}

/-- Who is inside of the mutex. -/
def Held (p : α → Bool) (place : ι → α) (owner : Option ι) : Prop :=
  ∀ i, p (place i) = true ↔ owner = some i

namespace Held

variable {p : α → Bool} {place : ι → α} {owner : Option ι} {i j : ι} {a : α}

theorem unique (h : Held p place owner) (hi : p (place i) = true) (hj : p (place j) = true) : i = j := by
  have howner := (h i).1 hi
  rw [(h j).1 hj] at howner
  exact (Option.some.inj howner).symm

theorem eq_false (h : Held p place none) (i : ι) : p (place i) = false := by
  by_contra hi
  cases (h i).1 (Bool.eq_true_of_not_eq_false hi)

variable [DecidableEq ι]

/-- A process stays inside or outside. -/
theorem update (h : Held p place owner) (ha : p a = p (place i)) :
    Held p (Function.update place i a) owner := by
  refine (Function.forall_update_iff place fun j a => p a = true ↔ owner = some j).2 ⟨?_, fun j _ => h j⟩
  rw [ha]
  exact h i

theorem lock (h : Held p place none) (ha : p a = true) : Held p (Function.update place i a) (some i) := by
  refine (Function.forall_update_iff place fun j a => p a = true ↔ some i = some j).2
    ⟨iff_of_true ha rfl, fun j hj => ?_⟩
  have hnone : ¬p (place j) = true := by
    rw [h.eq_false j]
    exact Bool.false_ne_true
  exact iff_of_false hnone fun heq => hj (Option.some.inj heq).symm

theorem unlock (h : Held p place owner) (hi : p (place i) = true) (ha : p a = false) :
    Held p (Function.update place i a) none := by
  refine (Function.forall_update_iff place fun j a => p a = true ↔ none = some j).2
    ⟨iff_of_false ?_ nofun, fun j hj => ?_⟩
  · rw [ha]
    exact Bool.false_ne_true
  · exact iff_of_false (fun hj' => hj (h.unique hj' hi)) nofun

end Held

end Processes

/-- If the steps that `q` counts each use up something, and no other step brings it back, there are so
many of them at most. -/
theorem Runs.Along.countP_le {σ ε : Type*} {step : σ → ε → σ} {P : σ → ε → Prop} {q : ε → Bool}
    (rank : σ → Nat) (hle : ∀ s e, P s e → rank (step s e) ≤ rank s)
    (hlt : ∀ s e, P s e → q e = true → rank (step s e) < rank s) {s : σ} {es : List ε}
    (hes : Runs.Along step P s es) : es.countP q ≤ rank s := by
  induction es generalizing s with
  | nil => exact Nat.zero_le _
  | cons e es ih =>
      have hrest := ih hes.2
      cases hq : q e with
      | true =>
          rw [List.countP_cons_of_pos hq]
          exact Nat.lt_of_le_of_lt hrest (hlt s e hes.1 hq)
      | false =>
          rw [List.countP_cons_of_neg (Bool.eq_false_iff.1 hq)]
          exact Nat.le_trans hrest (hle s e hes.1)
