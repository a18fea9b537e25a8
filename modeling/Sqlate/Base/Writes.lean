/-
Sqlate/Base/Writes.lean

Stores that a list of writes goes into.

A store gives for every key what is kept under it, if anything.  After some
writes there is what was written last under a key, or what was there before
(`writes_of_mem`, `writes_of_not_mem`).  Writing the same list again changes nothing
(`writes_writes_self`).

Where entries may be taken away again, a list says of every key what is kept under it
from then on (`sets`).  Of a key only the entries under this key matter (`sets_filter`).
-/
import Mathlib.Data.List.Basic
import Mathlib.Logic.Function.Basic

namespace Store

variable {κ β : Type*} [DecidableEq κ]

/-- Write entries, one after the other. -/
def writes (s : κ → Option β) (es : List (κ × β)) : κ → Option β :=
  es.foldl (fun s e => Function.update s e.1 (some e.2)) s

variable {s : κ → Option β} {es fs : List (κ × β)} {k : κ}

@[simp] theorem writes_nil : writes s [] = s := rfl

theorem writes_cons (e : κ × β) : writes s (e :: es) = writes (Function.update s e.1 (some e.2)) es :=
  rfl

theorem writes_append : writes s (es ++ fs) = writes (writes s es) fs := List.foldl_append ..

/-- The entry that was written last. -/
theorem writes_concat (e : κ × β) : writes s (es ++ [e]) = Function.update (writes s es) e.1 (some e.2) :=
  writes_append

/-- A key that is not written keeps what it has. -/
theorem writes_of_not_mem (h : k ∉ es.map Prod.fst) : writes s es k = s k := by
  induction es generalizing s with
  | nil => rfl
  | cons e es ih =>
      rw [List.map_cons, List.mem_cons, not_or] at h
      rw [writes_cons, ih h.2, Function.update_of_ne h.1]

/-- What is kept under a written key is one of the entries. -/
theorem writes_of_mem (h : k ∈ es.map Prod.fst) : ∃ v, (k, v) ∈ es ∧ ∀ s, writes s es k = some v := by
  induction es with
  | nil => cases h
  | cons e es ih =>
      by_cases hlater : k ∈ es.map Prod.fst
      · obtain ⟨v, hv, hwrites⟩ := ih hlater
        exact ⟨v, List.mem_cons_of_mem _ hv, fun s => hwrites _⟩
      · obtain rfl : k = e.1 := by simpa [hlater] using h
        refine ⟨e.2, List.mem_cons_self, fun s => ?_⟩
        rw [writes_cons, writes_of_not_mem hlater, Function.update_self]

/-- What is kept under a key under which nothing else is written. -/
theorem writes_eq_of_mem {v : β} (h : (k, v) ∈ es) (honly : ∀ v', (k, v') ∈ es → v' = v) :
    writes s es k = some v := by
  obtain ⟨v', hv', hwrites⟩ := writes_of_mem (List.mem_map_of_mem h)
  rw [hwrites, honly v' hv']

/-- What is kept was there before or has been written. -/
theorem mem_or_eq_of_writes {v : β} (h : writes s es k = some v) : (k, v) ∈ es ∨ s k = some v := by
  by_cases hmem : k ∈ es.map Prod.fst
  · obtain ⟨v', hv', hwrites⟩ := writes_of_mem hmem
    obtain rfl : v' = v := Option.some.inj ((hwrites s).symm.trans h)
    exact .inl hv'
  · rw [writes_of_not_mem hmem] at h
    exact .inr h

/-- Under a key there stays something with a property, when everything that is written
there has it. -/
theorem exists_writes {P : β → Prop} (hs : ∃ v, s k = some v ∧ P v) (hes : ∀ v, (k, v) ∈ es → P v) :
    ∃ v, writes s es k = some v ∧ P v := by
  by_cases hmem : k ∈ es.map Prod.fst
  · obtain ⟨v, hv, hwrites⟩ := writes_of_mem hmem
    exact ⟨v, hwrites s, hes v hv⟩
  · rwa [writes_of_not_mem hmem]

/-- Entries that were saved from a store, written where nothing is kept under their keys. -/
theorem writes_saved {t : κ → Option β} {ks : List κ} (hk : k ∈ ks) (hs : s k = none) :
    writes s (ks.filterMap fun k => (t k).map fun v => (k, v)) k = t k := by
  have hmem : ∀ v, (k, v) ∈ ks.filterMap (fun k => (t k).map fun v => (k, v)) ↔ t k = some v := by
    intro v
    rw [List.mem_filterMap]
    constructor
    · rintro ⟨k', -, hk'⟩
      obtain ⟨v', hv', heq⟩ := Option.map_eq_some_iff.1 hk'
      obtain ⟨rfl, rfl⟩ := Prod.mk.inj heq
      exact hv'
    · intro hv
      exact ⟨k, hk, by rw [hv]; rfl⟩
  by_cases h : k ∈ (ks.filterMap fun k => (t k).map fun v => (k, v)).map Prod.fst
  · obtain ⟨v, hv, hwrites⟩ := writes_of_mem h
    rw [hwrites, (hmem v).1 hv]
  · rw [writes_of_not_mem h, hs]
    refine (Option.eq_none_iff_forall_ne_some.2 fun v hv => ?_).symm
    exact h (List.mem_map_of_mem ((hmem v).2 hv))

/-- Writing the same entries again changes nothing. -/
theorem writes_writes_self : writes (writes s es) es = writes s es := by
  funext k
  by_cases h : k ∈ es.map Prod.fst
  · obtain ⟨v, -, hwrites⟩ := writes_of_mem h
    rw [hwrites, hwrites]
  · rw [writes_of_not_mem h]

/-! ### Entries that may be none -/

variable {γ : Type*} {f : κ → γ}

/-- Set what is under some keys, one after the other. -/
def sets (f : κ → γ) (es : List (κ × γ)) : κ → γ := es.foldl (fun f e => Function.update f e.1 e.2) f

theorem sets_cons (e : κ × γ) (es : List (κ × γ)) : sets f (e :: es) = sets (Function.update f e.1 e.2) es :=
  rfl

theorem update_congr {g : κ → γ} {k : κ} (h : f k = g k) (k' : κ) (v : γ) :
    Function.update f k' v k = Function.update g k' v k := by
  by_cases hk : k = k'
  · subst hk
    rw [Function.update_self, Function.update_self]
  · rw [Function.update_of_ne hk, Function.update_of_ne hk, h]

/-- Only what is under the same key matters. -/
theorem sets_congr {g : κ → γ} {k : κ} (h : f k = g k) (es : List (κ × γ)) : sets f es k = sets g es k := by
  induction es generalizing f g with
  | nil => exact h
  | cons e es ih => exact ih (update_congr h e.1 e.2)

/-- Only what is set under the same key matters. -/
theorem sets_filter (es : List (κ × γ)) (k : κ) :
    sets f es k = sets f (es.filter fun e => e.1 = k) k := by
  induction es generalizing f with
  | nil => rfl
  | cons e es ih =>
      rw [sets_cons, List.filter_cons]
      split_ifs with hk
      · exact ih
      · have hk : k ≠ e.1 := fun heq => hk (decide_eq_true heq.symm)
        rw [sets_congr (Function.update_of_ne hk e.2 f) es]
        exact ih

/-- What is under a key was there before, or has been set. -/
theorem mem_or_eq_of_sets (es : List (κ × γ)) (k : κ) : (k, sets f es k) ∈ es ∨ sets f es k = f k := by
  induction es generalizing f with
  | nil => exact .inr rfl
  | cons e es ih =>
      rw [sets_cons]
      rcases ih (f := Function.update f e.1 e.2) with hmem | heq
      · exact .inl (List.mem_cons_of_mem e hmem)
      · rw [heq]
        by_cases hk : k = e.1
        · subst hk
          rw [Function.update_self]
          exact .inl List.mem_cons_self
        · rw [Function.update_of_ne hk]
          exact .inr rfl

end Store
