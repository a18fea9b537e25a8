/-
Sqlate/Base/Runs.lean

Runs of deterministic machines.

A machine is a function `step : σ → ε → σ`; the environment's choices are part
of the events.  `Along step P s es` says that `P` holds of every step of the
run from `s` under `es`, that is, of the state before the step and the event.

The rules: an invariant that every admitted step preserves holds in the final
state (`run_invariant`) and at every step (`along_of_invariant`), and two
machines whose steps preserve a relation stay related (`run_related`).  For
machines that may stop, `Ends P Q` says how a computation ends, with rules for
its parts (`Ends.bind`, `Ends.foldlM`).  A step of a family of independent machines changes one of them
(`each_invariant`, `forall_update`).
-/
import Mathlib.Data.List.Basic
import Mathlib.Data.List.Forall2
import Mathlib.Logic.Function.Basic

namespace Runs

variable {σ ε : Type*} (step : σ → ε → σ)

/-- The state after a list of events. -/
def run (s : σ) (es : List ε) : σ := es.foldl step s

/-- `P` holds of every step of the run. -/
def Along (P : σ → ε → Prop) : σ → List ε → Prop
  | _, [] => True
  | s, e :: es => P s e ∧ Along P (step s e) es

instance Along.decidable {P : σ → ε → Prop} [∀ s e, Decidable (P s e)] :
    (s : σ) → (es : List ε) → Decidable (Along step P s es)
  | _, [] => isTrue trivial
  | s, e :: es =>
      have : Decidable (Along step P (step s e) es) := Along.decidable _ _
      inferInstanceAs (Decidable (P s e ∧ _))

@[simp] theorem run_nil (s : σ) : run step s [] = s := rfl

@[simp] theorem run_cons (s : σ) (e : ε) (es : List ε) :
    run step s (e :: es) = run step (step s e) es := rfl

variable {step}

/-- `Along` at a position of the run. -/
theorem along_iff {P : σ → ε → Prop} {s : σ} {es : List ε} :
    Along step P s es ↔
      ∀ pre e post, es = pre ++ e :: post → P (run step s pre) e := by
  induction es generalizing s with
  | nil => simp [Along]
  | cons e es ih =>
      rw [Along, ih]
      constructor
      · rintro ⟨he, hes⟩ pre f post heq
        cases pre with
        | nil =>
            obtain ⟨rfl, rfl⟩ := List.cons.inj heq
            exact he
        | cons g pre =>
            obtain ⟨rfl, rfl⟩ := List.cons.inj heq
            exact hes pre f post rfl
      · intro h
        exact ⟨h [] e es rfl, fun pre f post heq => h (e :: pre) f post (by rw [heq]; rfl)⟩

/-- An invariant of the admitted steps holds after the run. -/
theorem run_invariant {P : σ → ε → Prop} {I : σ → Prop}
    (hstep : ∀ s e, I s → P s e → I (step s e)) {s : σ} {es : List ε}
    (hs : I s) (hes : Along step P s es) : I (run step s es) := by
  induction es generalizing s with
  | nil => exact hs
  | cons e es ih => exact ih (hstep s e hs hes.1) hes.2

/-- What an invariant implies of an admitted step holds along the run. -/
theorem along_of_invariant {P Q : σ → ε → Prop} {I : σ → Prop}
    (hstep : ∀ s e, I s → P s e → I (step s e)) (hQ : ∀ s e, I s → P s e → Q s e)
    {s : σ} {es : List ε} (hs : I s) (hes : Along step P s es) : Along step Q s es := by
  induction es generalizing s with
  | nil => trivial
  | cons e es ih => exact ⟨hQ s e hs hes.1, ih (hstep s e hs hes.1) hes.2⟩

/-- Every run is admitted when nothing is asked of its steps. -/
theorem along_true (s : σ) (es : List ε) : Along step (fun _ _ => True) s es := by
  induction es generalizing s with
  | nil => trivial
  | cons e es ih => exact ⟨trivial, ih _⟩

/-- An invariant of all steps holds after every run. -/
theorem run_invariant_of_forall {I : σ → Prop} (hstep : ∀ s e, I s → I (step s e))
    {s : σ} (hs : I s) (es : List ε) : I (run step s es) :=
  run_invariant (fun s e h _ => hstep s e h) hs (along_true s es)

/-- Two machines stay related when their steps under related events do. -/
theorem run_related {τ φ : Type*} {step' : τ → φ → τ} {R : σ → τ → Prop} {E : ε → φ → Prop}
    (hstep : ∀ s t e f, R s t → E e f → R (step s e) (step' t f)) {s : σ} {t : τ}
    {es : List ε} {fs : List φ} (h : R s t) (hes : List.Forall₂ E es fs) :
    R (run step s es) (run step' t fs) := by
  induction hes generalizing s t with
  | nil => exact h
  | cons hef _ ih => exact ih (hstep _ _ _ _ h hef)

/-- The same for two machines under the same events, as far as both admit them. -/
theorem run_related_along {τ : Type*} {step' : τ → ε → τ} {R : σ → τ → Prop} {P : σ → ε → Prop}
    {Q : τ → ε → Prop} (hstep : ∀ s t e, R s t → P s e → Q t e → R (step s e) (step' t e)) {s : σ}
    {t : τ} {es : List ε} (h : R s t) (hP : Along step P s es) (hQ : Along step' Q t es) :
    R (run step s es) (run step' t es) := by
  induction es generalizing s t with
  | nil => exact h
  | cons e es ih => exact ih (hstep s t e h hP.1 hQ.1) hP.2 hQ.2

/-- Under an invariant that the admitted steps preserve, being admitted may be replaced
by what is equivalent to it. -/
theorem along_congr_of_kept {P Q : σ → ε → Prop} {I : σ → Prop}
    (hstep : ∀ s e, I s → Q s e → I (step s e)) (hPQ : ∀ s e, I s → (P s e ↔ Q s e))
    {s : σ} (hs : I s) (es : List ε) : Along step P s es ↔ Along step Q s es := by
  induction es generalizing s with
  | nil => exact Iff.rfl
  | cons e es ih =>
      rw [Along, Along, hPQ s e hs]
      exact and_congr_right fun he => ih (hstep s e hs he)

/-- Under an invariant, properties of steps that are equivalent hold along the
same runs. -/
theorem along_congr {P Q : σ → ε → Prop} {I : σ → Prop} (hstep : ∀ s e, I s → I (step s e))
    (hPQ : ∀ s e, I s → (P s e ↔ Q s e)) {s : σ} (hs : I s) (es : List ε) :
    Along step P s es ↔ Along step Q s es :=
  along_congr_of_kept (fun s e hs _ => hstep s e hs) hPQ hs es

/-- A property of states that, along admitted steps, exactly the steps with `Q`
keep. -/
theorem along_iff_of_kept {A Q : σ → ε → Prop} {I J : σ → Prop}
    (hI : ∀ s e, I s → A s e → I (step s e))
    (hJ : ∀ s e, I s → A s e → J s → (J (step s e) ↔ Q s e)) {s : σ} {es : List ε}
    (hs : I s) (hJs : J s) (hes : Along step A s es) :
    Along step (fun s e => J (step s e)) s es ↔ Along step Q s es := by
  induction es generalizing s with
  | nil => exact Iff.rfl
  | cons e es ih =>
      -- the rest of the run only matters once the first step has kept `J`
      have hrest := fun hkept => ih (hI s e hs hes.1) hkept hes.2
      rw [Along, Along, ← hJ s e hs hes.1 hJs]
      exact and_congr_right hrest

/-- A property of states that is lost for good, and that exactly the steps with `Q` keep. -/
theorem run_iff_along_of_kept {Q : σ → ε → Prop} {I J : σ → Prop} (hI : ∀ s e, I s → I (step s e))
    (hJ : ∀ s e, I s → J s → (J (step s e) ↔ Q s e)) (hlost : ∀ s e, I s → ¬J s → ¬J (step s e))
    {s : σ} {es : List ε} (hs : I s) (hJs : J s) : J (run step s es) ↔ Along step Q s es := by
  induction es generalizing s with
  | nil => exact iff_of_true hJs trivial
  | cons e es ih =>
      rw [run_cons, Along, ← hJ s e hs hJs]
      by_cases hkept : J (step s e)
      · rw [ih (hI s e hs) hkept, and_iff_right hkept]
      · have hend : ¬J (run step (step s e) es) :=
          (run_invariant_of_forall (I := fun s => I s ∧ ¬J s)
            (fun s e h => ⟨hI s e h.1, hlost s e h.1 h.2⟩) ⟨hI s e hs, hkept⟩ es).2
        exact iff_of_false hend fun h => hkept h.1

theorem Along.and {P Q : σ → ε → Prop} {s : σ} {es : List ε} (hP : Along step P s es)
    (hQ : Along step Q s es) : Along step (fun s e => P s e ∧ Q s e) s es := by
  induction es generalizing s with
  | nil => trivial
  | cons e es ih => exact ⟨⟨hP.1, hQ.1⟩, ih hP.2 hQ.2⟩

/-- A run whose steps collect something in one place. -/
theorem foldl_collect {β : Type*} (f : σ → ε → σ) (g : ε → β) (collect : List β → σ → σ)
    (hnil : ∀ s, collect [] s = s)
    (hstep : ∀ bs s e, f (collect bs s) e = collect (bs ++ [g e]) s) (s : σ) (es : List ε) :
    es.foldl f s = collect (es.map g) s := by
  -- the induction is for any part that has been collected before
  have key : ∀ bs, es.foldl f (collect bs s) = collect (bs ++ es.map g) s := by
    induction es with
    | nil => intro bs; simp
    | cons e es ih =>
        intro bs
        rw [List.foldl_cons, hstep, ih, List.map_cons, List.append_assoc]
        rfl
  calc es.foldl f s = es.foldl f (collect [] s) := by rw [hnil]
    _ = collect (es.map g) s := key []

/-! ### Machines that may stop -/

section
variable {step : σ → ε → Option σ}

theorem foldlM_cons_eq_some {s t : σ} {e : ε} {es : List ε}
    (h : (e :: es).foldlM step s = some t) :
    ∃ u, step s e = some u ∧ es.foldlM step u = some t := by
  rwa [List.foldlM_cons, Option.bind_eq_bind, Option.bind_eq_some_iff] at h

theorem foldlM_append_eq_some {s t : σ} {es fs : List ε}
    (h : (es ++ fs).foldlM step s = some t) :
    ∃ u, es.foldlM step s = some u ∧ fs.foldlM step u = some t := by
  rwa [List.foldlM_append, Option.bind_eq_bind, Option.bind_eq_some_iff] at h

/-- Cut a run at the first event with `p`. -/
theorem foldlM_cut {p : ε → Bool} {s t : σ} {es : List ε} (h : es.foldlM step s = some t)
    (hp : ∃ e ∈ es, p e = true) :
    ∃ pre e post u v, es = pre ++ e :: post ∧ p e = true ∧ (∀ f ∈ pre, p f = false) ∧
      pre.foldlM step s = some u ∧ step u e = some v ∧ post.foldlM step v = some t := by
  obtain ⟨e, he⟩ := Option.isSome_iff_exists.mp (List.find?_isSome.mpr hp)
  obtain ⟨hpe, pre, post, rfl, hpre⟩ := List.find?_eq_some_iff_append.mp he
  obtain ⟨u, hu, hrest⟩ := foldlM_append_eq_some h
  obtain ⟨v, hv, ht⟩ := foldlM_cons_eq_some hrest
  exact ⟨pre, e, post, u, v, rfl, hpe, by simpa using hpre, hu, hv, ht⟩

end

section
variable {ξ : Type*} {step : σ → ε → Except ξ σ}

/-- How a computation ends: `P` holds of its result, or `Q` of what stopped it. -/
def Ends (P : σ → Prop) (Q : ξ → Prop) : Except ξ σ → Prop
  | .ok s => P s
  | .error x => Q x

theorem Ends.imp {P P' : σ → Prop} {Q Q' : ξ → Prop} {r : Except ξ σ} (h : Ends P Q r)
    (hP : ∀ s, P s → P' s) (hQ : ∀ x, Q x → Q' x) : Ends P' Q' r := by
  cases r with
  | ok s => exact hP s h
  | error x => exact hQ x h

theorem Ends.bind.{u} {σ τ : Type u} {P : σ → Prop} {P' : τ → Prop} {Q : ξ → Prop}
    {r : Except ξ σ} {f : σ → Except ξ τ} (h : Ends P Q r) (hf : ∀ s, P s → Ends P' Q (f s)) :
    Ends P' Q (r >>= f) := by
  cases r with
  | ok s => exact hf s h
  | error x => exact h

/-- A computation that goes on after a part has a result of that part. -/
theorem bind_eq_ok.{u} {σ τ : Type u} {r : Except ξ σ} {f : σ → Except ξ τ} {t : τ}
    (h : r >>= f = .ok t) : ∃ s, r = .ok s ∧ f s = .ok t := by
  cases r with
  | ok s => exact ⟨s, rfl, h⟩
  | error x => cases h

/-- An invariant of the state and the events to come. -/
theorem Ends.foldlM {I : List ε → σ → Prop} {Q : ξ → Prop}
    (hstep : ∀ e es s, I (e :: es) s → Ends (I es) Q (step s e)) {es : List ε} {s : σ}
    (hs : I es s) : Ends (I []) Q (es.foldlM step s) := by
  induction es generalizing s with
  | nil => exact hs
  | cons e es ih =>
      rw [List.foldlM_cons]
      exact (hstep e es s hs).bind fun t ht => ih ht

/-- An invariant of the state alone. -/
theorem Ends.foldlM_mem {I : σ → Prop} {Q : ξ → Prop} {es : List ε}
    (hstep : ∀ s, ∀ e ∈ es, I s → Ends I Q (step s e)) {s : σ} (hs : I s) :
    Ends I Q (es.foldlM step s) := by
  induction es generalizing s with
  | nil => exact hs
  | cons e es ih =>
      rw [List.foldlM_cons]
      refine (hstep s e List.mem_cons_self hs).bind fun t ht => ?_
      exact ih (fun u f hf => hstep u f (List.mem_cons_of_mem _ hf)) ht

/-- A loop that adds what is missing.  `has` says which keys there are; a step may judge
that by the state before the loop, as the keys of the events are different ones. -/
theorem Ends.foldlM_fill {κ : Type*} {key : ε → κ} {has : σ → κ → Prop} {I : σ → Prop} {Q : ξ → Prop}
    {s₀ : σ} {es : List ε}
    (hstep : ∀ s, ∀ e ∈ es, I s → (has s (key e) ↔ has s₀ (key e)) →
      Ends (fun t => I t ∧ ∀ k, has t k ↔ has s k ∨ k = key e) Q (step s e))
    (hes : (es.map key).Nodup) (hs : I s₀) :
    Ends (fun t => I t ∧ ∀ k, has t k ↔ has s₀ k ∨ k ∈ es.map key) Q (es.foldlM step s₀) := by
  -- the keys of the events to come are as they were before the loop
  have hrun : ∀ (done todo : List ε), es = done ++ todo → ∀ s, I s →
      (∀ k, has s k ↔ has s₀ k ∨ k ∈ done.map key) →
        Ends (fun t => I t ∧ ∀ k, has t k ↔ has s₀ k ∨ k ∈ es.map key) Q (todo.foldlM step s) := by
    intro done todo
    induction todo generalizing done with
    | nil =>
        intro hsplit s hs hhas
        rw [hsplit, List.append_nil]
        exact ⟨hs, hhas⟩
    | cons e todo ih =>
        intro hsplit s hs hhas
        have hmem : e ∈ es := by rw [hsplit]; exact List.mem_append_right _ List.mem_cons_self
        have hnew : key e ∉ done.map key := by
          rw [hsplit, List.map_append, List.nodup_append] at hes
          intro hdone
          exact hes.2.2 _ hdone _ List.mem_cons_self rfl
        have hbefore : has s (key e) ↔ has s₀ (key e) := by
          rw [hhas, or_iff_left hnew]
        rw [List.foldlM_cons]
        refine (hstep s e hmem hs hbefore).bind ?_
        rintro t ⟨ht, hadded⟩
        apply ih (done ++ [e]) (by rw [hsplit, List.append_assoc]; rfl) t ht
        intro k
        rw [hadded, hhas, List.map_append, List.mem_append, or_assoc]
        simp
  exact hrun [] es rfl s₀ hs fun k => by simp

/-- A loop over two lists side by side. -/
def walk {α β : Type*} (step : σ → α → β → Except ξ σ) : σ → List α → List β → Except ξ σ
  | s, a :: as, b :: bs => step s a b >>= fun t => walk step t as bs
  | s, _, _ => .ok s

/-- Side by side are what two lists have of the same things. -/
theorem walk_map {α β : Type*} {step : σ → α → β → Except ξ σ} (f : ε → α) (g : ε → β) (es : List ε)
    (s : σ) : walk step s (es.map f) (es.map g) = es.foldlM (fun s e => step s (f e) (g e)) s := by
  induction es generalizing s with
  | nil => rfl
  | cons e es ih =>
      rw [List.foldlM_cons, List.map_cons, List.map_cons, walk]
      exact congrArg _ (funext fun t => ih t)

/-- Steps that keep an invariant and do not stop make up a run that does not
stop. -/
theorem foldlM_eq_ok {I : σ → Prop} {es : List ε} {s : σ}
    (hstep : ∀ s, ∀ e ∈ es, I s → ∃ t, step s e = .ok t ∧ I t) (hs : I s) :
    ∃ t, es.foldlM step s = .ok t ∧ I t := by
  induction es generalizing s with
  | nil => exact ⟨s, rfl, hs⟩
  | cons e es ih =>
      obtain ⟨t, hst, ht⟩ := hstep s e List.mem_cons_self hs
      obtain ⟨u, htu, hu⟩ := ih (fun s f hf => hstep s f (List.mem_cons_of_mem _ hf)) ht
      refine ⟨u, ?_, hu⟩
      rw [List.foldlM_cons, hst]
      exact htu

end

/-! ### Families of machines -/

section
variable {ι : Type*} [DecidableEq ι]

/-- One machine of a family makes a step. -/
def each (step : σ → ε → σ) (w : ι → σ) (e : ι × ε) : ι → σ :=
  Function.update w e.1 (step (w e.1) e.2)

/-- A step of the family is a step of one machine, or leaves it alone. -/
theorem each_invariant {I : σ → Prop} {w : ι → σ} {e : ι × ε} {i : ι} (hw : I (w i))
    (hstep : e.1 = i → I (step (w i) e.2)) : I (each step w e i) := by
  by_cases hi : e.1 = i
  · subst hi
    rw [each, Function.update_self]
    exact hstep rfl
  · rwa [each, Function.update_of_ne (Ne.symm hi)]

/-- Where machines are of several kinds, what holds of all of them goes on to hold when
one becomes another of which it holds. -/
theorem forall_update {κ : Type*} [DecidableEq κ] {F : κ → Type*} {P : ∀ k, F k → Prop}
    {w : ∀ k, ι → F k} (hw : ∀ k i, P k (w k i)) {k : κ} (i : ι) {a : F k} (ha : P k a) :
    ∀ l j, P l (Function.update w k (Function.update (w k) i a) l j) := by
  intro l j
  by_cases hl : l = k
  · subst hl
    rw [Function.update_self]
    by_cases hj : j = i
    · subst hj
      rw [Function.update_self]
      exact ha
    · rw [Function.update_of_ne hj]
      exact hw l j
  · rw [Function.update_of_ne hl]
    exact hw l j

end

end Runs
