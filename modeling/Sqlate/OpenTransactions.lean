/-
Sqlate/OpenTransactions.lean

`SqlTransaction::transactionsCount`: "the number of transactions being run".

It is the number of keys of `m_refCounts`.  A key is inserted when the first object on
a connection is constructed, and stays when the last one ends; then the count is one
too high (`countsOpen_run_iff`).
-/
import Mathlib.Data.List.Perm.Subperm
import Sqlate.TransactionCounts

namespace Sqlate

/-! ### What a step does to a count -/

namespace Connection

/-- The call ends the last armed object: a commit that returns, or a rollback or a
destruction that is not stopped by the check in front. -/
def EndsLast (c : Connection) : TransactionEvent → Prop
  | .commit id env => c.armed = {id} ∧ (c.commit id env).ending = .returned
  | .rollback id env | .destroy id env =>
      c.armed = {id} ∧ (c.session.checkDbIsAlive env.onMainThread env.opens1).isSome = true
  | _ => False

/-- The effect of a step on the objects and on the entry in `m_refCounts`. -/
inductive CountEffect (c : Connection) (e : TransactionEvent) (c' : Connection) : Prop
  | kept (armed : c'.armed = c.armed) (disarmed : c'.disarmed ⊆ c.disarmed)
      (refCount : c'.refCount = c.refCount) (ends : ¬ c.EndsLast e)
  | constructed (id : Nat) (unused : id ∉ c.disarmed) (armed : c'.armed = insert id c.armed)
      (disarmed : c'.disarmed = c.disarmed) (refCount : c'.refCount.isSome = true)
      (ends : ¬ c.EndsLast e)
  | ended (id : Nat) (live : id ∈ c.armed ∨ id ∈ c.disarmed)
      (armed : c'.armed = c.armed.erase id) (disarmed : c'.disarmed ⊆ insert id c.disarmed)
      (refCount : c'.refCount.isSome = true) (ends : c.EndsLast e ↔ c.armed = {id})

/-- A connection that has or had objects has an entry. -/
structure Entered (c : Connection) : Prop where
  entry : c.armed.Nonempty ∨ c.disarmed.Nonempty → c.refCount.isSome = true
  disjoint : Disjoint c.armed c.disarmed

/-- A connection with an entry has an armed object. -/
def Open (c : Connection) : Prop := c.refCount.isSome = true → c.armed.Nonempty

theorem entered_new : new.Entered where
  entry := fun h => by simp [new] at h
  disjoint := Finset.disjoint_empty_left _

variable {c : Connection}

/-- An object that does not exist cannot be the last one. -/
theorem not_endsLast_of_not_possible {e : TransactionEvent} (h : c.possible e = false) :
    ¬ c.EndsLast e := by
  have hlive : ∀ id, c.armed = {id} → id ∈ c.armed := fun id heq => by
    rw [heq]
    exact Finset.mem_singleton_self id
  intro hends
  cases e with
  | construct id env => exact hends
  | destroy id env => simp [possible, hlive id hends.1] at h
  | commit id env => simp [possible, hlive id hends.1] at h
  | rollback id env => simp [possible, hlive id hends.1] at h
  | exec env => exact hends
  | lose => exact hends

theorem live_of_possible {e : TransactionEvent} {id : Nat} (hpossible : c.possible e = true)
    (hfinishing : e.finishing? = some id) : id ∈ c.armed ∨ id ∈ c.disarmed :=
  or_iff_not_imp_right.mpr (mem_armed_of_possible hpossible hfinishing)

theorem countEffect_step (e : TransactionEvent) (hc : c.Entered) : CountEffect c e (c.step e) := by
  show CountEffect c e (c.happen e).connection
  cases hpossible : c.possible e with
  | false =>
      rw [happen_of_not_possible hpossible]
      exact .kept rfl (subset_refl _) rfl (not_endsLast_of_not_possible hpossible)
  | true =>
      rw [happen_of_possible hpossible]
      cases e with
      | construct id env =>
          have hunused : id ∉ c.disarmed := by
            simp only [possible, Bool.and_eq_true, decide_eq_true_eq] at hpossible
            exact hpossible.2
          obtain ⟨s, -, ⟨-, h⟩ | ⟨-, h⟩⟩ := c.construct_spec id env
          · rw [perform, h]
            exact .constructed id hunused rfl rfl rfl fun hends => hends
          · rw [perform, h]
            exact .kept rfl (subset_refl _) rfl fun hends => hends
      | destroy id env =>
          by_cases hid : id ∈ c.disarmed
          · rw [perform, destroy, if_pos hid]
            refine .kept rfl (Finset.erase_subset id _) rfl fun hends => ?_
            have harmed : id ∈ c.armed := hends.1 ▸ Finset.mem_singleton_self id
            exact Finset.disjoint_left.mp hc.disjoint harmed hid
          · have hlive := live_of_possible hpossible rfl
            rw [perform, destroy, if_neg hid]
            cases hcheck : c.session.checkDbIsAlive env.onMainThread env.opens1 with
            | none =>
                refine .kept rfl (subset_refl _) rfl fun hends => ?_
                rw [EndsLast, hcheck] at hends
                exact Bool.false_ne_true hends.2
            | some s =>
                refine .ended id hlive rfl (Finset.subset_insert id _) rfl ?_
                rw [EndsLast, hcheck]
                exact and_iff_left rfl
      | commit id env =>
          have hlive := live_of_possible hpossible rfl
          obtain ⟨s, -, ⟨hending, h⟩ | ⟨hending, h⟩⟩ := c.commit_spec id env
          · rw [perform, h]
            exact .ended id hlive rfl (subset_refl _) rfl (and_iff_left hending)
          · rw [perform, h]
            exact .kept rfl (subset_refl _) rfl fun hends => hending hends.2
      | rollback id env =>
          have hlive := live_of_possible hpossible rfl
          rw [perform, rollback]
          cases hcheck : c.session.checkDbIsAlive env.onMainThread env.opens1 with
          | none =>
              refine .kept rfl (subset_refl _) rfl fun hends => ?_
              rw [EndsLast, hcheck] at hends
              exact Bool.false_ne_true hends.2
          | some s =>
              refine .ended id hlive rfl (subset_refl _) rfl ?_
              rw [EndsLast, hcheck]
              exact and_iff_left rfl
      | exec env =>
          obtain ⟨s, -, -, h⟩ | ⟨s, -, -, -, h⟩ := c.exec_spec env
          · rw [perform, h]
            exact .kept rfl (subset_refl _) rfl fun hends => hends
          · rw [perform, h]
            exact .kept rfl (subset_refl _) rfl fun hends => hends
      | lose => exact .kept rfl (subset_refl _) rfl fun hends => hends

/-- An entry is never removed. -/
theorem CountEffect.isSome_refCount {c' : Connection} {e : TransactionEvent}
    (h : CountEffect c e c') (hentry : c.refCount.isSome = true) : c'.refCount.isSome = true := by
  cases h with
  | kept armed disarmed refCount => rwa [refCount]
  | constructed id unused armed disarmed refCount => exact refCount
  | ended id live armed disarmed refCount => exact refCount

theorem Entered.effect {c' : Connection} {e : TransactionEvent} (hc : c.Entered)
    (h : CountEffect c e c') : c'.Entered := by
  cases h with
  | kept armed disarmed refCount =>
      refine ⟨fun hobjects => ?_, ?_⟩
      · rw [refCount]
        rw [armed] at hobjects
        exact hc.entry (hobjects.imp_right fun hne => hne.mono disarmed)
      · rw [armed]
        exact hc.disjoint.mono_right disarmed
  | constructed id unused armed disarmed refCount =>
      refine ⟨fun _ => refCount, ?_⟩
      rw [armed, disarmed, Finset.disjoint_insert_left]
      exact ⟨unused, hc.disjoint⟩
  | ended id live armed disarmed refCount =>
      refine ⟨fun _ => refCount, ?_⟩
      have hdisjoint : Disjoint (c.armed.erase id) (insert id c.disarmed) := by
        rw [Finset.disjoint_insert_right]
        exact ⟨Finset.notMem_erase id _, hc.disjoint.mono_left (Finset.erase_subset id _)⟩
      rw [armed]
      exact hdisjoint.mono_right disarmed

/-- A connection stays open exactly when its last armed object does not end. -/
theorem open_effect_iff {c' : Connection} {e : TransactionEvent} (hc : c.Entered) (hopen : c.Open)
    (h : CountEffect c e c') : c'.Open ↔ ¬ c.EndsLast e := by
  cases h with
  | kept armed disarmed refCount ends =>
      refine iff_of_true (fun hentry => ?_) ends
      rw [armed]
      rw [refCount] at hentry
      exact hopen hentry
  | constructed id unused armed disarmed refCount ends =>
      refine iff_of_true (fun _ => ?_) ends
      rw [armed]
      exact Finset.insert_nonempty id _
  | ended id live armed disarmed refCount ends =>
      -- there is an armed object, since there is one that may end
      have hbefore : c.armed ≠ ∅ :=
        (hopen (hc.entry (live.imp (fun h => ⟨id, h⟩) fun h => ⟨id, h⟩))).ne_empty
      have hafter : c'.Open ↔ c'.armed.Nonempty := ⟨fun h => h refCount, fun h _ => h⟩
      rw [hafter, ends, armed, Finset.nonempty_iff_ne_empty, Ne, Finset.erase_eq_empty_iff,
        or_iff_right hbefore]

end Connection

/-! ### The keys of `m_refCounts` -/

/-- The connections of a program, and the keys of `m_refCounts`. -/
structure RefCounts where
  connections : Connections
  keys : List QString

namespace RefCounts

def new : RefCounts := ⟨.new, []⟩

/-- `operator[]` of a `QHash` inserts the key when there is no entry for it. -/
def step (s : RefCounts) (e : QString × TransactionEvent) : RefCounts where
  connections := s.connections.step e
  keys :=
    if (s.connections.step e e.1).refCount.isSome && !s.keys.contains e.1 then s.keys ++ [e.1]
    else s.keys

/-- `SqlTransaction::transactionsCount`. -/
def transactionsCount (s : RefCounts) : Nat := s.keys.length

/-- The count is positive when a connection has an armed object, and it is the number of
such connections. -/
def CountsOpen (s : RefCounts) : Prop :=
  (0 < s.transactionsCount ↔ ∃ name, (s.connections name).armed.Nonempty) ∧
    ∃ names : List QString, names.Nodup ∧
      (∀ name, name ∈ names ↔ (s.connections name).armed.Nonempty) ∧
        s.transactionsCount = names.length

/-- The keys are the names of the connections with an entry. -/
structure Keyed (s : RefCounts) : Prop where
  nodup : s.keys.Nodup
  mem : ∀ name, name ∈ s.keys ↔ (s.connections name).refCount.isSome = true
  entered : ∀ name, (s.connections name).Entered

theorem keyed_new : new.Keyed where
  nodup := List.nodup_nil
  mem := fun name => by simp [new, Connections.new, Connection.new]
  entered := fun _ => Connection.entered_new

variable {s : RefCounts}

/-- The keys after a step: one more at most. -/
theorem mem_keys_step (e : QString × TransactionEvent) (name : QString) :
    name ∈ (s.step e).keys ↔
      name ∈ s.keys ∨ name = e.1 ∧ ((s.step e).connections e.1).refCount.isSome = true := by
  show name ∈ (if _ then _ else _) ↔ _ ∨ _ ∧ (s.connections.step e e.1).refCount.isSome = true
  by_cases hentry : (s.connections.step e e.1).refCount.isSome = true
  · by_cases hkey : e.1 ∈ s.keys
    · have hcontains : s.keys.contains e.1 = true := List.contains_iff_mem.mpr hkey
      rw [hentry, hcontains, Bool.not_true, Bool.and_false, if_neg Bool.false_ne_true]
      refine (or_iff_left_of_imp ?_).symm
      rintro ⟨rfl, -⟩
      exact hkey
    · have hcontains : s.keys.contains e.1 = false := by
        rw [← Bool.not_eq_true, List.contains_iff_mem]
        exact hkey
      rw [hentry, hcontains, Bool.not_false, Bool.and_true, if_pos rfl, List.mem_append,
        List.mem_singleton, and_iff_left rfl]
  · have hnone := eq_false_of_ne_true hentry
    rw [hnone, Bool.false_and, if_neg Bool.false_ne_true]
    exact (or_iff_left fun h => Bool.false_ne_true h.2).symm

theorem Keyed.step (hs : s.Keyed) (e : QString × TransactionEvent) : (s.step e).Keyed where
  nodup := by
    show List.Nodup (if _ then _ else _)
    split_ifs with hnew
    · rw [Bool.and_eq_true, Bool.not_eq_true', List.contains_eq_mem, decide_eq_false_iff_not] at hnew
      rw [← List.concat_eq_append]
      exact hs.nodup.concat hnew.2
    · exact hs.nodup
  mem := by
    intro name
    rw [mem_keys_step, hs.mem]
    by_cases hname : name = e.1
    · subst hname
      have hstep : (s.step e).connections e.1 = (s.connections e.1).step e.2 :=
        Function.update_self ..
      rw [hstep, and_iff_right rfl]
      exact or_iff_right_of_imp
        (Connection.countEffect_step e.2 (hs.entered e.1)).isSome_refCount
    · have hstep : (s.step e).connections name = s.connections name :=
        Function.update_of_ne hname ..
      rw [hstep]
      exact or_iff_left fun h => hname h.1
  entered := fun name => Runs.each_invariant (hs.entered name) fun hname => by
    subst hname
    exact (hs.entered _).effect (Connection.countEffect_step e.2 (hs.entered _))

/-- **When the count is right**: every connection with an entry has an armed object. -/
theorem countsOpen_iff (hs : s.Keyed) : s.CountsOpen ↔ ∀ name, (s.connections name).Open := by
  have hentry : ∀ name, (s.connections name).armed.Nonempty → name ∈ s.keys := fun name h =>
    (hs.mem name).mpr ((hs.entered name).entry (.inl h))
  constructor
  · rintro ⟨-, names, hnodup, hnames, hcount⟩ name hname
    -- as many names of open connections as keys are all of them
    have hsub : names ⊆ s.keys := fun n hn => hentry n ((hnames n).mp hn)
    have hperm := (hnodup.subperm hsub).perm_of_length_le (le_of_eq hcount)
    exact (hnames name).mp (hperm.mem_iff.mpr ((hs.mem name).mpr hname))
  · intro h
    have hmem : ∀ name, name ∈ s.keys ↔ (s.connections name).armed.Nonempty := fun name =>
      ⟨fun hkey => h name ((hs.mem name).mp hkey), hentry name⟩
    refine ⟨?_, s.keys, hs.nodup, hmem, rfl⟩
    rw [transactionsCount, List.length_pos_iff_exists_mem]
    exact exists_congr hmem

/-- **`transactionsCount` is right in every state of a run if and only if no step of it
ends the last armed object of a connection.** -/
theorem countsOpen_run_iff (es : List (QString × TransactionEvent)) :
    Runs.Along step (fun s e => (s.step e).CountsOpen) new es ↔
      Runs.Along step (fun s e => ¬ (s.connections e.1).EndsLast e.2) new es := by
  refine Runs.along_iff_of_kept (A := fun _ _ => True) (I := Keyed) (J := CountsOpen)
    (fun s e hs _ => hs.step e) ?_ keyed_new ?_ (Runs.along_true _ es)
  · intro s e hs _ hcounts
    have hopen := (countsOpen_iff hs).mp hcounts
    have hstep : (s.step e).connections e.1 = (s.connections e.1).step e.2 := Function.update_self ..
    have hopen' := Connection.open_effect_iff (hs.entered e.1) (hopen e.1)
      (Connection.countEffect_step e.2 (hs.entered e.1))
    rw [countsOpen_iff (hs.step e), ← hopen', ← hstep]
    constructor
    · exact fun h => h e.1
    · intro h name
      by_cases hname : name = e.1
      · rwa [hname]
      · have hother : (s.step e).connections name = s.connections name :=
          Function.update_of_ne hname ..
        rw [hother]
        exact hopen name
  · rw [countsOpen_iff keyed_new]
    exact fun _ h => absurd h Bool.false_ne_true

/-- One transaction, which is committed. -/
def committedOnce : List (QString × TransactionEvent) :=
  [(latin1 "db", .construct 0 .success), (latin1 "db", .commit 0 .success)]

/-- **After the commit** no object is armed on any connection, and the count is one. -/
theorem not_countsOpen_committedOnce :
    (Runs.run step new committedOnce).transactionsCount = 1 ∧
    (∀ name, ((Runs.run step new committedOnce).connections name).armed = ∅) ∧
    ¬ Runs.Along step (fun s e => (s.step e).CountsOpen) new committedOnce := by
  have harmed : ∀ name, ((Runs.run step new committedOnce).connections name).armed = ∅ := by
    intro name
    by_cases hname : name = latin1 "db"
    · subst hname
      decide
    · show ((Connections.new.step _).step _ name).armed = ∅
      rw [Connections.step, Runs.each, Function.update_of_ne hname, Runs.each,
        Function.update_of_ne hname]
      rfl
  refine ⟨by decide, harmed, fun h => ?_⟩
  have hlast : (Runs.run step new committedOnce).CountsOpen := h.2.1
  obtain ⟨name, hname⟩ := hlast.1.mp (by decide)
  rw [harmed name] at hname
  exact Finset.not_nonempty_empty hname

end RefCounts

end Sqlate
