/-
Sqlate/Base/Readers.lean

Readers of sequences.

A reader takes a value off the front of a sequence and leaves the rest, or it
fails.  It inverts a notation if it takes off nothing but what is written for
the value, and does so in front of everything that may follow (`Inverts`).

The two halves have rules for the parts of a reader.  `Sound write taken r` says
that `r` goes on with `taken` to what is written for its value, `Reads u a follow
r` that `r` reads `u` as `a`.  Lists are read up to where something ends them
(`Inverts.many`), or with a word between their values (`Inverts.separated`).  Of
readers that invert nothing, `Takes` says how what they take off is related to
their value.
-/
import Mathlib.Data.List.Basic

universe u

/-- A value from the front of a sequence, and the rest. -/
abbrev Reader (τ : Type u) := StateT (List τ) Option

namespace Reader

variable {τ α β : Type u}

/-- What has been taken off and what the reader takes off are the notation of its value. -/
def Sound (write : α → List τ) (taken : List τ) (r : Reader τ α) : Prop :=
  ∀ ⦃ls a rest⦄, r ls = some (a, rest) → taken ++ ls = write a ++ rest

/-- A text is read as a value, in front of what may follow. -/
def Reads (u : List τ) (a : α) (follow : List τ → Prop) (r : Reader τ α) : Prop :=
  ∀ ⦃rest⦄, follow rest → r (u ++ rest) = some (a, rest)

/-- The reader takes off what is written for a value, and nothing else. -/
structure Inverts (r : Reader τ α) (write : α → List τ) (follow : List τ → Prop) : Prop where
  sound : Sound write [] r
  reads (a : α) : Reads (write a) a follow r

/-! ### Readers -/

/-- Given words. -/
def words [DecidableEq τ] : List τ → Reader τ PUnit
  | [], ls => some (.unit, ls)
  | w :: ws, l :: ls => if l = w then words ws ls else none
  | _ :: _, [] => none

/-- One word that stands for a value. -/
def one (f : τ → Option α) : Reader τ α
  | [] => none
  | l :: ls => (f l).map fun a => (a, ls)

/-- The first word tells how to go on. -/
def byWord [BEq τ] (table : List (τ × Reader τ α)) : Reader τ α
  | [] => none
  | l :: ls => (table.lookup l).bind fun r => r ls

/-- The next word tells whether to go on with `r`, behind it, or with `r'`. -/
def ifNext [DecidableEq τ] (w : τ) (r r' : Reader τ α) : Reader τ α
  | [] => r' []
  | l :: ls => if l = w then r ls else r' (l :: ls)

/-- A value behind a word, or nothing. -/
def optional [DecidableEq τ] (w : τ) (r : Reader τ α) : Reader τ (Option α) :=
  ifNext w (do let a ← r; return some a) (return none)

/-- All words in front of the first one that ends the value. -/
def upTo (ends : τ → Bool) (f : List τ → Option α) : Reader τ α := fun ls =>
  (f (ls.takeWhile (!ends ·))).map fun a => (a, ls.dropWhile (!ends ·))

/-- At most `n - 1` values, up to where `ends` holds. -/
def manyUpTo (ends : List τ → Bool) (r : Reader τ α) : Nat → Reader τ (List α)
  | 0, _ => none
  | n + 1, ls =>
      if ends ls then some ([], ls)
      else StateT.run (do
        let a ← r
        let as ← manyUpTo ends r n
        return a :: as) ls

/-- Values one behind the other. -/
def many (ends : List τ → Bool) (r : Reader τ α) : Reader τ (List α) := fun ls =>
  manyUpTo ends r (ls.length + 1) ls

/-- Values with a word between them: the first one, and the others. -/
def separated [DecidableEq τ] (sep : τ) (r : Reader τ α) : Reader τ (α × List α) := do
  let a ← r
  let as ← many (fun ls => ls.head? ≠ some sep) do
    words [sep]
    r
  return (a, as)

/-- A value and nothing else. -/
def whole (r : Reader τ α) (ls : List τ) : Option α :=
  match r ls with
  | some (a, []) => some a
  | _ => none

/-! ### Parts of a reader -/

variable {r r' : Reader τ α} {k : α → Reader τ β} {write : α → List τ} {write' : β → List τ}
  {follow follow' : List τ → Prop} {taken u v : List τ} {a : α} {b : β}

theorem bind_apply (r : Reader τ α) (k : α → Reader τ β) (ls : List τ) :
    (r >>= k) ls = (r ls).bind fun x => k x.1 x.2 := rfl

theorem Sound.pure (h : write a = taken) : Sound write taken (pure a) := by
  intro ls a' rest hread
  obtain ⟨rfl, rfl⟩ := Prod.mk.inj (Option.some.inj hread)
  rw [h]

theorem Sound.bind (hr : Sound write [] r)
    (hk : ∀ a, Sound write' (taken ++ write a) (k a)) : Sound write' taken (r >>= k) := by
  intro ls b rest hread
  rw [bind_apply] at hread
  obtain ⟨x, hx, hread⟩ := Option.bind_eq_some_iff.1 hread
  have hls : ls = write x.1 ++ x.2 := hr hx
  rw [hls, ← List.append_assoc]
  exact hk x.1 hread

theorem Sound.byWord [BEq τ] [LawfulBEq τ] {table : List (τ × Reader τ α)}
    (h : ∀ x ∈ table, Sound write (taken ++ [x.1]) x.2) : Sound write taken (byWord table) := by
  intro ls a rest hread
  cases ls with
  | nil => cases hread
  | cons l ls =>
      obtain ⟨r, hr, hread⟩ := Option.bind_eq_some_iff.1 hread
      obtain ⟨x, hx, rfl, rfl⟩ : ∃ x ∈ table, x.1 = l ∧ x.2 = r := by
        obtain ⟨front, back, rfl, -⟩ := List.lookup_eq_some_iff.1 hr
        exact ⟨(l, r), by simp, rfl, rfl⟩
      have hfirst := h x hx hread
      rwa [List.append_assoc] at hfirst

theorem Sound.ifNext [DecidableEq τ] {w : τ} (h : Sound write (taken ++ [w]) r)
    (h' : Sound write taken r') : Sound write taken (ifNext w r r') := by
  intro ls a rest hread
  cases ls with
  | nil => exact h' hread
  | cons l ls =>
      have hif : (if l = w then r ls else r' (l :: ls)) = some (a, rest) := hread
      split_ifs at hif with hl
      · have hfirst := h hif
        rwa [List.append_assoc, ← hl] at hfirst
      · exact h' hif

theorem Reads.pure : Reads [] a follow (pure a) := fun _ _ => rfl

theorem Reads.bind (hr : Reads v a follow' r) (hk : Reads u b follow (k a))
    (hfollow : ∀ rest, follow rest → follow' (u ++ rest)) :
    Reads (v ++ u) b follow (r >>= k) := by
  intro rest hrest
  rw [List.append_assoc, bind_apply, hr (hfollow rest hrest)]
  exact hk hrest

/-- The last part of a reader. -/
theorem Reads.bind_pure {f : α → β} (hr : Reads u a follow' r) (hb : f a = b)
    (hfollow : ∀ rest, follow rest → follow' rest) :
    Reads u b follow (do let a ← r; return f a) := by
  intro rest hrest
  rw [bind_apply, hr (hfollow rest hrest), ← hb]
  rfl

theorem Reads.byWord [BEq τ] {table : List (τ × Reader τ α)} {l : τ}
    (hl : table.lookup l = some r) (hr : Reads u a follow r) :
    Reads (l :: u) a follow (byWord table) := by
  intro rest hrest
  show (table.lookup l).bind (fun r => r (u ++ rest)) = _
  rw [hl]
  exact hr hrest

/-- In front of the word. -/
theorem Reads.ifNext_word [DecidableEq τ] {w : τ} (hr : Reads u a follow r) :
    Reads (w :: u) a follow (ifNext w r r') := by
  intro rest hrest
  exact (if_pos rfl).trans (hr hrest)

/-- In front of anything else. -/
theorem Reads.ifNext_other [DecidableEq τ] {w : τ} (hr : Reads u a follow r')
    (hother : ∀ rest, follow rest → (u ++ rest).head? ≠ some w) :
    Reads u a follow (ifNext w r r') := by
  intro rest hrest
  have hhead := hother rest hrest
  rw [← hr hrest]
  cases hls : u ++ rest with
  | nil => rfl
  | cons l ls =>
      rw [hls] at hhead
      exact if_neg fun hl => hhead (congrArg some hl)

/-- The text of what may be left out. -/
theorem Reads.optional {ι : Type u} [DecidableEq τ] {w : τ} {o : Option ι} {write : ι → List τ} {f : ι → α}
    (hr : ∀ i ∈ o, Reads (write i) (f i) follow r) :
    Reads (o.elim [] fun i => w :: write i) (o.map f) (fun rest => rest.head? ≠ some w ∧ follow rest)
      (optional w r) := by
  cases o with
  | none => exact Reads.ifNext_other Reads.pure fun _ hrest => hrest.1
  | some i => exact Reads.ifNext_word (Reads.bind_pure (hr i rfl) rfl fun _ hrest => hrest.2)

theorem Reads.upTo {ends : τ → Bool} {f : List τ → Option α} (hf : f u = some a)
    (hu : ∀ w ∈ u, ends w = false) :
    Reads u a (fun rest => ∀ w ∈ rest.head?, ends w = true) (upTo ends f) := by
  intro rest hrest
  have htake : rest.takeWhile (!ends ·) = [] ∧ rest.dropWhile (!ends ·) = rest := by
    cases rest with
    | nil => exact ⟨rfl, rfl⟩
    | cons w rest =>
        have hw := hrest w rfl
        rw [List.takeWhile_cons, List.dropWhile_cons, hw]
        exact ⟨rfl, rfl⟩
  have hpos : ∀ w ∈ u, (!ends w) = true := fun w hw => by rw [hu w hw]; rfl
  rw [Reader.upTo, List.takeWhile_append_of_pos hpos, List.dropWhile_append_of_pos hpos, htake.1,
    htake.2, List.append_nil, hf]
  rfl

/-! ### Words -/

theorem Inverts.words [DecidableEq τ] (ws : List τ) :
    Inverts (words ws) (fun _ => ws) fun _ => True where
  sound := by
    intro ls a rest hread
    show ls = ws ++ rest
    induction ws generalizing ls with
    | nil =>
        obtain ⟨-, rfl⟩ := Prod.mk.inj (Option.some.inj hread)
        rfl
    | cons w ws ih =>
        cases ls with
        | nil => cases hread
        | cons l ls =>
            have hif : (if l = w then Reader.words ws ls else none) = some (a, rest) := hread
            split_ifs at hif with hl
            rw [hl, ih hif]
            rfl
  reads _ := by
    intro rest _
    induction ws with
    | nil => rfl
    | cons w ws ih => exact (if_pos rfl).trans ih

theorem Sound.words [DecidableEq τ] {ws : List τ} {r : Reader τ α}
    (hr : Sound write (taken ++ ws) r) : Sound write taken (do Reader.words ws; r) :=
  Sound.bind (Inverts.words ws).sound fun _ => hr

theorem Reads.words [DecidableEq τ] {ws : List τ} (hr : Reads u a follow r) :
    Reads (ws ++ u) a follow (do Reader.words ws; r) :=
  Reads.bind ((Inverts.words ws).reads .unit) hr fun _ _ => trivial

/-- Words that are the last part of a reader. -/
theorem Reads.words_pure [DecidableEq τ] {ws : List τ} :
    Reads ws a follow (do Reader.words ws; return a) :=
  Reads.bind_pure ((Inverts.words ws).reads .unit) rfl fun _ _ => trivial

theorem Inverts.one {f : τ → Option α} {g : α → τ} (h : ∀ l a, f l = some a ↔ l = g a) :
    Inverts (one f) (fun a => [g a]) fun _ => True where
  sound := by
    intro ls a rest hread
    cases ls with
    | nil => cases hread
    | cons l ls =>
        obtain ⟨a', ha, heq⟩ := Option.map_eq_some_iff.1 hread
        obtain ⟨rfl, rfl⟩ := Prod.mk.inj heq
        rw [(h l a').1 ha]
        rfl
  reads a := by
    intro rest _
    show (f (g a)).map _ = _
    rw [(h (g a) a).2 rfl]
    rfl

/-! ### Lists -/

variable {ends : List τ → Bool}

theorem manyUpTo_sound (h : Sound write [] r) (n : Nat) :
    Sound (fun as : List α => as.flatMap write) [] (manyUpTo ends r n) := by
  induction n with
  | zero => exact fun _ _ _ => nofun
  | succ n ih =>
      intro ls as rest hread
      have hif : (if ends ls then some ([], ls) else _) = some (as, rest) := hread
      split_ifs at hif with hends
      · obtain ⟨rfl, rfl⟩ := Prod.mk.inj (Option.some.inj hif)
        rfl
      · have hcons : Sound (fun as : List α => as.flatMap write) [] (do
            let a ← r
            let as ← manyUpTo ends r n
            return a :: as) := by
          apply Sound.bind h
          intro a
          apply Sound.bind ih
          intro as
          apply Sound.pure
          rfl
        exact hcons hif

/-- Texts of values, one behind the other. -/
theorem manyUpTo_reads {us : List (List τ × α)} (h : ∀ x ∈ us, Reads x.1 x.2 follow r)
    (hends : ∀ x ∈ us, ∀ ls, ends (x.1 ++ ls) = false) (hnext : ∀ x ∈ us, ∀ ls, follow (x.1 ++ ls))
    {n : Nat} (hn : us.length < n) :
    Reads (us.flatMap Prod.fst) (us.map Prod.snd) (fun rest => ends rest ∧ follow rest)
      (manyUpTo ends r n) := by
  induction us generalizing n with
  | nil =>
      obtain ⟨n, rfl⟩ := Nat.exists_eq_succ_of_ne_zero (Nat.ne_of_gt hn)
      exact fun rest hrest => if_pos hrest.1
  | cons x us ih =>
      obtain ⟨n, rfl⟩ := Nat.exists_eq_succ_of_ne_zero (Nat.ne_of_gt (Nat.zero_lt_of_lt hn))
      obtain ⟨hx, hus⟩ := List.forall_mem_cons.1 h
      obtain ⟨hends, hendsAll⟩ := List.forall_mem_cons.1 hends
      obtain ⟨-, hnextAll⟩ := List.forall_mem_cons.1 hnext
      intro rest hrest
      have hfollow : follow (us.flatMap Prod.fst ++ rest) := by
        cases us with
        | nil => exact hrest.2
        | cons y us =>
            rw [List.flatMap_cons, List.append_assoc]
            exact hnextAll y List.mem_cons_self _
      have hothers := ih hus hendsAll hnextAll (Nat.lt_of_succ_lt_succ hn) hrest
      rw [List.flatMap_cons, List.append_assoc]
      show (if ends _ then _ else _) = _
      rw [hends, if_neg Bool.false_ne_true]
      show (r _).bind _ = _
      rw [hx hfollow]
      show (manyUpTo ends r n _).bind _ = _
      rw [hothers]
      rfl

/-- What is behind the values tells where they end. -/
theorem Reads.many {us : List (List τ × α)} (h : ∀ x ∈ us, Reads x.1 x.2 follow r)
    (hends : ∀ x ∈ us, ∀ ls, ends (x.1 ++ ls) = false) (hnext : ∀ x ∈ us, ∀ ls, follow (x.1 ++ ls)) :
    Reads (us.flatMap Prod.fst) (us.map Prod.snd) (fun rest => ends rest ∧ follow rest)
      (many ends r) := by
  intro rest hrest
  apply manyUpTo_reads h hends hnext _ hrest
  -- no value has an empty text, for that would end the values
  have hlength : ∀ x ∈ us, 1 ≤ x.1.length := by
    intro x hx
    rw [Nat.one_le_iff_ne_zero, ne_eq, List.length_eq_zero_iff]
    intro hnil
    have hfalse := hends x hx rest
    rw [hnil, List.nil_append, hrest.1] at hfalse
    cases hfalse
  have hle : us.length ≤ (us.flatMap Prod.fst).length := by
    clear h hends hnext
    induction us with
    | nil => exact Nat.le_refl 0
    | cons x us ih =>
        obtain ⟨hx, hus⟩ := List.forall_mem_cons.1 hlength
        rw [List.flatMap_cons, List.length_append, List.length_cons, Nat.add_comm]
        exact Nat.add_le_add hx (ih hus)
  rw [List.length_append]
  omega

theorem Inverts.many (h : Inverts r write follow) (hwrite : ∀ a ls, ends (write a ++ ls) = false)
    (hnext : ∀ a ls, follow (write a ++ ls)) :
    Inverts (many ends r) (fun as => as.flatMap write) fun rest => ends rest ∧ follow rest where
  sound _ _ _ hread := manyUpTo_sound h.sound _ hread
  reads as := by
    have hreads : Reads ((as.map fun a => (write a, a)).flatMap Prod.fst)
        ((as.map fun a => (write a, a)).map Prod.snd) _ (Reader.many ends r) :=
      Reads.many (List.forall_mem_map.2 fun a _ => h.reads a)
        (List.forall_mem_map.2 fun a _ => hwrite a) (List.forall_mem_map.2 fun a _ => hnext a)
    have hvalues : (Prod.snd ∘ fun a => (write a, a)) = id := rfl
    rw [List.flatMap_map, List.map_map, hvalues, List.map_id] at hreads
    exact hreads

theorem intercalate_map_cons (sep : τ) (a : α) (as : List α) :
    [sep].intercalate ((a :: as).map write) = write a ++ as.flatMap fun b => [sep] ++ write b := by
  induction as generalizing a with
  | nil =>
      show [sep].intercalate [write a] = write a ++ []
      rw [List.intercalate_singleton, List.append_nil]
  | cons b as ih =>
      show [sep].intercalate (write a :: write b :: as.map write) = _
      rw [List.intercalate_cons_cons, ← List.map_cons, ih, List.flatMap_cons]
      simp only [List.append_assoc]

/-- The word between the values does not follow them. -/
theorem Inverts.separated [DecidableEq τ] (h : Inverts r write follow) (sep : τ)
    (hsep : ∀ ls, follow (sep :: ls)) :
    Inverts (separated sep r) (fun x => [sep].intercalate ((x.1 :: x.2).map write))
      fun rest => rest.head? ≠ some sep ∧ follow rest := by
  have hnext : Inverts (do Reader.words [sep]; r) (fun a => [sep] ++ write a) follow := by
    constructor
    · apply Sound.words
      intro ls a rest hread
      exact congrArg ([sep] ++ ·) (h.sound hread)
    · exact fun a => Reads.words (h.reads a)
  have hmany : Inverts (Reader.many (fun ls => ls.head? ≠ some sep) (do Reader.words [sep]; r))
      (fun as : List α => as.flatMap fun b => [sep] ++ write b) _ :=
    hnext.many (fun a ls => by simp) fun a ls => hsep _
  constructor
  · apply Sound.bind h.sound
    intro a
    apply Sound.bind hmany.sound
    intro as
    apply Sound.pure
    exact intercalate_map_cons sep a as
  · rintro ⟨a, as⟩
    show Reads ([sep].intercalate ((a :: as).map write)) _ _ _
    rw [intercalate_map_cons]
    apply Reads.bind (h.reads a)
    · apply Reads.bind_pure (hmany.reads as) rfl
      rintro rest ⟨hhead, hrest⟩
      exact ⟨by simpa using hhead, hrest⟩
    · rintro rest ⟨-, hrest⟩
      cases as with
      | nil => exact hrest
      | cons b bs => exact hsep _

/-! ### What a reader takes off -/

/-- What the reader takes off is related to its value. -/
def Takes (R : α → List τ → Prop) (r : Reader τ α) : Prop :=
  ∀ ⦃ls a rest⦄, r ls = some (a, rest) → ∃ u, ls = u ++ rest ∧ R a u

section
variable {R : α → List τ → Prop} {R' : β → List τ → Prop}

theorem Sound.takes (h : Sound write [] r) (hR : ∀ a, R a (write a)) : Takes R r :=
  fun _ a _ hread => ⟨write a, h hread, hR a⟩

theorem Takes.pure (h : R a []) : Takes R (pure a) := by
  intro ls a' rest hread
  obtain ⟨rfl, rfl⟩ := Prod.mk.inj (Option.some.inj hread)
  exact ⟨[], rfl, h⟩

theorem Takes.bind (hr : Takes R r) (hk : ∀ a u, R a u → Takes (fun b v => R' b (u ++ v)) (k a)) :
    Takes R' (r >>= k) := by
  intro ls b rest hread
  rw [bind_apply] at hread
  obtain ⟨x, hx, hrest⟩ := Option.bind_eq_some_iff.1 hread
  obtain ⟨u, rfl, hu⟩ := hr hx
  obtain ⟨v, hv, hb⟩ := hk x.1 u hu hrest
  refine ⟨u ++ v, ?_, hb⟩
  rw [hv, List.append_assoc]

theorem Takes.words [DecidableEq τ] {ws : List τ} (hr : Takes (fun a v => R a (ws ++ v)) r) :
    Takes R (do Reader.words ws; r) := by
  have hwords : Takes (fun _ u => u = ws) (Reader.words ws) := (Inverts.words ws).sound.takes fun _ => rfl
  apply hwords.bind
  rintro _ _ rfl
  exact hr

theorem Takes.byWord [BEq τ] [LawfulBEq τ] {table : List (τ × Reader τ α)}
    (h : ∀ x ∈ table, Takes (fun a u => R a (x.1 :: u)) x.2) : Takes R (byWord table) := by
  intro ls a rest hread
  cases ls with
  | nil => cases hread
  | cons l ls =>
      obtain ⟨r, hr, hrest⟩ := Option.bind_eq_some_iff.1 hread
      obtain ⟨front, back, rfl, -⟩ := List.lookup_eq_some_iff.1 hr
      have hmem : (l, r) ∈ front ++ (l, r) :: back := by simp
      obtain ⟨u, rfl, hu⟩ := h (l, r) hmem hrest
      exact ⟨l :: u, rfl, hu⟩

theorem Takes.ifNext [DecidableEq τ] {w : τ} (h : Takes (fun a u => R a (w :: u)) r)
    (h' : Takes R r') : Takes R (ifNext w r r') := by
  intro ls a rest hread
  cases ls with
  | nil => exact h' hread
  | cons l ls =>
      have hif : (if l = w then r ls else r' (l :: ls)) = some (a, rest) := hread
      split_ifs at hif with hl
      · obtain ⟨u, rfl, hu⟩ := h hif
        exact ⟨w :: u, by rw [hl]; rfl, hu⟩
      · exact h' hif

theorem Takes.whole (h : Takes R r) {ls : List τ} (hread : whole r ls = some a) : R a ls := by
  rw [Reader.whole] at hread
  split at hread
  case h_1 b hr =>
    obtain rfl := Option.some.inj hread
    obtain ⟨u, hu, hb⟩ := h hr
    rwa [hu, List.append_nil]
  case h_2 => cases hread

end

/-! ### Whole sequences -/

theorem Reads.whole (h : Reads u a (fun rest => rest = []) r) : whole r u = some a := by
  have hr : r u = some (a, []) := by
    have hreads := h rfl
    rwa [List.append_nil] at hreads
  rw [Reader.whole, hr]

theorem Inverts.whole (h : Inverts r write follow) (hend : follow []) {ls : List τ} {a : α} :
    whole r ls = some a ↔ ls = write a := by
  constructor
  · intro hread
    rw [Reader.whole] at hread
    split at hread
    case h_1 b hr =>
      obtain rfl := Option.some.inj hread
      have hls : ls = write b ++ [] := h.sound hr
      rw [hls, List.append_nil]
    case h_2 => cases hread
  · rintro rfl
    have hr : r (write a) = some (a, []) := by
      have hreads := h.reads a hend
      rwa [List.append_nil] at hreads
    rw [Reader.whole, hr]

end Reader
