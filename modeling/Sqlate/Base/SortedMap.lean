/-
Sqlate/Base/SortedMap.lean

Finite maps kept as a list of entries in strictly increasing key order.

The order of the entries is observable: `values` lists the values in key
order, whatever the order of the insertions was.  The position of an entry
is therefore a function of the keys alone, its *rank*:

    m.entries[i]? = some (k, v)  →  i = m.rank k        (`rank_of_getElem?`)
    (k, v) ∈ m.entries           →  m.entries[m.rank k]? = some (k, v)

and `entries_ofList_perm` says which entries a map built by a sequence of
insertions with distinct keys has.
-/
import Mathlib.Data.List.Basic
import Mathlib.Data.List.Perm.Basic
import Mathlib.Order.Lattice

/-- A finite map as its entries, strictly increasing in the key. -/
structure SortedMap (κ ν : Type*) [LinearOrder κ] where
  entries : List (κ × ν)
  sorted : entries.Pairwise fun a b => a.1 < b.1

namespace SortedMap

variable {κ ν : Type*} [LinearOrder κ]

/-- The map without entries. -/
def empty : SortedMap κ ν := ⟨[], List.Pairwise.nil⟩

/-- Insertion into a sorted entry list, replacing an entry of the same key. -/
def insertEntries (k : κ) (v : ν) : List (κ × ν) → List (κ × ν)
  | [] => [(k, v)]
  | e :: es =>
      if k < e.1 then (k, v) :: e :: es
      else if k = e.1 then (k, v) :: es
      else e :: insertEntries k v es

theorem mem_insertEntries {k : κ} {v : ν} {x : κ × ν} {es : List (κ × ν)} :
    x ∈ insertEntries k v es → x = (k, v) ∨ x ∈ es := by
  induction es with
  | nil => simp [insertEntries]
  | cons e es ih =>
      unfold insertEntries
      split_ifs with hlt heq
      · simp
      · intro hx
        rcases List.mem_cons.mp hx with rfl | hx
        · exact Or.inl rfl
        · exact Or.inr (List.mem_cons_of_mem _ hx)
      · intro hx
        rcases List.mem_cons.mp hx with rfl | hx
        · exact Or.inr List.mem_cons_self
        · exact (ih hx).imp id (List.mem_cons_of_mem _)

theorem sorted_insertEntries (k : κ) (v : ν) {es : List (κ × ν)}
    (h : es.Pairwise fun a b => a.1 < b.1) :
    (insertEntries k v es).Pairwise fun a b => a.1 < b.1 := by
  induction es with
  | nil => simp [insertEntries]
  | cons e es ih =>
      obtain ⟨he, hes⟩ := List.pairwise_cons.mp h
      unfold insertEntries
      split_ifs with hlt heq
      · refine List.pairwise_cons.mpr ⟨?_, h⟩
        intro x hx
        rcases List.mem_cons.mp hx with rfl | hx
        · exact hlt
        · exact hlt.trans (he x hx)
      · refine List.pairwise_cons.mpr ⟨?_, hes⟩
        intro x hx
        exact heq ▸ he x hx
      · refine List.pairwise_cons.mpr ⟨?_, ih hes⟩
        intro x hx
        rcases mem_insertEntries hx with rfl | hx
        · exact lt_of_le_of_ne (not_lt.mp hlt) (Ne.symm heq)
        · exact he x hx

/-- Insert an entry, replacing an entry of the same key. -/
def insert (m : SortedMap κ ν) (k : κ) (v : ν) : SortedMap κ ν :=
  ⟨insertEntries k v m.entries, sorted_insertEntries k v m.sorted⟩

/-- The value stored under a key. -/
def find? (m : SortedMap κ ν) (k : κ) : Option ν :=
  (m.entries.find? fun e => e.1 = k).map Prod.snd

/-- The values in key order. -/
def values (m : SortedMap κ ν) : List ν := m.entries.map Prod.snd

/-- Insert the entries of a list, from left to right. -/
def ofList (l : List (κ × ν)) : SortedMap κ ν :=
  l.foldl (fun m e => m.insert e.1 e.2) empty

@[simp] theorem find?_empty (k : κ) : (empty : SortedMap κ ν).find? k = none := rfl

/-! ### Lookup -/

theorem find?_insertEntries (k k' : κ) (v : ν) {es : List (κ × ν)}
    (h : es.Pairwise fun a b => a.1 < b.1) :
    (insertEntries k v es).find? (fun e => e.1 = k')
      = if k = k' then some (k, v) else es.find? fun e => e.1 = k' := by
  induction es with
  | nil => by_cases hk : k = k' <;> simp [insertEntries, hk]
  | cons e es ih =>
      obtain ⟨he, hes⟩ := List.pairwise_cons.mp h
      have ih := ih hes
      unfold insertEntries
      by_cases hk : k = k'
      · subst hk
        rw [if_pos rfl] at ih ⊢
        split_ifs with hlt heq
        · simp
        · simp
        · simp [Ne.symm heq, ih]
      · rw [if_neg hk] at ih ⊢
        split_ifs with hlt heq
        · simp [hk]
        · simp [hk, ← heq]
        · by_cases hek : e.1 = k'
          · simp [hek]
          · simp [hek, ih]

theorem find?_insert (m : SortedMap κ ν) (k k' : κ) (v : ν) :
    (m.insert k v).find? k' = if k = k' then some v else m.find? k' := by
  simp only [find?, insert, find?_insertEntries k k' v m.sorted]
  split_ifs <;> rfl

/-! ### Which entries a sequence of insertions leaves -/

theorem insertEntries_perm {k : κ} (v : ν) {es : List (κ × ν)}
    (h : ∀ e ∈ es, e.1 ≠ k) : (insertEntries k v es).Perm ((k, v) :: es) := by
  induction es with
  | nil => exact List.Perm.refl _
  | cons e es ih =>
      have hne : k ≠ e.1 := fun hk => h e List.mem_cons_self hk.symm
      unfold insertEntries
      split_ifs with hlt
      · exact List.Perm.refl _
      · have hrest := ih fun x hx => h x (List.mem_cons_of_mem _ hx)
        exact (hrest.cons e).trans (List.Perm.swap _ _ _)

theorem entries_foldl_insert_perm (l : List (κ × ν)) (m : SortedMap κ ν)
    (hl : (l.map Prod.fst).Nodup) (hm : ∀ e ∈ m.entries, e.1 ∉ l.map Prod.fst) :
    (l.foldl (fun m e => m.insert e.1 e.2) m).entries.Perm (l ++ m.entries) := by
  induction l generalizing m with
  | nil => exact List.Perm.refl _
  | cons e l ih =>
      obtain ⟨hel, hl⟩ := List.nodup_cons.mp hl
      have hfresh : ∀ x ∈ m.entries, x.1 ≠ e.1 := fun x hx hxe =>
        hm x hx (hxe ▸ List.mem_cons_self)
      have hins : (m.insert e.1 e.2).entries.Perm (e :: m.entries) :=
        insertEntries_perm e.2 hfresh
      have hrest := ih (m.insert e.1 e.2) hl fun x hx => by
        rcases List.mem_cons.mp (hins.mem_iff.mp hx) with rfl | hx
        · exact hel
        · exact fun hmem => hm x hx (List.mem_cons_of_mem _ hmem)
      calc (List.foldl (fun m e => m.insert e.1 e.2) m (e :: l)).entries
          _ |>.Perm (l ++ (m.insert e.1 e.2).entries) := hrest
          _ |>.Perm (l ++ e :: m.entries) := hins.append_left l
          _ |>.Perm (e :: l ++ m.entries) := List.perm_middle

/-- Insertions with distinct keys leave exactly the inserted entries. -/
theorem entries_ofList_perm {l : List (κ × ν)} (hl : (l.map Prod.fst).Nodup) :
    (ofList l).entries.Perm l := by
  have h := entries_foldl_insert_perm l empty hl (by simp [empty])
  rwa [show (empty : SortedMap κ ν).entries = [] from rfl, List.append_nil] at h

/-! ### Position and rank -/

/-- The number of keys below `k`. -/
def rank (m : SortedMap κ ν) (k : κ) : Nat := m.entries.countP fun e => e.1 < k

theorem countP_lt_getElem {es : List (κ × ν)} (h : es.Pairwise fun a b => a.1 < b.1)
    {i : Nat} {e : κ × ν} (he : es[i]? = some e) :
    es.countP (fun x => x.1 < e.1) = i := by
  induction es generalizing i with
  | nil => simp at he
  | cons x es ih =>
      obtain ⟨hx, hes⟩ := List.pairwise_cons.mp h
      cases i with
      | zero =>
          obtain rfl : x = e := by simpa using he
          rw [List.countP_eq_zero.mpr]
          intro y hy
          rcases List.mem_cons.mp hy with rfl | hy
          · simp
          · simpa using (hx y hy).le
      | succ i =>
          have he' : es[i]? = some e := by simpa using he
          have hlt : x.1 < e.1 := hx e (List.mem_of_getElem? he')
          simp [ih hes he', hlt]

/-- The position of an entry is the rank of its key. -/
theorem rank_of_getElem? (m : SortedMap κ ν) {i : Nat} {k : κ} {v : ν}
    (h : m.entries[i]? = some (k, v)) : m.rank k = i :=
  countP_lt_getElem m.sorted h

theorem getElem?_values_iff (m : SortedMap κ ν) {i : Nat} {v : ν} :
    m.values[i]? = some v ↔ ∃ k, (k, v) ∈ m.entries ∧ m.rank k = i := by
  constructor
  · intro h
    obtain ⟨⟨k, w⟩, he, rfl⟩ : ∃ e, m.entries[i]? = some e ∧ e.2 = v := by
      simpa [values] using h
    exact ⟨k, List.mem_of_getElem? he, rank_of_getElem? m he⟩
  · rintro ⟨k, hmem, rfl⟩
    obtain ⟨j, hj⟩ := List.getElem?_of_mem hmem
    have hrank : m.rank k = j := rank_of_getElem? m hj
    simp [values, hrank, hj]

theorem find?_eq_some_iff (m : SortedMap κ ν) {k : κ} {v : ν} :
    m.find? k = some v ↔ (k, v) ∈ m.entries := by
  constructor
  · intro h
    obtain ⟨⟨k', w⟩, he, rfl⟩ := Option.map_eq_some_iff.mp h
    have hk : k' = k := by simpa using List.find?_some he
    exact hk ▸ List.mem_of_find?_eq_some he
  · intro hmem
    have hsome : (m.entries.find? fun e => e.1 = k).isSome := by
      rw [List.find?_isSome]
      exact ⟨(k, v), hmem, by simp⟩
    obtain ⟨⟨k', w⟩, he⟩ := Option.isSome_iff_exists.mp hsome
    obtain rfl : k' = k := by simpa using List.find?_some he
    -- both entries stand at the rank of their common key
    obtain ⟨i, hi⟩ := List.getElem?_of_mem hmem
    obtain ⟨j, hj⟩ := List.getElem?_of_mem (List.mem_of_find?_eq_some he)
    have hij : i = j := (rank_of_getElem? m hi).symm.trans (rank_of_getElem? m hj)
    have hvw : some (k', v) = some (k', w) := by rw [← hi, ← hj, hij]
    simp only [Option.some.injEq, Prod.mk.injEq, true_and] at hvw
    simp [find?, he, hvw]

/-- A map of a list that is not empty has an entry. -/
theorem ofList_eq_empty_iff {l : List (κ × ν)} : ofList l = empty ↔ l = [] := by
  constructor
  · intro h
    obtain rfl | ⟨l', e, rfl⟩ := List.eq_nil_or_concat l
    · rfl
    · have hfind : (ofList (l' ++ [e])).find? e.1 = some e.2 := by
        rw [ofList, List.foldl_append, List.foldl_cons, List.foldl_nil, find?_insert, if_pos rfl]
      rw [List.concat_eq_append] at h
      rw [h, find?_empty] at hfind
      cases hfind
  · rintro rfl
    rfl

/-- The rank in a map built by insertions with distinct keys counts the
inserted keys. -/
theorem rank_ofList {l : List (κ × ν)} (hl : (l.map Prod.fst).Nodup) (k : κ) :
    (ofList l).rank k = l.countP fun e => e.1 < k :=
  (entries_ofList_perm hl).countP_eq _

/-! ### Mapping the values -/

theorem insertEntries_map {μ : Type*} (f : ν → μ) (k : κ) (v : ν) (es : List (κ × ν)) :
    (insertEntries k v es).map (fun e => (e.1, f e.2))
      = insertEntries k (f v) (es.map fun e => (e.1, f e.2)) := by
  induction es with
  | nil => rfl
  | cons e es ih =>
      simp only [insertEntries, List.map_cons]
      split_ifs <;> simp [ih]

/-- Apply a function to every value. -/
def mapValues {μ : Type*} (f : ν → μ) (m : SortedMap κ ν) : SortedMap κ μ where
  entries := m.entries.map fun e => (e.1, f e.2)
  sorted := List.pairwise_map.mpr m.sorted

theorem mapValues_insert {μ : Type*} (f : ν → μ) (m : SortedMap κ ν) (k : κ) (v : ν) :
    (m.insert k v).mapValues f = (m.mapValues f).insert k (f v) := by
  simp only [mapValues, insert, insertEntries_map]

theorem find?_mapValues {μ : Type*} (f : ν → μ) (m : SortedMap κ ν) (k : κ) :
    (m.mapValues f).find? k = (m.find? k).map f := by
  simp only [find?, mapValues, List.find?_map, Option.map_map]
  rfl

end SortedMap
