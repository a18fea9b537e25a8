/-
Sqlate/SplitQueries.lean

What `splitQueries` makes of a text.

A text is cut at every semicolon with a newline behind it, from the left.  The parts
have no separator in them, and putting them together again gives the text
(`intercalate_parts`); a statement without a separator in it is a part, whatever stands
at its ends (`parts_append`).  So statements that are put together come apart again,
and only separators are left out (`splitQueries_spec`).
-/
import Sqlate.SqlUtils

namespace Sqlate.SqlUtils

def separator : QString := latin1 ";\n"

theorem separator_eq : separator = [semicolon, newline] := rfl

/-- A separator begins here, or further on. -/
theorem separator_infix_cons {c : QChar} {s : QString} :
    separator <:+: c :: s ↔ (c = semicolon ∧ s.head? = some newline) ∨ separator <:+: s := by
  rw [List.infix_cons_iff, separator_eq, List.cons_prefix_cons, eq_comm (a := semicolon)]
  refine or_congr_left (and_congr_right fun _ => ?_)
  cases s with
  | nil => simp
  | cons d s => simp [List.cons_prefix_cons, eq_comm]

/-! ### Parts -/

theorem parts_separator (s : QString) : parts (separator ++ s) = [] :: parts s := by
  show parts (semicolon :: newline :: s) = _
  rw [parts, if_pos ⟨rfl, rfl⟩]

theorem parts_ne_nil (s : QString) : parts s ≠ [] := by
  fun_cases parts s with
  | case1 => exact List.cons_ne_nil _ _
  | case2 c => exact List.cons_ne_nil _ _
  | case3 c d s h => exact List.cons_ne_nil _ _
  | case4 c d s h hparts => exact List.cons_ne_nil _ _
  | case5 c d s h p ps hparts => exact List.cons_ne_nil _ _

/-- A character that does not begin a separator belongs to the first part. -/
theorem parts_cons {c : QChar} {s : QString} (h : ¬ (c = semicolon ∧ s.head? = some newline)) :
    ∃ p ps, parts s = p :: ps ∧ parts (c :: s) = (c :: p) :: ps := by
  obtain ⟨p, ps, hparts⟩ := List.exists_cons_of_ne_nil (parts_ne_nil s)
  refine ⟨p, ps, hparts, ?_⟩
  cases s with
  | nil =>
      obtain ⟨rfl, rfl⟩ := List.cons.inj hparts
      rfl
  | cons d s =>
      have hnot : ¬ (c = semicolon ∧ d = newline) := fun heq => h ⟨heq.1, congrArg some heq.2⟩
      rw [parts, if_neg hnot, hparts]

/-- Induction on the separators of a text. -/
theorem separator_induction {P : QString → Prop} (nil : P [])
    (separator : ∀ s, P s → P (separator ++ s))
    (char : ∀ c s, ¬ (c = semicolon ∧ s.head? = some newline) → P s → P (c :: s))
    (s : QString) : P s := by
  induction h : s.length using Nat.strong_induction_on generalizing s with
  | _ n ih =>
      cases s with
      | nil => exact nil
      | cons c s =>
          rw [List.length_cons] at h
          by_cases hc : c = semicolon ∧ s.head? = some newline
          · obtain ⟨rfl, hhead⟩ := hc
            obtain ⟨t, rfl⟩ := List.head?_eq_some_iff.mp hhead
            rw [List.length_cons] at h
            exact separator t (ih t.length (by omega) t rfl)
          · exact char c s hc (ih s.length (by omega) s rfl)

/-- The parts make up the text. -/
theorem intercalate_parts (s : QString) : separator.intercalate (parts s) = s := by
  induction s using separator_induction with
  | nil => rfl
  | separator s ih =>
      rw [parts_separator, List.intercalate_cons_of_ne_nil (parts_ne_nil s), ih, List.nil_append]
  | char c s h ih =>
      obtain ⟨p, ps, hparts, hcons⟩ := parts_cons h
      rw [hparts] at ih
      rw [hcons, List.intercalate_cons_cons_left, ih]

/-- There is no separator in a part. -/
theorem not_separator_infix_of_mem_parts {p s : QString} (hp : p ∈ parts s) :
    ¬ separator <:+: p := by
  induction s using separator_induction generalizing p with
  | nil =>
      rw [List.mem_singleton.mp hp]
      decide
  | separator s ih =>
      rw [parts_separator, List.mem_cons] at hp
      rcases hp with rfl | hp
      · decide
      · exact ih hp
  | char c s h ih =>
      obtain ⟨q, qs, hparts, hcons⟩ := parts_cons h
      rw [hparts] at ih
      rw [hcons, List.mem_cons] at hp
      rcases hp with rfl | hp
      · rw [separator_infix_cons, not_or]
        refine ⟨fun hopens => h ⟨hopens.1, ?_⟩, ih List.mem_cons_self⟩
        -- the first part is the beginning of the text
        obtain ⟨t, rfl⟩ := List.head?_eq_some_iff.mp hopens.2
        rw [← intercalate_parts s, hparts, List.intercalate_cons_cons_left, List.head?_cons]
      · exact ih (List.mem_cons_of_mem _ hp)

/-- **A statement in front of a separator is a part**, also when it ends in a semicolon. -/
theorem parts_append {p : QString} (h : ¬ separator <:+: p) (s : QString) :
    parts (p ++ separator ++ s) = p :: parts s := by
  induction p with
  | nil => exact parts_separator s
  | cons c p ih =>
      rw [separator_infix_cons, not_or] at h
      have hopens : ¬ (c = semicolon ∧ (p ++ separator ++ s).head? = some newline) := by
        rintro ⟨hc, hhead⟩
        cases p with
        | nil => exact absurd (Option.some.inj hhead) (by decide)
        | cons d p => exact h.1 ⟨hc, hhead⟩
      obtain ⟨q, qs, hparts, hcons⟩ := parts_cons hopens
      obtain ⟨rfl, rfl⟩ := List.cons.inj (hparts.symm.trans (ih h.2))
      exact hcons

theorem parts_of_not_infix {p : QString} (h : ¬ separator <:+: p) : parts p = [p] := by
  induction p with
  | nil => rfl
  | cons c p ih =>
      rw [separator_infix_cons, not_or] at h
      obtain ⟨q, qs, hparts, hcons⟩ := parts_cons h.1
      obtain ⟨rfl, rfl⟩ := List.cons.inj (hparts.symm.trans (ih h.2))
      exact hcons

/-- Putting parts together and taking them apart. -/
theorem parts_intercalate {p : QString} {ps : List QString} (h : ∀ q ∈ p :: ps, ¬ separator <:+: q) :
    parts (separator.intercalate (p :: ps)) = p :: ps := by
  induction ps generalizing p with
  | nil =>
      rw [List.intercalate_singleton]
      exact parts_of_not_infix (h p List.mem_cons_self)
  | cons q ps ih =>
      rw [List.intercalate_cons_cons, parts_append (h p List.mem_cons_self),
        ih fun r hr => h r (List.mem_cons_of_mem _ hr)]

/-! ### Pieces -/

/-- A statement that may be put together with others. -/
def IsStatement (p : QString) : Prop := p ≠ [] ∧ ¬ separator <:+: p

/-- The text has the pieces in this order, nothing but separators in front of the first
and behind the last, and one or more of them between two. -/
inductive Scattered : QString → List QString → Prop
  | nil : Scattered [] []
  | separator {text : QString} {pieces : List QString} (rest : Scattered text pieces) :
      Scattered (separator ++ text) pieces
  | last {p : QString} (statement : IsStatement p) : Scattered p [p]
  | piece {p text : QString} {pieces : List QString} (statement : IsStatement p)
      (rest : Scattered text pieces) : Scattered (p ++ SqlUtils.separator ++ text) (p :: pieces)

theorem scattered_intercalate {ps : List QString} (h : ∀ p ∈ ps, ¬ separator <:+: p) :
    Scattered (separator.intercalate ps) (ps.filter (· ≠ [])) := by
  induction ps with
  | nil => exact .nil
  | cons p ps ih =>
      have hp := h p List.mem_cons_self
      have hrest := ih fun q hq => h q (List.mem_cons_of_mem _ hq)
      by_cases hempty : p = []
      · -- an empty part leaves a separator
        subst hempty
        rw [List.filter_cons_of_neg (by simp)]
        cases ps with
        | nil => exact .nil
        | cons q ps =>
            rw [List.intercalate_cons_cons, List.nil_append]
            exact .separator hrest
      · rw [List.filter_cons_of_pos (by simpa using hempty)]
        cases ps with
        | nil =>
            rw [List.intercalate_singleton]
            exact .last ⟨hempty, hp⟩
        | cons q ps =>
            rw [List.intercalate_cons_cons]
            exact .piece ⟨hempty, hp⟩ hrest

theorem splitQueries_scattered (text : QString) : Scattered text (splitQueries text) := by
  have h := scattered_intercalate fun p => not_separator_infix_of_mem_parts (p := p) (s := text)
  rwa [intercalate_parts] at h

/-- Statements put together come apart again. -/
theorem splitQueries_intercalate {statements : List QString}
    (h : ∀ p ∈ statements, IsStatement p) :
    splitQueries (separator.intercalate statements) = statements := by
  cases statements with
  | nil => rfl
  | cons p ps =>
      rw [splitQueries, parts_intercalate fun q hq => (h q hq).2, List.filter_eq_self]
      exact fun q hq => decide_eq_true (h q hq).1

/-- **Splitting undoes joining**, and from any text it takes nothing but separators. -/
theorem splitQueries_spec :
    (∀ statements : List QString, (∀ p ∈ statements, IsStatement p) →
      splitQueries (separator.intercalate statements) = statements) ∧
    ∀ text, Scattered text (splitQueries text) ∧ ∀ p ∈ splitQueries text, IsStatement p := by
  refine ⟨fun _ => splitQueries_intercalate, fun text => ⟨splitQueries_scattered text, ?_⟩⟩
  intro p hp
  rw [splitQueries, List.mem_filter, decide_eq_true_eq] at hp
  exact ⟨hp.2, not_separator_infix_of_mem_parts hp.1⟩

/-- A statement that ends in a semicolon, and one that begins with a newline. -/
theorem splitQueries_spec_edges :
    splitQueries (latin1 "a;;\n\nb;\n;") = [latin1 "a;", latin1 "\nb", latin1 ";"] := by
  refine splitQueries_spec.1 [latin1 "a;", latin1 "\nb", latin1 ";"] fun p hp => ?_
  simp only [List.mem_cons, List.not_mem_nil, or_false] at hp
  rcases hp with rfl | rfl | rfl
  · exact ⟨by decide, by decide⟩
  · exact ⟨by decide, by decide⟩
  · exact ⟨by decide, by decide⟩

end Sqlate.SqlUtils
