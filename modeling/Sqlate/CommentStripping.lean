/-
Sqlate/CommentStripping.lean

What `stripComments` leaves of the lexemes of a text.

`removal` flags the characters of a text that are outside of every match of the
regular expression and not white space at an end of what is left: those that
`stripComments` keeps (`kept_removal`).  `KeepsTokens` is what it is for: the
characters that are kept belong to the lexemes they belonged to before, and the
others belonged to none.

The expression knows neither quotes nor block comments, takes the line end of
an empty comment for the character it must have, and removes the line end that
kept the lexemes of two lines apart.  `keepsTokens_iff` says for which texts
this does no harm: every match and the white space at the ends are blanks and
line comments for the server's lexer, and no lexeme goes on behind them.
-/
import Sqlate.SqlLexer
import Sqlate.SqlUtils

namespace Sqlate.SqlUtils

open SqlLexer hiding hyphen

/-! ### The characters that are removed -/

/-- The characters outside of every match; `true` is inside of one, after its first
three characters. -/
def unmatched : Bool → QString → List (QChar × Bool)
  | _, [] => []
  | true, c :: s => (c, false) :: unmatched (!isLineEnd c) s
  | false, [a] => [(a, true)]
  | false, [a, b] => [(a, true), (b, true)]
  | false, a :: b :: c :: s =>
      if a = hyphen ∧ b = hyphen then
        (a, false) :: (b, false) :: (c, false) :: unmatched true s
      else (a, true) :: unmatched false (b :: c :: s)

/-- Without the white space at the front. -/
def trimLeft : List (QChar × Bool) → List (QChar × Bool)
  | [] => []
  | (c, false) :: t => (c, false) :: trimLeft t
  | (c, true) :: t => if c.isSpace then (c, false) :: trimLeft t else (c, true) :: t

/-- Without the white space at the end. -/
def trimRight : List (QChar × Bool) → List (QChar × Bool)
  | [] => []
  | (c, k) :: t => (c, k && !(c.isSpace && (kept t).all QChar.isSpace)) :: trimRight t

/-- What `stripComments` keeps of a text. -/
def removal (s : QString) : List (QChar × Bool) := trimRight (trimLeft (unmatched false s))

theorem map_fst_unmatched (inMatch : Bool) (s : QString) :
    (unmatched inMatch s).map Prod.fst = s := by
  fun_induction unmatched inMatch s with
  | case1 => rfl
  | case2 c s ih => rw [List.map_cons, ih]
  | case3 => rfl
  | case4 => rfl
  | case5 a b c s hab ih => rw [List.map_cons, List.map_cons, List.map_cons, ih]
  | case6 a b c s hab ih => rw [List.map_cons, ih]

theorem kept_unmatched (inMatch : Bool) (s : QString) :
    kept (unmatched inMatch s) = removeMatches inMatch s := by
  fun_induction unmatched inMatch s with
  | case1 => rw [removeMatches]; rfl
  | case2 c s ih =>
      rw [kept_cons_false, ih, removeMatches]
      cases isLineEnd c <;> rfl
  | case3 => rfl
  | case4 => rfl
  | case5 a b c s hab ih => rw [kept_cons_false, kept_cons_false, kept_cons_false, ih, removeMatches, if_pos hab]
  | case6 a b c s hab ih => rw [kept_cons_true, ih, removeMatches, if_neg hab]

theorem map_fst_trimLeft (t : List (QChar × Bool)) : (trimLeft t).map Prod.fst = t.map Prod.fst := by
  fun_induction trimLeft t with
  | case1 => rfl
  | case2 c t ih => rw [List.map_cons, ih, List.map_cons]
  | case3 c t hc ih => rw [List.map_cons, ih, List.map_cons]
  | case4 => rfl

theorem kept_trimLeft (t : List (QChar × Bool)) :
    kept (trimLeft t) = (kept t).dropWhile QChar.isSpace := by
  fun_induction trimLeft t with
  | case1 => rfl
  | case2 c t ih => exact ih
  | case3 c t hc ih => rw [kept_cons_false, ih, kept_cons_true, List.dropWhile_cons_of_pos hc]
  | case4 c t hc => rw [kept_cons_true, List.dropWhile_cons_of_neg hc]

theorem map_fst_trimRight (t : List (QChar × Bool)) :
    (trimRight t).map Prod.fst = t.map Prod.fst := by
  induction t with
  | nil => rfl
  | cons x t ih => rw [trimRight, List.map_cons, ih, List.map_cons]

/-- White space at the end, from the front of the text. -/
theorem rdropWhile_cons (f : QChar → Bool) (c : QChar) (s : QString) :
    (c :: s).rdropWhile f = if f c && s.all f then [] else c :: s.rdropWhile f := by
  have hempty : (s.reverse.dropWhile f).isEmpty = s.all f := by
    rw [Bool.eq_iff_iff, List.isEmpty_iff, List.dropWhile_eq_nil_iff, List.all_eq_true]
    simp
  rw [List.rdropWhile, List.reverse_cons, List.dropWhile_append, hempty]
  cases hs : s.all f with
  | true =>
      have hnil : s.rdropWhile f = [] := List.rdropWhile_eq_nil_iff.2 (List.all_eq_true.1 hs)
      rw [hnil]
      cases hc : f c <;> simp [hc]
  | false => simp [List.rdropWhile]

theorem kept_trimRight (t : List (QChar × Bool)) :
    kept (trimRight t) = (kept t).rdropWhile QChar.isSpace := by
  induction t with
  | nil => rfl
  | cons x t ih =>
      obtain ⟨c, k⟩ := x
      rw [trimRight]
      cases k with
      | false => exact ih
      | true =>
          rw [kept_cons_true, rdropWhile_cons, Bool.true_and]
          cases hend : c.isSpace && (kept t).all QChar.isSpace with
          | false => rw [Bool.not_false, kept_cons_true, ih]; rfl
          | true =>
              have hall := (Bool.and_eq_true_iff.1 hend).2
              rw [Bool.not_true, kept_cons_false, ih]
              exact List.rdropWhile_eq_nil_iff.2 (List.all_eq_true.1 hall)

theorem map_fst_removal (s : QString) : (removal s).map Prod.fst = s := by
  rw [removal, map_fst_trimRight, map_fst_trimLeft, map_fst_unmatched]

theorem kept_removal (s : QString) : kept (removal s) = stripComments s := by
  rw [removal, kept_trimRight, kept_trimLeft, kept_unmatched]
  rfl

/-! ### Hyphens -/

theorem hyphenFirst_rdropWhile (s : QString) :
    hyphenFirst (s.rdropWhile QChar.isSpace) = hyphenFirst s := by
  cases s with
  | nil => rfl
  | cons c s =>
      rw [rdropWhile_cons]
      split_ifs with hend
      · have hc : c ≠ hyphen := by
          rintro rfl
          exact absurd hend (by rw [show hyphen.isSpace = false by decide]; simp)
        exact (decide_eq_false hc).symm
      · rfl

theorem hyphenFirst_removeMatches {b : QChar} (hb : b ≠ hyphen) (s : QString) :
    hyphenFirst (removeMatches false (b :: s)) = false := by
  match s with
  | [] => exact decide_eq_false hb
  | [c] => exact decide_eq_false hb
  | c :: d :: s =>
      rw [removeMatches, if_neg fun h => hb h.1]
      exact decide_eq_false hb

/-- A match takes two hyphens that come together, if anything follows them. -/
theorem hyphensApart_unmatched (inMatch : Bool) (s : QString) :
    HyphensApart (unmatched inMatch s) := by
  fun_induction unmatched inMatch s with
  | case1 => trivial
  | case2 c s ih => exact ⟨fun h => Bool.noConfusion h, ih⟩
  | case3 a => exact ⟨fun _ _ => ⟨rfl, fun h => Bool.noConfusion h⟩, trivial⟩
  | case4 a b =>
      refine ⟨fun _ _ => ⟨rfl, fun h => ?_⟩, fun _ _ => ⟨rfl, fun h => Bool.noConfusion h⟩, trivial⟩
      rw [show b = hyphen from of_decide_eq_true h]
      rfl
  | case5 a b c s hab ih =>
      exact ⟨fun h => Bool.noConfusion h, fun h => Bool.noConfusion h,
        fun h => Bool.noConfusion h, ih⟩
  | case6 a b c s hab ih =>
      refine ⟨fun _ ha => ?_, ih⟩
      have hb : b ≠ hyphen := fun hb => hab ⟨ha, hb⟩
      rw [map_fst_unmatched, kept_unmatched, hyphenFirst_removeMatches hb]
      have hfirst : hyphenFirst (b :: c :: s) = false := decide_eq_false hb
      exact ⟨hfirst.symm, fun h => by rw [hfirst] at h; cases h⟩

theorem hyphensApart_trimLeft {t : List (QChar × Bool)} (ht : HyphensApart t) :
    HyphensApart (trimLeft t) := by
  fun_induction trimLeft t with
  | case1 => trivial
  | case2 c t ih => exact ⟨fun h => Bool.noConfusion h, ih ht.2⟩
  | case3 c t hc ih => exact ⟨fun h => Bool.noConfusion h, ih ht.2⟩
  | case4 => exact ht

theorem hyphensApart_trimRight {t : List (QChar × Bool)} (ht : HyphensApart t) :
    HyphensApart (trimRight t) := by
  induction t with
  | nil => trivial
  | cons x t ih =>
      obtain ⟨c, k⟩ := x
      refine ⟨fun hk hc => ?_, ih ht.2⟩
      have hk : k = true := (Bool.and_eq_true_iff.1 hk).1
      obtain ⟨hfirst, hlast⟩ := ht.1 hk hc
      rw [map_fst_trimRight, kept_trimRight, hyphenFirst_rdropWhile]
      refine ⟨hfirst, fun h => ?_⟩
      rw [hlast h]
      rfl

theorem hyphensApart_removal (s : QString) : HyphensApart (removal s) :=
  hyphensApart_trimRight (hyphensApart_trimLeft (hyphensApart_unmatched false s))

/-! ### Lexemes -/

/-- The characters that `stripComments` keeps belong to the lexemes they belonged to
in the text, and those it removes to none. -/
def KeepsTokens (s : QString) : Prop :=
  marks .blank s = spread (removal s) (marks .blank (stripComments s))

instance (s : QString) : Decidable (KeepsTokens s) := inferInstanceAs (Decidable (_ = _))

theorem KeepsTokens.tokens_eq {s : QString} (h : KeepsTokens s) :
    tokens (stripComments s) = tokens s := by
  have hlength : (marks .blank (stripComments s)).length = (kept (removal s)).length := by
    rw [length_marks, kept_removal]
  have hspread := tokens_spread hlength
  rw [map_fst_removal, kept_removal, ← h] at hspread
  exact hspread.symm

/-- A text keeps its lexemes if and only if its matches and the white space around
what is left are blanks and line comments, and no lexeme goes on behind them. -/
theorem keepsTokens_iff (s : QString) : KeepsTokens s ↔ Sound .blank .blank (removal s) := by
  have h := marks_kept_iff (.same rfl : Behind .blank .blank) (hyphensApart_removal s)
  rw [map_fst_removal, kept_removal] at h
  exact h

/-- The line behind an empty comment goes with it. -/
theorem not_keepsTokens_emptyComment :
    stripComments (latin1 "--\nSELECT 1") = []
      ∧ tokens (latin1 "--\nSELECT 1") ≠ []
      ∧ ¬ KeepsTokens (latin1 "--\nSELECT 1") := by
  decide

-- a comment behind a line, and one in a string literal
example : KeepsTokens (latin1 "SELECT 1 -- one\n;\n") := by decide

example : ¬ KeepsTokens (latin1 "SELECT '-- one'") := by decide

-- a number does not keep a dollar quote from opening, and `/*/` is open
example : ¬ KeepsTokens (latin1 "SELECT 1$$--$$") := by decide

example : ¬ KeepsTokens (latin1 "SELECT /*/--x\n*/ 1") := by decide

end Sqlate.SqlUtils
