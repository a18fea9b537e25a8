/-
Sqlate/SqlLexemes.lean

The lexemes of a text that is put together from pieces.

A piece is closed if the lexer is outside of quotes and comments behind it, as
behind every name and every expression, and fresh if nothing it left behind
matters to what follows, as behind a blank or a parenthesis.  The lexemes of
two pieces are those of the first and then those of the second, if the first
is fresh (`lexemes_append_of_fresh`), or if it is closed and the second begins
with a delimiter (`lexemes_append_of_delimits`).
-/
import Sqlate.SqlLexer

namespace Sqlate.SqlLexer

/-! ### Lexemes -/

/-- The characters that go on with a lexeme in front, and the lexemes. -/
def group : List (QChar × Option Mark) → QString × List QString
  | [] => ([], [])
  | (c, some .first) :: t => ([], (c :: (group t).1) :: (group t).2)
  | (c, some _) :: t => (c :: (group t).1, (group t).2)
  | (_, none) :: t => group t

def lexemes (s : QString) : List QString := (group (s.zip (marks .blank s))).2

/-- The state behind a text. -/
def run : LexState → QString → LexState
  | q, [] => q
  | q, c :: s => run (step q c (hyphenFirst s)).2 s

def Closed (s : QString) : Prop := (run .blank s).isCode

instance (s : QString) : Decidable (Closed s) := inferInstanceAs (Decidable (_ = true))

def comma : QChar := QChar.ofChar ','

def closingParenthesis : QChar := QChar.ofChar ')'

def space : QChar := QChar.ofChar ' '

/-- A comma, a parenthesis that closes, the end of the text, or one blank before
something that neither goes on with a string literal nor opens a comment. -/
def delimits : QString → Bool
  | [] => true
  | [c] => c = comma || c = closingParenthesis
  | c :: d :: _ =>
      c = comma || c = closingParenthesis
        || c = space && !isBlank d && !(d = quote) && !(d = hyphen)

/-- A text behind which the lexer is where it began; no comment opens with its last
character. -/
def fresh (s : QString) : Bool := run .blank s = .blank && s.getLast? ≠ some hyphen

theorem group_append (a : List (QChar × Option Mark)) {b : List (QChar × Option Mark)}
    (hb : (group b).1 = []) :
    group (a ++ b) = ((group a).1, (group a).2 ++ (group b).2) := by
  induction a with
  | nil => exact Prod.ext hb rfl
  | cons x a ih =>
      obtain ⟨c, m⟩ := x
      rcases m with - | ⟨- | - | -⟩ <;> simp [group, ih]

/-! ### Two pieces -/

/-- Two texts that do not come together at two hyphens. -/
def Meet (s t : QString) : Prop := s.getLast? ≠ some hyphen ∨ hyphenFirst t = false

theorem Meet.tail {c : QChar} {s t : QString} (h : Meet (c :: s) t) : Meet s t := by
  cases s with
  | nil => exact .inl (by simp)
  | cons d s => simpa [Meet, List.getLast?_cons_cons] using h

/-- The next character matters to a hyphen only. -/
theorem step_append {c : QChar} {s t : QString} (h : Meet (c :: s) t) (q : LexState) :
    step q c (hyphenFirst (s ++ t)) = step q c (hyphenFirst s) := by
  cases s with
  | cons d s => rfl
  | nil =>
      by_cases hc : c = hyphen
      · have ht : hyphenFirst t = false := h.resolve_left fun hne => hne (congrArg some hc)
        exact congrArg (step q c) ht
      · exact step_of_ne_hyphen hc _ _ _

theorem marks_append {s t : QString} (h : Meet s t) (q : LexState) :
    marks q (s ++ t) = marks q s ++ marks (run q s) t := by
  induction s generalizing q with
  | nil => rfl
  | cons c s ih =>
      show (step q c (hyphenFirst (s ++ t))).1
        :: marks (step q c (hyphenFirst (s ++ t))).2 (s ++ t) = _
      rw [step_append h, ih h.tail]
      rfl

theorem run_append {s t : QString} (h : Meet s t) (q : LexState) :
    run q (s ++ t) = run (run q s) t := by
  induction s generalizing q with
  | nil => rfl
  | cons c s ih =>
      show run (step q c (hyphenFirst (s ++ t))).2 (s ++ t) = _
      rw [step_append h, ih h.tail]
      rfl

theorem step_of_continues_eq_none {q : LexState} (hq : q.isCode) {c : QChar} {b : Bool}
    (hc : ¬ isBlank c ∧ ¬ (c = hyphen ∧ b)) (hnone : q.continues c = none) :
    step q c b = (some .first, starts c) := by
  rw [step_lexeme (LexState.isCode_iff.1 hq).2 (.inr hc), lexeme, hnone]

/-- Where nothing goes on, the next lexeme is a new one. -/
theorem group_marks_fst {q : LexState} (hq : q = .blank ∨ q = .comment none) (s : QString) :
    (group (s.zip (marks q s))).1 = [] := by
  induction s generalizing q with
  | nil => rfl
  | cons c s ih =>
      show (group ((c, (step q c (hyphenFirst s)).1)
        :: s.zip (marks (step q c (hyphenFirst s)).2 s))).1 = []
      rcases hq with rfl | rfl
      · by_cases hopens : c = hyphen ∧ hyphenFirst s
        · rw [hopens.1, hopens.2, step_opens rfl]
          exact ih (.inr rfl)
        · by_cases hblank : isBlank c
          · rw [step_blank rfl hblank]
            exact ih (.inl rfl)
          · rw [step_of_continues_eq_none rfl ⟨hblank, hopens⟩ rfl]
            rfl
      · show (group ((c, none) :: s.zip (marks (if isNewline c then _ else _) s))).1 = []
        cases isNewline c with
        | true => exact ih (.inl rfl)
        | false => exact ih (.inr rfl)

theorem continues_of_delimiter {q : LexState} (hq : q.isCode) {c : QChar}
    (hc : c = comma ∨ c = closingParenthesis) : q.continues c = none := by
  have hword : isWordChar c = false := by rcases hc with rfl | rfl <;> decide
  have hdigit : isDigit c = false := by rcases hc with rfl | rfl <;> decide
  have hletter : oneOf "eE" c = false := by rcases hc with rfl | rfl <;> decide
  have hoperator : isOperatorChar c = false := by rcases hc with rfl | rfl <;> decide
  have hsign : oneOf "+-" c = false := by rcases hc with rfl | rfl <;> decide
  have hperiod : c ≠ period := by rcases hc with rfl | rfl <;> decide
  have hdollar : c ≠ dollarSign := by rcases hc with rfl | rfl <;> decide
  have hquote : c ≠ quote := by rcases hc with rfl | rfl <;> decide
  have hdouble : c ≠ doubleQuote := by rcases hc with rfl | rfl <;> decide
  have hand : c ≠ QChar.ofChar '&' := by rcases hc with rfl | rfl <;> decide
  have hstar : c ≠ star := by rcases hc with rfl | rfl <;> decide
  cases q with
  | quoted k => cases hq
  | escaped => cases hq
  | dollar tag seen => cases hq
  | block depth last => cases hq
  | quoteSeen k =>
      have hk : c ≠ k.delimiter := by
        cases k with
        | string _ => exact hquote
        | identifier => exact hdouble
      exact if_neg hk
  | number part =>
      cases part <;> simp [LexState.continues, LexState.continuesDigits, LexState.continuesName,
        LexState.continuesOperator, hword, hdigit, hoperator, hsign, hperiod, hletter, hdollar, hquote, hand]
  | _ => simp [LexState.continues, LexState.continuesName, LexState.continuesOperator, hword, hdigit,
      hoperator, hperiod, hdollar, hquote, hdouble, hand, hstar]

/-- In front of a delimiter, it does not matter which text is closed. -/
theorem marks_of_delimits {q : LexState} (hq : q.isCode) {t : QString} (ht : delimits t) :
    marks q t = marks .blank t ∧ ((run .blank t).isCode → (run q t).isCode) := by
  have hdelimiter : ∀ {c : QChar} (t : QString), (c = comma ∨ c = closingParenthesis) →
      marks q (c :: t) = marks .blank (c :: t)
        ∧ ((run .blank (c :: t)).isCode → (run q (c :: t)).isCode) := by
    intro c t hc
    have hlexeme : ¬ isBlank c ∧ ¬ (c = hyphen ∧ hyphenFirst t) := by
      rcases hc with rfl | rfl <;> exact ⟨by decide, fun h => absurd h.1 (by decide)⟩
    rw [marks, marks, run, run, step_of_continues_eq_none hq hlexeme (continues_of_delimiter hq hc),
      step_of_continues_eq_none rfl hlexeme (continues_of_delimiter rfl hc)]
    exact ⟨rfl, id⟩
  rcases t with _ | ⟨c, _ | ⟨d, t⟩⟩
  · exact ⟨rfl, fun _ => hq⟩
  · exact hdelimiter [] (by simpa [delimits] using ht)
  · by_cases hc : c = comma ∨ c = closingParenthesis
    · exact hdelimiter (d :: t) hc
    · -- a blank, and then a lexeme of its own
      obtain ⟨⟨⟨rfl, hblank⟩, hquote⟩, hhyphen⟩ :
          ((c = space ∧ isBlank d = false) ∧ d ≠ quote) ∧ d ≠ hyphen := by
        rw [not_or] at hc
        simpa [delimits, hc.1, hc.2] using ht
      have hlexeme : ¬ isBlank d ∧ ¬ (d = hyphen ∧ hyphenFirst t) :=
        ⟨by rw [hblank]; exact Bool.false_ne_true, fun h => hhyphen h.1⟩
      have hrest : (q.rest false).continues d = none := by
        unfold LexState.rest
        cases q.back with
        | none => rfl
        | some escapes => simp [LexState.continues, hquote]
      have hstep : step (q.rest false) d (hyphenFirst t) = step .blank d (hyphenFirst t) := by
        rw [step_of_continues_eq_none (q.rest_isCode false) hlexeme hrest,
          step_of_continues_eq_none rfl hlexeme rfl]
      have hspace : step q space (hyphenFirst (d :: t)) = (none, q.rest false) :=
        step_blank hq (by decide) _
      simp only [marks, run, hspace, hstep]
      exact ⟨rfl, id⟩

theorem hyphenFirst_of_delimits {t : QString} (ht : delimits t) : hyphenFirst t = false := by
  rcases t with _ | ⟨c, _ | ⟨d, t⟩⟩
  · rfl
  · have hc : c = comma ∨ c = closingParenthesis := by simpa [delimits] using ht
    rcases hc with rfl | rfl <;> decide
  · have hc : (c = comma ∨ c = closingParenthesis) ∨ c = space := by
      simp only [delimits, Bool.or_eq_true, Bool.and_eq_true, decide_eq_true_eq] at ht
      exact ht.imp_right fun h => h.1.1.1
    rcases hc with (rfl | rfl) | rfl <;> rfl

/-- The lexemes of two pieces, if the second one begins anew. -/
theorem lexemes_append {s t : QString} (hmeet : Meet s t)
    (hmarks : marks (run .blank s) t = marks .blank t) :
    lexemes (s ++ t) = lexemes s ++ lexemes t := by
  have hzip : (s ++ t).zip (marks .blank (s ++ t)) =
      s.zip (marks .blank s) ++ t.zip (marks .blank t) := by
    rw [marks_append hmeet, hmarks, List.zip_append (length_marks _ _).symm]
  rw [lexemes, hzip, group_append _ (group_marks_fst (.inl rfl) t)]
  rfl

theorem lexemes_append_of_fresh {s : QString} (hs : fresh s) (t : QString) :
    lexemes (s ++ t) = lexemes s ++ lexemes t := by
  obtain ⟨hrun, hlast⟩ : run .blank s = .blank ∧ s.getLast? ≠ some hyphen := by
    simpa [fresh] using hs
  exact lexemes_append (.inl hlast) (by rw [hrun])

theorem lexemes_append_of_delimits {s t : QString} (hs : Closed s) (ht : delimits t) :
    lexemes (s ++ t) = lexemes s ++ lexemes t :=
  lexemes_append (.inr (hyphenFirst_of_delimits ht)) (marks_of_delimits hs ht).1

/-! ### Closed texts -/

/-- A closed text with its lexemes. -/
structure Yields (s : QString) (ls : List QString) : Prop where
  closed : Closed s
  lexemes : lexemes s = ls

theorem Closed.yields {s : QString} (h : Closed s) : Yields s (SqlLexer.lexemes s) := ⟨h, rfl⟩

theorem Yields.nil : Yields [] [] := ⟨rfl, rfl⟩

theorem Yields.fresh_append {s t : QString} {ls : List QString} (hs : fresh s) (ht : Yields t ls) :
    Yields (s ++ t) (SqlLexer.lexemes s ++ ls) := by
  constructor
  · obtain ⟨hrun, hlast⟩ : run .blank s = .blank ∧ s.getLast? ≠ some hyphen := by
      simpa [fresh] using hs
    show (run .blank (s ++ t)).isCode
    rw [run_append (.inl hlast), hrun]
    exact ht.closed
  · rw [lexemes_append_of_fresh hs, ht.lexemes]

theorem Yields.append {s t : QString} {ls ms : List QString} (hs : Yields s ls)
    (hdelimits : delimits t) (ht : Yields t ms) : Yields (s ++ t) (ls ++ ms) := by
  constructor
  · show (run .blank (s ++ t)).isCode
    rw [run_append (.inr (hyphenFirst_of_delimits hdelimits))]
    exact (marks_of_delimits hs.closed hdelimits).2 ht.closed
  · rw [lexemes_append_of_delimits hs.closed hdelimits, hs.lexemes, ht.lexemes]

/-- A text that may follow a closed one. -/
structure Follows (s : QString) (ls : List QString) : Prop where
  delimits : delimits s
  yields : Yields s ls

theorem Follows.nil : Follows [] [] := ⟨rfl, .nil⟩

theorem Yields.follows {s t : QString} {ls ms : List QString} (hs : Yields s ls)
    (ht : Follows t ms) : Yields (s ++ t) (ls ++ ms) :=
  hs.append ht.delimits ht.yields

/-- A piece that is closed already, or is nothing. -/
theorem Follows.ite {c : Prop} [Decidable c] {s t : QString} {ls ms : List QString}
    (h : c → Follows (s ++ t) (ls ++ ms)) (ht : Follows t ms) :
    Follows ((if c then s else []) ++ t) ((if c then ls else []) ++ ms) := by
  by_cases hc : c
  · rw [if_pos hc, if_pos hc]
    exact h hc
  · rw [if_neg hc, if_neg hc]
    exact ht

/-- A closed piece that may follow another one. -/
theorem Follows.piece {p t : QString} {ws ls : List QString} (hp : Yields p ws)
    (hdelimits : ∀ t, SqlLexer.delimits (p ++ t)) (ht : Follows t ls) :
    Follows (p ++ t) (ws ++ ls) :=
  ⟨hdelimits t, hp.follows ht⟩

/-- Pieces with separators between them. -/
theorem yields_intercalate {sep : QString} (hfresh : fresh sep)
    (hdelimits : ∀ t, delimits (sep ++ t)) {ss : List QString} {lss : List (List QString)}
    (h : List.Forall₂ Yields ss lss) :
    Yields (sep.intercalate ss) ((lexemes sep).intercalate lss) := by
  induction h with
  | nil => exact .nil
  | @cons s ls ss lss hs hss ih =>
      cases hss with
      | nil =>
          rw [List.intercalate_singleton, List.intercalate_singleton]
          exact hs
      | @cons s' ls' ss lss hs' hss =>
          rw [List.intercalate_cons_cons, List.intercalate_cons_cons, List.append_assoc,
            List.append_assoc]
          exact hs.append (hdelimits _) (ih.fresh_append hfresh)

/-- A parenthesis that closes, on the next line. -/
theorem Yields.closing_line {s : QString} {ls : List QString} (hs : Yields s ls) :
    Yields (s ++ latin1 "\n)") (ls ++ [latin1 ")"]) := by
  have hnewline : ∀ q : LexState, q.isCode →
      step q (QChar.ofChar '\n') false = (none, q.rest true) := fun q hq => step_blank hq (by decide) _
  have hclosing : ∀ q : LexState, q.isCode →
      step q closingParenthesis false = (some .first, .blank) := fun q hq =>
    step_of_continues_eq_none hq ⟨by decide, by decide⟩ (continues_of_delimiter hq (.inr rfl))
  have hrest : (run .blank s).isCode := hs.closed
  have hmarks : ∀ q : LexState, q.isCode →
      marks q (latin1 "\n)") = [none, some .first] ∧ run q (latin1 "\n)") = .blank := by
    intro q hq
    show [(step q (QChar.ofChar '\n') false).1,
        (step (step q (QChar.ofChar '\n') false).2 closingParenthesis false).1] = _
      ∧ (step (step q (QChar.ofChar '\n') false).2 closingParenthesis false).2 = _
    rw [hnewline q hq, hclosing _ (q.rest_isCode true)]
    exact ⟨rfl, rfl⟩
  have hmeet : Meet s (latin1 "\n)") := .inr rfl
  constructor
  · show (run .blank (s ++ latin1 "\n)")).isCode
    rw [run_append hmeet, (hmarks _ hrest).2]
    rfl
  · rw [lexemes_append hmeet (by rw [(hmarks _ hrest).1]; rfl), hs.lexemes]
    rfl

/-! ### Quoted identifiers, numbers and names -/

theorem group_next (c : QChar) (t : List (QChar × Option Mark)) :
    group ((c, some .next) :: t) = (c :: (group t).1, (group t).2) := rfl

theorem step_quoted {c : QChar} (hc : doubleQuote ≠ c) (b : Bool) :
    step (.quoted .identifier) c b = (some .next, .quoted .identifier) := by
  rw [step_lexeme rfl (.inl rfl), lexeme]
  simp [LexState.continues, Quoting.delimiter, Ne.symm hc, LexState.newlineSeen]

/-- Characters other than a quote are inside of a quoted identifier. -/
theorem group_quoted {u : QString} (hu : doubleQuote ∉ u) (s : QString) :
    group ((u ++ s).zip (marks (.quoted .identifier) (u ++ s))) =
      (u ++ (group (s.zip (marks (.quoted .identifier) s))).1,
        (group (s.zip (marks (.quoted .identifier) s))).2) := by
  induction u with
  | nil => rfl
  | cons c u ih =>
      rw [List.mem_cons, not_or] at hu
      rw [List.cons_append, marks, step_quoted hu.1, List.zip_cons_cons, group_next, ih hu.2]
      rfl

theorem run_quoted {u : QString} (hu : doubleQuote ∉ u) (s : QString) :
    run (.quoted .identifier) (u ++ s) = run (.quoted .identifier) s := by
  induction u with
  | nil => rfl
  | cons c u ih =>
      rw [List.mem_cons, not_or] at hu
      rw [List.cons_append, run, step_quoted hu.1, ih hu.2]

theorem step_doubleQuote (b : Bool) :
    step .blank doubleQuote b = (some .first, .quoted .identifier) :=
  step_of_continues_eq_none rfl ⟨by decide, fun h => absurd h.1 (by decide)⟩ rfl

/-- Whatever follows, a quoted identifier begins with the characters up to its next
quote. -/
theorem lexemes_quoted {u : QString} (hu : doubleQuote ∉ u) (s : QString) :
    lexemes (doubleQuote :: (u ++ s)) =
      (doubleQuote :: (u ++ (group (s.zip (marks (.quoted .identifier) s))).1))
        :: (group (s.zip (marks (.quoted .identifier) s))).2 := by
  rw [lexemes, marks, step_doubleQuote, List.zip_cons_cons, group, group_quoted hu]

theorem yields_quoted {u : QString} (hu : doubleQuote ∉ u) :
    Yields (doubleQuote :: (u ++ [doubleQuote])) [doubleQuote :: (u ++ [doubleQuote])] := by
  constructor
  · show (run .blank (doubleQuote :: (u ++ [doubleQuote]))).isCode
    rw [run, step_doubleQuote, run_quoted hu]
    decide
  · rw [lexemes_quoted hu]
    rfl

theorem lexeme_of_isWordChar {c : QChar} (hc : isWordChar c) (b : Bool) :
    ¬ isBlank c ∧ ¬ (c = hyphen ∧ b) := by
  constructor
  · intro hblank
    have hval : c.val = 0x20 ∨ c.val = 0x09 ∨ c.val = 0x0C ∨ c.val = 0x0A ∨ c.val = 0x0D := by
      simp only [isBlank, isNewline, Bool.or_eq_true, decide_eq_true_eq] at hblank
      rcases hblank with ((h | h) | h) | (rfl | rfl)
      · exact .inl h
      · exact .inr (.inl h)
      · exact .inr (.inr (.inl h))
      · exact .inr (.inr (.inr (.inl rfl)))
      · exact .inr (.inr (.inr (.inr rfl)))
    have hdollar : c ≠ dollarSign := by
      rintro rfl
      exact absurd hval (by decide)
    simp only [isWordChar, isDigit, hdollar, Bool.or_eq_true, Bool.and_eq_true, decide_eq_true_eq,
      or_false] at hc
    omega
  · rintro ⟨rfl, -⟩
    exact absurd hc (by decide)

theorem isWordChar_of_isDigit {c : QChar} (hc : isDigit c) : isWordChar c := by
  simp [isWordChar, hc]

/-- Digits go on with a number. -/
theorem yields_digits {s : QString} (hs : ∀ c ∈ s, isDigit c) :
    group (s.zip (marks (.number .whole) s)) = (s, [])
      ∧ (run (.number .whole) s).isCode := by
  induction s with
  | nil => exact ⟨rfl, rfl⟩
  | cons c s ih =>
      rw [List.forall_mem_cons] at hs
      have hstep : step (.number .whole) c (hyphenFirst s) = (some .next, .number .whole) := by
        rw [step_lexeme rfl (.inr (lexeme_of_isWordChar (isWordChar_of_isDigit hs.1) _)), lexeme]
        simp [LexState.continues, LexState.continuesDigits, hs.1, LexState.newlineSeen]
      rw [marks, run, hstep, List.zip_cons_cons, group_next]
      have h := ih hs.2
      exact ⟨by rw [h.1], h.2⟩

theorem yields_number (n : Nat) : Yields (QString.number n) [QString.number n] := by
  have hdigits : ∀ c ∈ QString.number n, isDigit c := by
    intro c hc
    have hval := QString.val_of_mem_number hc
    simp only [isDigit, Bool.and_eq_true, decide_eq_true_eq]
    omega
  obtain ⟨c, s, hs⟩ := List.exists_cons_of_ne_nil (QString.number_ne_nil n)
  rw [hs] at hdigits ⊢
  rw [List.forall_mem_cons] at hdigits
  have hstep : step .blank c (hyphenFirst s) = (some .first, .number .whole) := by
    have hperiod : c ≠ period := by
      rintro rfl
      exact absurd hdigits.1 (by decide)
    have hdollar : c ≠ dollarSign := by
      rintro rfl
      exact absurd hdigits.1 (by decide)
    have hword := isWordChar_of_isDigit hdigits.1
    rw [step_of_continues_eq_none rfl (lexeme_of_isWordChar hword _) rfl, starts, if_neg hperiod,
      if_pos hword, LexState.word, if_neg hdollar, if_pos hdigits.1]
  have h := yields_digits hdigits.2
  constructor
  · show (run .blank (c :: s)).isCode
    rw [run, hstep]
    exact h.2
  · rw [lexemes, marks, hstep, List.zip_cons_cons, group, h.1]

theorem ne_period_of_isWordChar {c : QChar} (hc : isWordChar c) : c ≠ period := by
  rintro rfl
  exact absurd hc (by decide)

/-- Letters, digits and dollar signs go on with a name. -/
theorem group_name {s : QString} (hs : ∀ c ∈ s, isWordChar c) (lead : Option QChar) :
    group (s.zip (marks (.name lead none) s)) = (s, []) ∧ (run (.name lead none) s).isCode := by
  induction s generalizing lead with
  | nil => exact ⟨rfl, rfl⟩
  | cons c s ih =>
      rw [List.forall_mem_cons] at hs
      have hstep : step (.name lead none) c (hyphenFirst s) = (some .next, .name none none) := by
        rw [step_lexeme rfl (.inr (lexeme_of_isWordChar hs.1 _)), lexeme]
        by_cases hdollar : c = dollarSign
        · rw [hdollar]
          rfl
        · simp [LexState.continues, LexState.continuesName, hdollar, hs.1, LexState.newlineSeen]
      rw [marks, run, hstep, List.zip_cons_cons, group_next]
      have h := ih hs.2 none
      exact ⟨by rw [h.1], h.2⟩

theorem yields_name {c : QChar} {s : QString} (hs : ∀ d ∈ c :: s, isWordChar d)
    (hdigit : isDigit c = false) (hdollar : c ≠ dollarSign) : Yields (c :: s) [c :: s] := by
  rw [List.forall_mem_cons] at hs
  have hstep : step .blank c (hyphenFirst s) = (some .first, .name (some c) none) := by
    rw [step_of_continues_eq_none rfl (lexeme_of_isWordChar hs.1 _) rfl, starts,
      if_neg (ne_period_of_isWordChar hs.1), if_pos hs.1, LexState.word, if_neg hdollar, hdigit,
      if_neg Bool.false_ne_true]
  have h := group_name hs.2 (some c)
  constructor
  · show (run .blank (c :: s)).isCode
    rw [run, hstep]
    exact h.2
  · rw [lexemes, marks, hstep, List.zip_cons_cons, group, h.1]

end Sqlate.SqlLexer
