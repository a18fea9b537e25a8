/-
Sqlate/SqlLexer.lean

The lexical structure of PostgreSQL, one character after the other.

`marks` says of every character of a text what it is to the lexer: the first or
a further character of a lexeme, or nothing, when it is a blank or belongs to a
line comment.  Names, numbers and parameters are lexemes, and so are runs of
operator characters, quoted texts with the letters in front of them, block
comments and all other single characters.  A number or a parameter with letters
at its end is one lexeme (PostgreSQL refuses it, or takes the letters for a
name), and so is an operator with a sign at its end; what they are divided into
depends on nothing else.  A string literal may go on behind a line end; its
quote has a mark of its own there.

Some characters may be taken out of a text.  `marks_kept_iff` says when the
others keep their marks: nothing but blanks and line comments is taken out, and
no two lexemes come together (`Sound`).
-/
import Sqlate.Qt.QString

namespace Sqlate.SqlLexer

/-! ### Characters -/

def quote : QChar := QChar.ofChar '\''

def doubleQuote : QChar := QChar.ofChar '"'

def hyphen : QChar := QChar.ofChar '-'

def period : QChar := QChar.ofChar '.'

def dollarSign : QChar := QChar.ofChar '$'

def slash : QChar := QChar.ofChar '/'

def star : QChar := QChar.ofChar '*'

def isNewline (c : QChar) : Bool := c = QChar.ofChar '\n' || c = QChar.ofChar '\r'

/-- Space, tab, line end and form feed. -/
def isBlank (c : QChar) : Bool := c.val = 0x20 || c.val = 0x09 || c.val = 0x0C || isNewline c

def isDigit (c : QChar) : Bool := 0x30 ≤ c.val && c.val ≤ 0x39

/-- Letters, digits, `_`, `$` and everything beyond ASCII. -/
def isWordChar (c : QChar) : Bool :=
  isDigit c || (0x41 ≤ c.val && c.val ≤ 0x5A) || (0x61 ≤ c.val && c.val ≤ 0x7A) || c.val = 0x5F
    || c = dollarSign || 0x80 ≤ c.val

def isOperatorChar (c : QChar) : Bool := (latin1 "~!@#^&|?+-*/%<>=:").contains c || c.val = 0x60

def oneOf (s : String) (c : QChar) : Bool := (latin1 s).contains c

/-! ### States -/

inductive Quoting
  /-- With or without escapes by a backslash. -/
  | string (escapes : Bool)
  | identifier
  deriving DecidableEq, Repr

def Quoting.delimiter : Quoting → QChar
  | string _ => quote
  | identifier => doubleQuote

/-- What a number has had so far. -/
inductive NumberPart
  /-- Digits. -/
  | whole
  /-- Digits and a period. -/
  | point
  | fraction
  /-- An `e`, which may as well be a name behind the number. -/
  | letter
  /-- The sign of an exponent, which may as well be an operator. -/
  | sign
  | exponent
  deriving DecidableEq, Repr

/-- Where the lexer is. -/
inductive LexState
  /-- Nothing goes on. -/
  | blank
  /-- A name: its first character, as long as there is no second one, and what
  may be the tag of a dollar-quoted text. -/
  | name (lead : Option QChar) (tag : Option QString)
  /-- A dollar sign and digits. -/
  | parameter
  | number (part : NumberPart)
  /-- A period, or two of them. -/
  | dot (double : Bool)
  | operator (afterSlash : Bool)
  /-- `U&`. -/
  | unicode
  | quoted (k : Quoting)
  /-- Behind a backslash in a string with escapes. -/
  | escaped
  /-- A quote that ends the text, if it is not doubled. -/
  | quoteSeen (k : Quoting)
  /-- Behind a string literal, with a line end since then or not. -/
  | closed (escapes newline : Bool)
  /-- A dollar-quoted text, with what may be its closing tag so far. -/
  | dollar (tag : QString) (seen : Option QString)
  /-- A block comment, with the number of those around it. -/
  | block (depth : Nat) (last : QChar)
  /-- A line comment, behind a string literal or not. -/
  | comment (back : Option Bool)
  deriving DecidableEq, Repr

namespace LexState

/-- In the middle of a lexeme that anything continues. -/
def inside : LexState → Bool
  | quoted _ | escaped | dollar _ _ | block _ _ => true
  | _ => false

def isComment : LexState → Bool
  | comment _ => true
  | _ => false

def isCode (q : LexState) : Bool := !q.inside && !q.isComment

/-- The string literal in front, if it may go on. -/
def back : LexState → Option Bool
  | quoteSeen (.string escapes) | closed escapes _ => some escapes
  | _ => none

def newlineSeen : LexState → Bool
  | closed _ newline => newline
  | _ => false

/-- After a blank. -/
def rest (q : LexState) (newline : Bool) : LexState :=
  match q.back with
  | none => blank
  | some escapes => closed escapes (q.newlineSeen || newline)

/-- The first character of a name or a number. -/
def word (c : QChar) : LexState :=
  if c = dollarSign then name none (some [])
  else if isDigit c then number .whole
  else name (some c) none

/-- Behind the characters of a name. -/
def continuesName (lead : Option QChar) (tag : Option QString) (c : QChar) : Option LexState :=
  if c = dollarSign then
    some (match tag with
      | some tag => dollar tag none
      | none => name none none)
  else if isWordChar c then
    -- a dollar sign alone is no name yet
    some (if tag = some [] then if isDigit c then parameter else name (some c) (some [c])
      else name none (tag.map (· ++ [c])))
  else if c = quote && lead.any (oneOf "eE") then some (quoted (.string true))
  else if c = quote && lead.any (oneOf "bBnNxX") then some (quoted (.string false))
  else if c = QChar.ofChar '&' && lead.any (oneOf "uU") then some unicode
  else none

def continuesOperator (afterSlash : Bool) (c : QChar) : Option LexState :=
  -- the star counts for the opening only
  if afterSlash && c = star then some (block 0 dollarSign)
  else if isOperatorChar c then some (operator (c = slash))
  else none

/-- Behind the digits of a number: a dollar sign does not go on with them, and
letters may be a name. -/
def continuesDigits (part : NumberPart) (c : QChar) : Option LexState :=
  if isDigit c then some (number (if part = .point then .fraction else part))
  else if c = period && part = .whole then some (number .point)
  else if c = period && part = .point then some (dot true)
  else if oneOf "eE" c && part ≠ .exponent then some (number .letter)
  else if isWordChar c && c ≠ dollarSign then some (name (some c) none)
  else none

/-- The state after a character that goes on with the lexeme. -/
def continues : LexState → QChar → Option LexState
  | blank, _ => none
  | name lead tag, c => continuesName lead tag c
  | parameter, c =>
      if isDigit c then some parameter
      else if isWordChar c && c ≠ dollarSign then some (name (some c) none)
      else none
  | number .letter, c =>
      if isDigit c then some (number .exponent)
      else if oneOf "+-" c then some (number .sign)
      else continuesName (some (QChar.ofChar 'e')) none c
  | number .sign, c => if isDigit c then some (number .exponent) else continuesOperator false c
  | number part, c => continuesDigits part c
  | dot double, c =>
      if !double && c = period then some (dot true)
      else if !double && isDigit c then some (number .fraction)
      else none
  | operator afterSlash, c => continuesOperator afterSlash c
  | unicode, c =>
      if isOperatorChar c then some (operator (c = slash))
      else if c = quote then some (quoted (.string false))
      else if c = doubleQuote then some (quoted .identifier)
      else none
  | quoted k, c =>
      some (if c = k.delimiter then quoteSeen k
        else if k = .string true && c = QChar.ofChar '\\' then escaped
        else quoted k)
  | escaped, _ => some (quoted (.string true))
  | quoteSeen k, c => if c = k.delimiter then some (quoted k) else none
  | closed escapes newline, c =>
      if newline && c = quote then some (quoted (.string escapes)) else none
  | dollar tag seen, c =>
      some (if c = dollarSign then
          if seen = some tag then blank else dollar tag (some [])
        else dollar tag (seen.map (· ++ [c])))
  | block depth last, c =>
      -- neither the star of the opening nor a slash counts twice
      some (if last = slash && c = star then block (depth + 1) dollarSign
        else if last = star && c = slash then
          match depth with
          | 0 => blank
          | depth + 1 => block depth dollarSign
        else block depth c)
  | comment _, _ => none

end LexState

/-- The state after the first character of a lexeme. -/
def starts (c : QChar) : LexState :=
  if c = period then .dot false
  else if isWordChar c then .word c
  else if isOperatorChar c then .operator (c = slash)
  else if c = quote then .quoted (.string false)
  else if c = doubleQuote then .quoted .identifier
  else .blank

/-! ### Marks -/

inductive Mark
  | first | next
  /-- The quote behind a line end with which a string literal goes on. -/
  | resume
  deriving DecidableEq, Repr

/-- A character of a lexeme. -/
def lexeme (q : LexState) (c : QChar) : Option Mark × LexState :=
  match q.continues c with
  | some q' => (some (if q.newlineSeen then .resume else .next), q')
  | none => (some .first, starts c)

/-- One character; `beforeHyphen` if the next one is a hyphen. -/
def step (q : LexState) (c : QChar) (beforeHyphen : Bool) : Option Mark × LexState :=
  match q with
  | .comment back =>
      (none, if isNewline c then (back.map (LexState.closed · true)).getD .blank else .comment back)
  | q =>
      if !q.inside && (c = hyphen && beforeHyphen) then (none, .comment q.back)
      else if !q.inside && isBlank c then (none, q.rest (isNewline c))
      else lexeme q c

/-- Does a text begin with a hyphen? -/
def hyphenFirst : QString → Bool
  | [] => false
  | c :: _ => c = hyphen

def marks : LexState → QString → List (Option Mark)
  | _, [] => []
  | q, c :: s => (step q c (hyphenFirst s)).1 :: marks (step q c (hyphenFirst s)).2 s

/-- The lexemes of a text: their characters, each with its mark. -/
def tokens (s : QString) : List (QChar × Mark) :=
  (s.zip (marks .blank s)).filterMap fun x => x.2.map fun m => (x.1, m)

/-! ### What is left of a text -/

/-- The characters of a text that are kept. -/
def kept (t : List (QChar × Bool)) : QString := (t.filter Prod.snd).map Prod.fst

/-- The marks of the characters that are kept, with none for the others. -/
def spread : List (QChar × Bool) → List (Option Mark) → List (Option Mark)
  | (_, true) :: t, m :: ms => m :: spread t ms
  | _ :: t, ms => none :: spread t ms
  | [], _ => []

@[simp] theorem kept_cons_true (c : QChar) (t : List (QChar × Bool)) :
    kept ((c, true) :: t) = c :: kept t := rfl

@[simp] theorem kept_cons_false (c : QChar) (t : List (QChar × Bool)) :
    kept ((c, false) :: t) = kept t := rfl

/-- A character that does not go on with the lexeme in front of it; behind a
string literal it is no quote either, wherever the lines end. -/
def Apart (p : LexState) (c : QChar) : Prop := p.continues c = none ∧ (p.back.isSome → c ≠ quote)

instance (p : LexState) (c : QChar) : Decidable (Apart p c) := inferInstanceAs (Decidable (_ ∧ _))

/-- In a line comment, at the beginning of one, or at a blank. -/
def Free (q : LexState) (c : QChar) (beforeHyphen : Bool) : Prop :=
  q.isComment ∨ q.isCode ∧ (isBlank c ∨ c = hyphen ∧ beforeHyphen)

instance (q : LexState) (c : QChar) (b : Bool) : Decidable (Free q c b) :=
  inferInstanceAs (Decidable (_ ∨ _))

/-- Nothing but blanks and line comments is left out, and where something is, the
lexemes stay apart.  The first state is that of the characters that are kept,
the second that of all. -/
def Sound : LexState → LexState → List (QChar × Bool) → Prop
  | _, _, [] => True
  | p, q, (c, false) :: t =>
      Free q c (hyphenFirst (t.map Prod.fst))
        ∧ Sound p (step q c (hyphenFirst (t.map Prod.fst))).2 t
  | p, q, (c, true) :: t =>
      (p = q ∨ Free p c (hyphenFirst (t.map Prod.fst)) ∨ q.isCode ∧ Apart p c)
        ∧ Sound (step p c (hyphenFirst (t.map Prod.fst))).2
            (step q c (hyphenFirst (t.map Prod.fst))).2 t

/-- No two hyphens come together where something is left out, and none that are
kept have anything behind them. -/
def HyphensApart : List (QChar × Bool) → Prop
  | [] => True
  | (c, k) :: t =>
      (k → c = hyphen → hyphenFirst (kept t) = hyphenFirst (t.map Prod.fst)
        ∧ (hyphenFirst (t.map Prod.fst) → t = [(hyphen, true)])) ∧ HyphensApart t

/-- Where the lexer may be when some blanks and comments are left out: `p` without
them, the other state with them. -/
inductive Behind (p : LexState) : LexState → Prop
  | same : p.isComment = false → Behind p p
  | rest (newline : Bool) : p.isCode → Behind p (p.rest newline)
  | comment : p.isCode → Behind p (.comment p.back)

/-! ### One character -/

namespace LexState

theorem isCode_iff {q : LexState} : q.isCode ↔ q.inside = false ∧ q.isComment = false := by
  simp [isCode]

theorem rest_back (q : LexState) (newline : Bool) : (q.rest newline).back = q.back := by
  unfold rest
  cases h : q.back <;> rfl

theorem rest_rest (q : LexState) (a b : Bool) : (q.rest a).rest b = q.rest (a || b) := by
  unfold rest
  cases h : q.back with
  | none => rfl
  | some escapes => simp [back, newlineSeen, Bool.or_assoc]

theorem rest_isCode (q : LexState) (newline : Bool) : (q.rest newline).isCode := by
  unfold rest
  cases h : q.back <;> rfl

/-- Behind the line end of a comment. -/
theorem rest_true (q : LexState) :
    q.rest true = (q.back.map (closed · true)).getD blank := by
  unfold rest
  cases h : q.back <;> simp

theorem continuesName_not_comment {lead : Option QChar} {tag : Option QString} {q : LexState}
    {c : QChar} (h : continuesName lead tag c = some q) : q.isComment = false := by
  unfold continuesName at h
  split_ifs at h <;> cases h
  · cases tag <;> rfl
  all_goals rfl

theorem continuesOperator_not_comment {afterSlash : Bool} {q : LexState} {c : QChar}
    (h : continuesOperator afterSlash c = some q) : q.isComment = false := by
  rw [continuesOperator] at h
  split_ifs at h <;> cases h <;> rfl

theorem continuesDigits_not_comment {part : NumberPart} {q : LexState} {c : QChar}
    (h : continuesDigits part c = some q) : q.isComment = false := by
  rw [continuesDigits] at h
  split_ifs at h <;> cases h <;> rfl

theorem continues_not_comment {q q' : LexState} {c : QChar} (h : q.continues c = some q') :
    q'.isComment = false := by
  cases q with
  | blank => cases h
  | comment back => cases h
  | name lead tag => exact continuesName_not_comment h
  | number part =>
      cases part with
      | letter =>
          simp only [continues] at h
          split_ifs at h
          · cases h; rfl
          · cases h; rfl
          · exact continuesName_not_comment h
      | sign =>
          simp only [continues] at h
          split_ifs at h
          · cases h; rfl
          · exact continuesOperator_not_comment h
      | _ => exact continuesDigits_not_comment h
  | operator afterSlash => exact continuesOperator_not_comment h
  | escaped =>
      obtain rfl := Option.some.inj h
      rfl
  | quoted k =>
      obtain rfl := Option.some.inj h
      split_ifs <;> rfl
  | dollar tag seen =>
      obtain rfl := Option.some.inj h
      split_ifs <;> rfl
  | block depth last =>
      obtain rfl := Option.some.inj h
      split_ifs
      · rfl
      · cases depth <;> rfl
      · rfl
  | _ =>
      simp only [continues] at h
      split_ifs at h <;> cases h <;> rfl

end LexState

theorem starts_not_comment (c : QChar) : (starts c).isComment = false := by
  unfold starts LexState.word
  split_ifs <;> rfl

theorem hyphen_not_blank {c : QChar} (hc : isBlank c) : c ≠ hyphen := by
  rintro rfl
  exact absurd hc (by decide)

theorem step_of_not_comment {q : LexState} (hq : q.isComment = false) (c : QChar) (b : Bool) :
    step q c b =
      if !q.inside && (c = hyphen && b) then (none, .comment q.back)
      else if !q.inside && isBlank c then (none, q.rest (isNewline c))
      else lexeme q c := by
  cases q with
  | comment back => cases hq
  | _ => rfl

/-- Two hyphens open a line comment. -/
theorem step_opens {q : LexState} (hq : q.isCode) : step q hyphen true = (none, .comment q.back) := by
  obtain ⟨hinside, hcomment⟩ := LexState.isCode_iff.1 hq
  rw [step_of_not_comment hcomment, hinside]
  rfl

theorem step_blank {q : LexState} (hq : q.isCode) {c : QChar} (hc : isBlank c) (b : Bool) :
    step q c b = (none, q.rest (isNewline c)) := by
  obtain ⟨hinside, hcomment⟩ := LexState.isCode_iff.1 hq
  rw [step_of_not_comment hcomment, hinside]
  simp [hyphen_not_blank hc, hc]

/-- Any other character is part of a lexeme. -/
theorem step_lexeme {q : LexState} (hq : q.isComment = false) {c : QChar} {b : Bool}
    (hc : q.inside ∨ ¬ isBlank c ∧ ¬ (c = hyphen ∧ b)) :
    step q c b = lexeme q c := by
  rw [step_of_not_comment hq]
  rcases hc with hinside | ⟨hblank, hopens⟩
  · simp [hinside]
  · have hno : (c = hyphen && b) = false := by simpa using hopens
    simp [hno, hblank]

theorem step_lexeme_marks {q : LexState} (hq : q.isComment = false) {c : QChar} {b : Bool}
    (hc : q.inside ∨ ¬ isBlank c ∧ ¬ (c = hyphen ∧ b)) :
    ∃ m, (step q c b).1 = some m ∧ (step q c b).2.isComment = false := by
  rw [step_lexeme hq hc, lexeme]
  cases h : q.continues c with
  | none => exact ⟨_, rfl, starts_not_comment c⟩
  | some q' => exact ⟨_, rfl, LexState.continues_not_comment h⟩

/-- In a line comment. -/
theorem step_comment (p : LexState) (c : QChar) (b : Bool) :
    step (.comment p.back) c b = (none, if isNewline c then p.rest true else .comment p.back) := by
  rw [LexState.rest_true]
  rfl

/-- What a character can be: the beginning of a comment, a blank, or part of a lexeme. -/
theorem step_cases {q : LexState} (hq : q.isComment = false) (c : QChar) (b : Bool) :
    (q.isCode ∧ (c = hyphen ∧ b) ∧ step q c b = (none, .comment q.back))
      ∨ (q.isCode ∧ isBlank c ∧ step q c b = (none, q.rest (isNewline c)))
      ∨ ∃ m, (step q c b).1 = some m ∧ (step q c b).2.isComment = false := by
  by_cases hcode : q.isCode
  · by_cases hopens : c = hyphen ∧ b
    · obtain ⟨rfl, rfl⟩ := hopens
      exact .inl ⟨hcode, ⟨rfl, rfl⟩, step_opens hcode⟩
    · by_cases hblank : isBlank c
      · exact .inr (.inl ⟨hcode, hblank, step_blank hcode hblank b⟩)
      · exact .inr (.inr (step_lexeme_marks hq (.inr ⟨hblank, hopens⟩)))
  · have hinside : q.inside := by
      cases h : q.inside with
      | true => rfl
      | false => exact absurd (LexState.isCode_iff.2 ⟨h, hq⟩) hcode
    exact .inr (.inr (step_lexeme_marks hq (.inl hinside)))

/-- The characters without a mark. -/
theorem step_fst_eq_none_iff (q : LexState) (c : QChar) (b : Bool) :
    (step q c b).1 = none ↔ Free q c b := by
  cases hq : q.isComment with
  | true =>
      cases q with
      | comment back => exact ⟨fun _ => .inl rfl, fun _ => rfl⟩
      | _ => cases hq
  | false =>
      constructor
      · intro hnone
        rcases step_cases hq c b with ⟨hcode, hc, -⟩ | ⟨hcode, hc, -⟩ | ⟨m, hm, -⟩
        · exact .inr ⟨hcode, .inr hc⟩
        · exact .inr ⟨hcode, .inl hc⟩
        · rw [hm] at hnone
          cases hnone
      · rintro (hcomment | ⟨hcode, hc | ⟨rfl, rfl⟩⟩)
        · rw [hq] at hcomment
          cases hcomment
        · rw [step_blank hcode hc]
        · rw [step_opens hcode]

theorem step_not_comment {q : LexState} (hq : q.isComment = false) {c : QChar} {b : Bool}
    (hopens : ¬ (c = hyphen ∧ b)) : (step q c b).2.isComment = false := by
  rcases step_cases hq c b with ⟨-, h, -⟩ | ⟨-, -, h⟩ | ⟨_, -, h⟩
  · exact absurd h hopens
  · rw [h]
    exact (LexState.isCode_iff.1 (q.rest_isCode _)).2
  · exact h

/-! ### Two lexers -/

/-- Nothing but a quote goes on with a string literal, behind it or behind a line end. -/
theorem Apart.rest {p : LexState} {c : QChar} (h : Apart p c) (newline : Bool) :
    (p.rest newline).continues c = none := by
  cases hback : p.back with
  | none => rw [LexState.rest, hback]; rfl
  | some escapes =>
      have hc : c ≠ quote := h.2 (by rw [hback]; rfl)
      rw [LexState.rest, hback]
      show (if (p.newlineSeen || newline) && c = quote then _ else none) = none
      simp [hc]

/-- And only then do blanks and comments in between not change the mark. -/
theorem Apart.of_rest {p : LexState} {newline : Bool} (hne : p ≠ p.rest newline) {c : QChar}
    (h : (lexeme (p.rest newline) c).1 = (lexeme p c).1) : Apart p c := by
  cases hback : p.back with
  | none =>
      refine ⟨?_, fun hsome => by rw [hback] at hsome; cases hsome⟩
      rw [LexState.rest, hback] at h
      cases hc : p.continues c with
      | none => rfl
      | some q' =>
          rw [lexeme, lexeme, hc] at h
          cases hnewline : p.newlineSeen <;> rw [hnewline] at h <;> cases h
  | some escapes =>
      -- the quote of the next literal would be the same lexeme, or another one
      have hc : c ≠ quote := by
        rintro rfl
        cases p with
        | quoteSeen k =>
            obtain ⟨_⟩ | _ := k
            · cases newline <;> cases h
            · cases hback
        | closed escapes' seen =>
            obtain rfl : escapes' = escapes := Option.some.inj hback
            cases seen <;> cases newline <;> first | exact absurd rfl hne | cases h
        | _ => cases hback
      refine ⟨?_, fun _ => hc⟩
      cases p with
      | quoteSeen k =>
          obtain ⟨_⟩ | _ := k
          · exact if_neg hc
          · cases hback
      | closed escapes' seen =>
          show (if seen && c = quote then _ else none) = none
          simp [hc]
      | _ => cases hback

namespace Behind

variable {p q : LexState}

/-- A character without a mark may be left out. -/
theorem left_out (h : Behind p q) {c : QChar} {b : Bool} (hnone : (step q c b).1 = none) :
    Behind p (step q c b).2 := by
  cases h with
  | same hp =>
      rcases step_cases hp c b with ⟨hcode, -, hstep⟩ | ⟨hcode, -, hstep⟩ | ⟨m, hm, -⟩
      · rw [hstep]
        exact .comment hcode
      · rw [hstep]
        exact .rest _ hcode
      · rw [hm] at hnone
        cases hnone
  | rest newline hcode =>
      have hp := (LexState.isCode_iff.1 (p.rest_isCode newline)).2
      rcases step_cases hp c b with ⟨-, -, hstep⟩ | ⟨-, -, hstep⟩ | ⟨m, hm, -⟩
      · rw [hstep, LexState.rest_back]
        exact .comment hcode
      · rw [hstep, LexState.rest_rest]
        exact .rest _ hcode
      · rw [hm] at hnone
        cases hnone
  | comment hcode =>
      rw [step_comment]
      by_cases hc : isNewline c
      · rw [if_pos hc]
        exact .rest true hcode
      · rw [if_neg hc]
        exact .comment hcode

theorem not_comment (h : Behind p q) : p.isComment = false := by
  cases h with
  | same hp => exact hp
  | rest _ hp => exact (LexState.isCode_iff.1 hp).2
  | comment hp => exact (LexState.isCode_iff.1 hp).2

theorem isCode_of_ne (h : Behind p q) (hne : p ≠ q) : p.isCode := by
  cases h with
  | same hp => exact absurd rfl hne
  | rest newline hcode => exact hcode
  | comment hcode => exact hcode

/-- Blanks change nothing. -/
theorem blank (h : Behind p q) (hne : p ≠ q) {c : QChar} (hc : isBlank c) (b : Bool) :
    (step q c b).1 = (step p c b).1 ∧ Behind (step p c b).2 (step q c b).2 := by
  have hcode := h.isCode_of_ne hne
  rw [step_blank hcode hc]
  have hrest := p.rest_isCode (isNewline c)
  cases h with
  | same hp => exact absurd rfl hne
  | rest newline _ =>
      rw [step_blank (p.rest_isCode newline) hc, LexState.rest_rest, Bool.or_comm,
        ← LexState.rest_rest]
      exact ⟨rfl, .rest newline hrest⟩
  | comment _ =>
      rw [step_comment]
      refine ⟨rfl, ?_⟩
      by_cases hnewline : isNewline c
      · rw [if_pos hnewline]
        rw [hnewline] at hrest ⊢
        exact .same (LexState.isCode_iff.1 hrest).2
      · rw [if_neg hnewline, ← p.rest_back (isNewline c)]
        exact .comment hrest

/-- Lexemes that stay apart are marked in the same way. -/
theorem step_eq (h : Behind p q) (hne : p ≠ q) {c : QChar} {b : Bool} (hblank : ¬ isBlank c)
    (hopens : ¬ (c = hyphen ∧ b)) (hq : q.isCode) (hapart : Apart p c) :
    step q c b = step p c b := by
  have hcode := h.isCode_of_ne hne
  rw [step_lexeme (LexState.isCode_iff.1 hcode).2 (.inr ⟨hblank, hopens⟩),
    step_lexeme (LexState.isCode_iff.1 hq).2 (.inr ⟨hblank, hopens⟩), lexeme, lexeme, hapart.1]
  cases h with
  | same hp => exact absurd rfl hne
  | rest newline _ => rw [hapart.rest newline]
  | comment _ => cases hq

/-- Lexemes that do not are not. -/
theorem apart (h : Behind p q) (hne : p ≠ q) {c : QChar} {b : Bool} (hblank : ¬ isBlank c)
    (hopens : ¬ (c = hyphen ∧ b)) (hmark : (step q c b).1 = (step p c b).1) :
    q.isCode ∧ Apart p c := by
  have hp := LexState.isCode_iff.1 (h.isCode_of_ne hne)
  cases h with
  | same _ => exact absurd rfl hne
  | rest newline _ =>
      have hq := p.rest_isCode newline
      rw [step_lexeme hp.2 (.inr ⟨hblank, hopens⟩),
        step_lexeme (LexState.isCode_iff.1 hq).2 (.inr ⟨hblank, hopens⟩)] at hmark
      exact ⟨hq, .of_rest hne hmark⟩
  | comment _ =>
      obtain ⟨m, hm, -⟩ := step_lexeme_marks (b := b) hp.2 (.inr ⟨hblank, hopens⟩)
      rw [hm] at hmark
      cases hmark

/-- Two hyphens open a comment on both sides, or are in one. -/
theorem step_hyphens (h : Behind p q) : step q hyphen true = step p hyphen true := by
  cases h with
  | same _ => rfl
  | rest newline hp => rw [step_opens (p.rest_isCode newline), step_opens hp, LexState.rest_back]
  | comment hp => rw [step_opens hp]; rfl

/-- A character that is kept has the same mark on both sides if and only if it is no
part of a lexeme, or one that stays apart; then the lexers go on side by side. -/
theorem kept (h : Behind p q) {c : QChar} {b : Bool} (hopens : ¬ (c = hyphen ∧ b)) :
    ((step q c b).1 = (step p c b).1 ↔ p = q ∨ Free p c b ∨ q.isCode ∧ Apart p c)
      ∧ ((step q c b).1 = (step p c b).1 → Behind (step p c b).2 (step q c b).2) := by
  by_cases hpq : p = q
  · subst hpq
    exact ⟨⟨fun _ => .inl rfl, fun _ => rfl⟩, fun _ => .same (step_not_comment h.not_comment hopens)⟩
  have hp := h.isCode_of_ne hpq
  by_cases hblank : isBlank c
  · have hsame := h.blank hpq hblank b
    exact ⟨⟨fun _ => .inr (.inl (.inr ⟨hp, .inl hblank⟩)), fun _ => hsame.1⟩, fun _ => hsame.2⟩
  have hfree : ¬ Free p c b := by
    rintro (hcomment | ⟨-, hc | hc⟩)
    · rw [h.not_comment] at hcomment
      cases hcomment
    · exact hblank hc
    · exact hopens hc
  constructor
  · constructor
    · intro hmark
      exact .inr (.inr (h.apart hpq hblank hopens hmark))
    · rintro (heq | hc | ⟨hq, hapart⟩)
      · exact absurd heq hpq
      · exact absurd hc hfree
      · rw [h.step_eq hpq hblank hopens hq hapart]
  · intro hmark
    obtain ⟨hq, hapart⟩ := h.apart hpq hblank hopens hmark
    rw [h.step_eq hpq hblank hopens hq hapart]
    exact .same (step_not_comment h.not_comment hopens)

end Behind

/-! ### Two texts -/

theorem step_of_ne_hyphen {c : QChar} (hc : c ≠ hyphen) (q : LexState) (a b : Bool) :
    step q c a = step q c b := by
  cases hq : q.isComment with
  | true =>
      cases q with
      | comment back => rfl
      | _ => cases hq
  | false => simp [step_of_not_comment hq, hc]

/-- The characters that are kept have the same marks in both texts, and the others
have none, if and only if nothing but blanks and line comments is left out and
the lexemes stay apart. -/
theorem marks_kept_iff {p q : LexState} {t : List (QChar × Bool)} (hpq : Behind p q)
    (ht : HyphensApart t) :
    marks q (t.map Prod.fst) = spread t (marks p (kept t)) ↔ Sound p q t := by
  induction t generalizing p q with
  | nil => exact ⟨fun _ => trivial, fun _ => rfl⟩
  | cons x t ih =>
      obtain ⟨c, k⟩ := x
      obtain ⟨hc, ht⟩ := ht
      cases k with
      | false =>
          show (step q c _).1 :: marks _ (t.map Prod.fst) = none :: spread t (marks p (kept t)) ↔ _ ∧ _
          rw [List.cons.injEq, step_fst_eq_none_iff]
          apply and_congr_right
          intro hfree
          exact ih (hpq.left_out ((step_fst_eq_none_iff _ _ _).2 hfree)) ht
      | true =>
          have hstep : step p c (hyphenFirst (kept t)) = step p c (hyphenFirst (t.map Prod.fst)) := by
            by_cases hhyphen : c = hyphen
            · rw [(hc rfl hhyphen).1]
            · exact step_of_ne_hyphen hhyphen _ _ _
          show _ :: marks _ (t.map Prod.fst) = (step p c (hyphenFirst (kept t))).1
            :: spread t (marks (step p c (hyphenFirst (kept t))).2 (kept t)) ↔ _ ∧ _
          rw [hstep, List.cons.injEq]
          by_cases hopens : c = hyphen ∧ hyphenFirst (t.map Prod.fst)
          · -- nothing comes behind the two hyphens
            obtain rfl := (hc rfl hopens.1).2 hopens.2
            obtain rfl := hopens.1
            have heq := hpq.step_hyphens
            refine ⟨fun _ => ⟨?_, .inl (congrArg Prod.snd heq.symm), trivial⟩, fun _ => ?_⟩
            · by_cases hp : p = q
              · exact .inl hp
              · exact .inr (.inl (.inr ⟨hpq.isCode_of_ne hp, .inr ⟨rfl, rfl⟩⟩))
            · show (step q hyphen true).1 = (step p hyphen true).1
                ∧ marks (step q hyphen true).2 [hyphen] = marks (step p hyphen true).2 [hyphen]
              rw [heq]
              exact ⟨rfl, rfl⟩
          · obtain ⟨hmark, hnext⟩ := hpq.kept hopens
            rw [← hmark]
            apply and_congr_right
            intro heq
            exact ih (hnext heq) ht

@[simp] theorem length_marks (q : LexState) (s : QString) : (marks q s).length = s.length := by
  induction s generalizing q with
  | nil => rfl
  | cons c s ih => rw [marks, List.length_cons, List.length_cons, ih]

/-- Characters without a mark are in no lexeme. -/
theorem tokens_spread {t : List (QChar × Bool)} {ms : List (Option Mark)}
    (hms : ms.length = (kept t).length) :
    ((t.map Prod.fst).zip (spread t ms)).filterMap (fun x => x.2.map fun m => (x.1, m)) =
      ((kept t).zip ms).filterMap fun x => x.2.map fun m => (x.1, m) := by
  induction t generalizing ms with
  | nil => rfl
  | cons x t ih =>
      obtain ⟨c, k⟩ := x
      cases k with
      | false => exact ih hms
      | true =>
          cases ms with
          | nil => cases hms
          | cons m ms =>
              have h := ih (Nat.succ.inj hms)
              cases m with
              | none => exact h
              | some m => exact congrArg ((c, m) :: ·) h

end Sqlate.SqlLexer
