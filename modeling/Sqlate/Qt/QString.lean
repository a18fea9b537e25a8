/-
Sqlate/Qt/QString.lean

Qt strings: sequences of 16-bit code units.

`QString::operator<`, and with it the key order of a `QMap<QString, _>`,
compares code units, which is the lexicographic order of the list.  The
character classes are those of `QChar`: a code unit is a digit when it is a
decimal digit of the Unicode tables, not only of ASCII.

`QString::toLower` follows the Unicode case tables of the Qt release in use,
and `qHash` depends on the release and on the machine; both are parameters of
the model (`CaseFolding`, `HashFunction`).
-/
import Mathlib.Data.List.Basic
import Mathlib.Data.List.DropRight
import Mathlib.Data.List.Lex
import Mathlib.Order.Fin.Basic

/-- A UTF-16 code unit. -/
abbrev QChar := Fin 65536

/-- A sequence of code units. -/
abbrev QString := List QChar

/-- `QString::toLower`. -/
class CaseFolding where
  toLower : QString → QString

/-- Case folding of texts in ASCII, where all releases agree. -/
@[reducible] def CaseFolding.ascii : CaseFolding where
  toLower s := s.map fun c => if 0x41 ≤ c.val ∧ c.val ≤ 0x5A then c + 0x20 else c

theorem CaseFolding.ascii_toLower_toLower (s : QString) :
    CaseFolding.ascii.toLower (CaseFolding.ascii.toLower s) = CaseFolding.ascii.toLower s := by
  show (s.map _).map _ = s.map _
  rw [List.map_map]
  refine List.map_congr_left fun c _ => ?_
  by_cases h : 0x41 ≤ c.val ∧ c.val ≤ 0x5A
  · have hlower : ¬ (0x41 ≤ (c + 0x20).val ∧ (c + 0x20).val ≤ 0x5A) := by
      rw [Fin.val_add]
      have h20 : (0x20 : QChar).val = 0x20 := rfl
      omega
    simp only [Function.comp, if_pos h, if_neg hlower]
  · simp only [Function.comp, if_neg h]

/-- `qHash` of a string. -/
class HashFunction where
  qHash : QString → UInt32

namespace QChar

def ofChar (c : Char) : QChar := Fin.ofNat 65536 c.toNat

/-- The zeros of the decimal digit ranges (category Nd) of the basic plane;
each range has the nine digits after it. -/
def decimalZeros : List Nat :=
  [0x0030, 0x0660, 0x06F0, 0x07C0, 0x0966, 0x09E6, 0x0A66, 0x0AE6, 0x0B66, 0x0BE6,
   0x0C66, 0x0CE6, 0x0D66, 0x0DE6, 0x0E50, 0x0ED0, 0x0F20, 0x1040, 0x1090, 0x17E0,
   0x1810, 0x1946, 0x19D0, 0x1A80, 0x1A90, 0x1B50, 0x1BB0, 0x1C40, 0x1C50, 0xA620,
   0xA8D0, 0xA900, 0xA9D0, 0xA9F0, 0xAA50, 0xABF0, 0xFF10]

/-- `QChar::isDigit`. -/
def isDigit (c : QChar) : Bool :=
  decimalZeros.any fun z => decide (z ≤ c.val) && decide (c.val < z + 10)

/-- `QChar::digitValue`. -/
def digitValue (c : QChar) : Option Nat :=
  (decimalZeros.find? fun z => decide (z ≤ c.val) && decide (c.val < z + 10)).map (c.val - ·)

/-- `QChar::isSpace`. -/
def isSpace (c : QChar) : Bool :=
  (decide (9 ≤ c.val) && decide (c.val ≤ 13)) || c.val == 0x20 || c.val == 0x85
    || c.val == 0xA0 || c.val == 0x1680 || (decide (0x2000 ≤ c.val) && decide (c.val ≤ 0x200A))
    || c.val == 0x2028 || c.val == 0x2029 || c.val == 0x202F || c.val == 0x205F
    || c.val == 0x3000

end QChar

/-- `QLatin1String`: a string literal of the source. -/
def latin1 (s : String) : QString := s.toList.map QChar.ofChar

namespace QString

/-- `QString::number`. -/
def number (n : Nat) : QString := (Nat.toDigits 10 n).map QChar.ofChar

/-- `QString::number` of a signed number. -/
def numberInt (i : Int) : QString :=
  if i < 0 then latin1 "-" ++ number i.natAbs else number i.natAbs

/-- `QString::number( n, 16 )`. -/
def numberHex (n : Nat) : QString := (Nat.toDigits 16 n).map QChar.ofChar

/-- `QString::trimmed`. -/
def trimmed (s : QString) : QString := (s.dropWhile QChar.isSpace).rdropWhile QChar.isSpace

/-! ### Place markers -/

/-- A piece of a text with place markers; `source` is how a marker is written. -/
inductive ArgPiece
  | text (c : QChar)
  | marker (number : Nat) (source : QString)
  deriving DecidableEq, Repr

/-- The place marker after a percent sign, an optional `L` and one or two
digits, and the text after it. -/
def placeMarker (s : QString) : Option (Nat × QString) :=
  let digits := if s.head? = some (QChar.ofChar 'L') then s.tail else s
  match digits with
  | [] => none
  | c :: rest =>
      c.digitValue.map fun m =>
        match rest with
        | [] => (m, [])
        | d :: rest' =>
            match d.digitValue with
            | none => (m, rest)
            | some n => (10 * m + n, rest')

/-- The pieces of a text of length at most `fuel`. -/
def argPieces : Nat → QString → List ArgPiece
  | 0, _ => []
  | _ + 1, [] => []
  | fuel + 1, c :: s =>
      if c = QChar.ofChar '%' then
        match placeMarker s with
        | none => .text c :: argPieces fuel s
        | some (n, rest) =>
            .marker n (c :: s.take (s.length - rest.length)) :: argPieces fuel rest
      else .text c :: argPieces fuel s

def ArgPiece.number? : ArgPiece → Option Nat
  | text _ => none
  | marker n _ => some n

/-- `QString::arg`: all markers with the lowest number are replaced. -/
def arg (s a : QString) : QString :=
  let pieces := argPieces s.length s
  match (pieces.filterMap ArgPiece.number?).min? with
  | none => s
  | some lowest =>
      pieces.flatMap fun
        | .text c => [c]
        | .marker n source => if n = lowest then a else source

/-! ### Decimal numbers -/

theorem toNat_of_isDigit {c : Char} (h : c.isDigit = true) : 48 ≤ c.toNat ∧ c.toNat ≤ 57 := by
  simp only [Char.isDigit, Bool.and_eq_true, decide_eq_true_eq, ge_iff_le,
    UInt32.le_iff_toNat_le] at h
  exact h

theorem val_ofChar_of_isDigit {c : Char} (h : c.isDigit = true) :
    (QChar.ofChar c).val = c.toNat := by
  have hc := toNat_of_isDigit h
  simp only [QChar.ofChar, Fin.ofNat]
  exact Nat.mod_eq_of_lt (by omega)

theorem isDigit_ofChar {c : Char} (h : c.isDigit = true) :
    (QChar.ofChar c).isDigit = true := by
  have hc := toNat_of_isDigit h
  have hv := val_ofChar_of_isDigit h
  simp only [QChar.isDigit, List.any_eq_true, Bool.and_eq_true, decide_eq_true_eq]
  exact ⟨0x30, by simp [QChar.decimalZeros], by omega, by omega⟩

theorem isDigit_of_mem_toDigits {n : Nat} {c : Char} (h : c ∈ Nat.toDigits 10 n) :
    c.isDigit = true :=
  Nat.isDigit_of_mem_toDigits (by omega) (by omega) h

theorem isDigit_of_mem_number {n : Nat} {c : QChar} (h : c ∈ number n) :
    c.isDigit = true := by
  obtain ⟨d, hd, rfl⟩ := List.mem_map.mp h
  exact isDigit_ofChar (isDigit_of_mem_toDigits hd)

theorem val_of_mem_number {n : Nat} {c : QChar} (h : c ∈ number n) :
    48 ≤ c.val ∧ c.val ≤ 57 := by
  obtain ⟨d, hd, rfl⟩ := List.mem_map.mp h
  have hdigit := isDigit_of_mem_toDigits hd
  rw [val_ofChar_of_isDigit hdigit]
  exact toNat_of_isDigit hdigit

theorem number_ne_nil (n : Nat) : number n ≠ [] := by
  simp [number, Nat.toDigits_ne_nil]

/-- The digits can be read back. -/
theorem map_ofNat_number (n : Nat) :
    (number n).map (fun c => Char.ofNat c.val) = Nat.toDigits 10 n := by
  rw [number, List.map_map]
  conv_rhs => rw [← List.map_id (Nat.toDigits 10 n)]
  refine List.map_congr_left fun c hc => ?_
  have hv := val_ofChar_of_isDigit (isDigit_of_mem_toDigits hc)
  simp [hv, Char.ofNat_toNat]

theorem number_injective : Function.Injective number := by
  intro m n h
  have hd : Nat.toDigits 10 m = Nat.toDigits 10 n := by
    rw [← map_ofNat_number, ← map_ofNat_number, h]
  calc m = Nat.ofDigitChars 10 (Nat.toDigits 10 m) 0 := Nat.ofDigitChars_ten_toDigits.symm
    _ = Nat.ofDigitChars 10 (Nat.toDigits 10 n) 0 := by rw [hd]
    _ = n := Nat.ofDigitChars_ten_toDigits

/-! ### Hexadecimal numbers -/

def hexDigits : List QChar := (List.range 16).map fun d => QChar.ofChar (Nat.digitChar d)

theorem digit_mem_hexDigits (n : Nat) : QChar.ofChar (Nat.digitChar (n % 16)) ∈ hexDigits :=
  List.mem_map_of_mem (List.mem_range.mpr (Nat.mod_lt n (by decide)))

theorem digit_injective : ∀ a < 16, ∀ b < 16,
    QChar.ofChar (Nat.digitChar a) = QChar.ofChar (Nat.digitChar b) → a = b := by decide

/-- The last digit, and those in front of it. -/
theorem numberHex_eq_if (n : Nat) :
    numberHex n = if n < 16 then [QChar.ofChar (Nat.digitChar n)]
      else numberHex (n / 16) ++ [QChar.ofChar (Nat.digitChar (n % 16))] := by
  rw [numberHex, Nat.toDigits_eq_if (by decide)]
  split_ifs
  · rfl
  · rw [List.map_append]
    rfl

theorem numberHex_ne_nil (n : Nat) : numberHex n ≠ [] := by
  simp [numberHex, Nat.toDigits_ne_nil]

theorem mem_hexDigits_of_mem_numberHex {n : Nat} {c : QChar} (h : c ∈ numberHex n) :
    c ∈ hexDigits := by
  induction n using Nat.strong_induction_on with
  | _ n ih =>
      rw [numberHex_eq_if] at h
      split_ifs at h with hn
      · rw [List.mem_singleton.mp h, ← Nat.mod_eq_of_lt hn]
        exact digit_mem_hexDigits n
      · rcases List.mem_append.mp h with h | h
        · exact ih (n / 16) (by omega) h
        · rw [List.mem_singleton.mp h]
          exact digit_mem_hexDigits n

theorem numberHex_injective : Function.Injective numberHex := by
  intro m n h
  induction m using Nat.strong_induction_on generalizing n with
  | _ m ih =>
      rw [numberHex_eq_if m, numberHex_eq_if n] at h
      split_ifs at h with hm hn hn
      · exact digit_injective m hm n hn (List.cons.inj h).1
      · exact absurd (List.append_eq_singleton_iff.mp h.symm) (by simp [numberHex_ne_nil])
      · exact absurd (List.append_eq_singleton_iff.mp h) (by simp [numberHex_ne_nil])
      · obtain ⟨hfront, hlast⟩ := List.append_inj' h rfl
        have hdigit := digit_injective _ (Nat.mod_lt m (by decide)) _ (Nat.mod_lt n (by decide))
          (List.cons.inj hlast).1
        have hdiv := ih (m / 16) (by omega) hfront
        omega

end QString
