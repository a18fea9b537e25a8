/-
Sqlate/Qt/QVariant.lean

Variants, as far as the query builders look into them: the builders ask for
the user type, for validity and, for UUIDs, for the text form.  All other
types share the constructor `other`, which keeps the type and the payload
apart.

`bindForm` is the conversion of `SqlQueryBuilderBase::bindValue`: the SQL
drivers do not handle `QUuid`, so UUIDs are bound as text.
-/
import Mathlib.Data.BitVec
import Sqlate.Qt.QString

/-- The value of `QVariant::userType()`. -/
inductive MetaType
  | unknownType
  | qString
  | qUuid
  | sqlNowType
  | other (id : Nat)
  deriving DecidableEq, Repr

/-- A UUID: its 128 bits. -/
structure QUuid where
  bits : BitVec 128
  deriving DecidableEq, Repr

namespace QUuid

/-- The `i`-th hexadecimal digit, from the left. -/
def hexDigit (u : QUuid) (i : Nat) : QChar :=
  QChar.ofChar (Nat.digitChar (u.bits.toNat / 16 ^ (31 - i) % 16))

/-- `QUuid::toString`: `{8-4-4-4-12}`. -/
def toString (u : QUuid) : QString :=
  let group (i n : Nat) : QString := (List.range n).map fun j => u.hexDigit (i + j)
  latin1 "\x7b" ++ group 0 8 ++ latin1 "-" ++ group 8 4 ++ latin1 "-" ++ group 12 4
    ++ latin1 "-" ++ group 16 4 ++ latin1 "-" ++ group 20 12 ++ latin1 "\x7d"

/-- The text without its braces. -/
def withoutBraces (u : QUuid) : QString := (u.toString.drop 1).dropLast

theorem toString_eq (u : QUuid) : u.toString = latin1 "\x7b" ++ u.withoutBraces ++ latin1 "\x7d" := by
  rw [withoutBraces]
  show QChar.ofChar '\x7b' :: (_ ++ [QChar.ofChar '\x7d'])
    = QChar.ofChar '\x7b' :: ((_ ++ [QChar.ofChar '\x7d']).dropLast ++ [QChar.ofChar '\x7d'])
  rw [List.dropLast_concat]

theorem hexDigit_mem (u : QUuid) (i : Nat) : u.hexDigit i ∈ QString.hexDigits :=
  QString.digit_mem_hexDigits _

/-- `n` digits, from the `i`-th one. -/
def digits (u : QUuid) (i n : Nat) : QString := (List.range n).map fun j => u.hexDigit (i + j)

theorem mem_digits {u : QUuid} {i n : Nat} {c : QChar} (h : c ∈ u.digits i n) :
    c ∈ QString.hexDigits := by
  obtain ⟨j, -, rfl⟩ := List.mem_map.mp h
  exact u.hexDigit_mem _

/-- Five groups of digits, with hyphens between them. -/
theorem withoutBraces_eq (u : QUuid) :
    u.withoutBraces = u.digits 0 8 ++ latin1 "-" ++ u.digits 8 4 ++ latin1 "-" ++ u.digits 12 4
      ++ latin1 "-" ++ u.digits 16 4 ++ latin1 "-" ++ u.digits 20 12 := by
  show (_ ++ [QChar.ofChar '\x7d']).dropLast = _
  rw [List.dropLast_concat]
  rfl

theorem mem_withoutBraces {u : QUuid} {c : QChar} (h : c ∈ u.withoutBraces) :
    c ∈ QString.hexDigits ∨ c = QChar.ofChar '-' := by
  have hhyphen : c ∈ latin1 "-" → c = QChar.ofChar '-' := List.mem_singleton.mp
  rw [withoutBraces_eq] at h
  simp only [List.mem_append] at h
  obtain (((((((h | h) | h) | h) | h) | h) | h) | h) | h := h
  · exact .inl (mem_digits h)
  · exact .inr (hhyphen h)
  · exact .inl (mem_digits h)
  · exact .inr (hhyphen h)
  · exact .inl (mem_digits h)
  · exact .inr (hhyphen h)
  · exact .inl (mem_digits h)
  · exact .inr (hhyphen h)
  · exact .inl (mem_digits h)

theorem length_withoutBraces (u : QUuid) : u.withoutBraces.length = 36 := by
  simp [withoutBraces_eq, digits, latin1]

theorem ne_brace_of_mem_withoutBraces {u : QUuid} {c : QChar} (h : c ∈ u.withoutBraces) :
    c ≠ QChar.ofChar '\x7b' ∧ c ≠ QChar.ofChar '\x7d' := by
  rcases mem_withoutBraces h with hc | rfl
  · exact ⟨ne_of_mem_of_not_mem hc (by decide), ne_of_mem_of_not_mem hc (by decide)⟩
  · exact ⟨by decide, by decide⟩

/-- The digits are what is no hyphen. -/
theorem filter_withoutBraces (u : QUuid) :
    u.withoutBraces.filter (fun c => c ≠ QChar.ofChar '-') = u.digits 0 32 := by
  have hdigits : ∀ i n, (u.digits i n).filter (fun c => c ≠ QChar.ofChar '-') = u.digits i n := by
    intro i n
    rw [List.filter_eq_self]
    intro c hc
    have hne : c ≠ QChar.ofChar '-' := ne_of_mem_of_not_mem (mem_digits hc) (by decide)
    simpa using hne
  rw [withoutBraces_eq]
  simp only [List.filter_append, hdigits]
  rfl

/-- The digits of a number determine it. -/
theorem eq_of_hexDigits {m n k : Nat} (hm : m < 16 ^ k) (hn : n < 16 ^ k)
    (h : ∀ i < k, m / 16 ^ i % 16 = n / 16 ^ i % 16) : m = n := by
  induction k generalizing m n with
  | zero => omega
  | succ k ih =>
      have hfirst : m % 16 = n % 16 := by simpa using h 0 (Nat.succ_pos k)
      have hrest : m / 16 = n / 16 := by
        apply ih
        · rw [Nat.div_lt_iff_lt_mul (by decide)]
          exact hm
        · rw [Nat.div_lt_iff_lt_mul (by decide)]
          exact hn
        · intro i hi
          have hdigit := h (i + 1) (Nat.succ_lt_succ hi)
          rwa [Nat.pow_succ', ← Nat.div_div_eq_div_mul, ← Nat.div_div_eq_div_mul] at hdigit
      omega

theorem eq_of_hexDigit {u v : QUuid} (h : ∀ i < 32, u.hexDigit i = v.hexDigit i) : u = v := by
  have hbits : u.bits.toNat = v.bits.toNat := by
    apply eq_of_hexDigits (k := 32) u.bits.isLt v.bits.isLt
    intro i hi
    have hdigit := h (31 - i) (by omega)
    have hi : 31 - (31 - i) = i := by omega
    rw [hexDigit, hexDigit, hi] at hdigit
    exact QString.digit_injective _ (Nat.mod_lt _ (by decide)) _ (Nat.mod_lt _ (by decide)) hdigit
  obtain ⟨u⟩ := u
  obtain ⟨v⟩ := v
  exact congrArg QUuid.mk (BitVec.eq_of_toNat_eq hbits)

theorem withoutBraces_injective : Function.Injective withoutBraces := by
  intro u v h
  apply eq_of_hexDigit
  have hdigits : u.digits 0 32 = v.digits 0 32 := by
    rw [← filter_withoutBraces, ← filter_withoutBraces, h]
  intro i hi
  have hdigit := List.map_inj_left.1 hdigits i (List.mem_range.2 hi)
  rwa [Nat.zero_add] at hdigit

end QUuid

/-- A `QVariant`.  `invalid` is what the builders use for NULL, `sqlNow` the
server side time of `SqlNowType`. -/
inductive QVariant
  | invalid
  | string (s : QString)
  | uuid (u : QUuid)
  | sqlNow
  | other (id : Nat) (payload : List UInt8)
  deriving DecidableEq, Repr

namespace QVariant

/-- `QVariant::userType`. -/
def userType : QVariant → MetaType
  | invalid => .unknownType
  | string _ => .qString
  | uuid _ => .qUuid
  | sqlNow => .sqlNowType
  | other id _ => .other id

/-- `QVariant::isValid`. -/
def isValid : QVariant → Bool
  | invalid => false
  | _ => true

/-- What `bindValue` hands to the driver for a value. -/
def bindForm : QVariant → QVariant
  | uuid u => string u.toString
  | v => v

theorem userType_eq_sqlNowType {v : QVariant} : v.userType = .sqlNowType ↔ v = sqlNow := by
  cases v <;> simp [userType]

end QVariant
