/-
Sqlate/ServerNames.lean

Which name the server has for a name in a statement.

A name without quotes is folded to lower case, one in quotes is what stands between
them.  The server has room for 63 bytes, and cuts off what goes beyond.
-/
import Sqlate.Base.SizeLimit
import Sqlate.Qt.QString

namespace Sqlate

/-- The bytes of a code unit in UTF-8.  The first unit of a surrogate pair stands for
both. -/
def utf8Size (c : QChar) : Nat :=
  if c.val < 0x80 then 1
  else if c.val < 0x800 then 2
  else if 0xD800 ≤ c.val ∧ c.val < 0xDC00 then 4
  else if 0xDC00 ≤ c.val ∧ c.val < 0xE000 then 0
  else 3

def utf8Length (s : QString) : Nat := SizeLimit.total utf8Size s

/-- The room for a name: `NAMEDATALEN`, less one. -/
def maxNameSize : Nat := 63

/-- A text of characters in ASCII. -/
def isAscii (s : QString) : Bool := s.all fun c => c.val < 0x80

theorem utf8Length_of_isAscii {s : QString} (h : isAscii s = true) : utf8Length s = s.length := by
  apply SizeLimit.total_eq_length
  intro c hc
  exact if_pos (of_decide_eq_true (List.all_eq_true.1 h c hc))

def cutName (s : QString) : QString := SizeLimit.cut utf8Size maxNameSize s

theorem cutName_of_le {s : QString} (h : utf8Length s ≤ maxNameSize) : cutName s = s :=
  SizeLimit.cut_of_le h

theorem utf8Length_append (s t : QString) : utf8Length (s ++ t) = utf8Length s + utf8Length t :=
  SizeLimit.total_append s t

section
variable [CaseFolding]

/-- Which name a name in a statement stands for. -/
def serverName (name : QString) : QString :=
  cutName
    (if name.head? = some (QChar.ofChar '"') then (name.drop 1).dropLast
    else CaseFolding.toLower name)

theorem serverName_of_unquoted {name : QString} (h : name.head? ≠ some (QChar.ofChar '"')) :
    serverName name = cutName (CaseFolding.toLower name) := by
  rw [serverName, if_neg h]

/-- A name that is neither in quotes nor too long. -/
theorem serverName_of_short {name : QString} (h : name.head? ≠ some (QChar.ofChar '"'))
    (hshort : utf8Length (CaseFolding.toLower name) ≤ maxNameSize) :
    serverName name = CaseFolding.toLower name := by
  rw [serverName_of_unquoted h, cutName_of_le hshort]

end

end Sqlate
