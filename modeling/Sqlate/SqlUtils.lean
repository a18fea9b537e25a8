/-
Sqlate/SqlUtils.lean

The text functions of `SqlUtils`.

`stripComments` removes every match of the regular expression
`--.+([\n\r]{1,2};?|$)`, where a period stands for any character, a dollar for
the end of the text only, and every quantifier takes as little as it can.  A
match therefore is two hyphens, one character of any kind, and what follows up
to the first line end, of which one character is taken, or up to the end of
the text.
-/
import Sqlate.Qt.QString

namespace Sqlate.SqlUtils

def hyphen : QChar := QChar.ofChar '-'

def semicolon : QChar := QChar.ofChar ';'

def newline : QChar := QChar.ofChar '\n'

/-- A character of `[\n\r]`. -/
def isLineEnd (c : QChar) : Bool := c = newline || c = QChar.ofChar '\r'

/-- `query.remove( re )`; `true` is inside of a match, after its first three
characters. -/
def removeMatches : Bool → QString → QString
  | _, [] => []
  | true, c :: s => if isLineEnd c then removeMatches false s else removeMatches true s
  | false, [a] => [a]
  | false, [a, b] => [a, b]
  | false, a :: b :: c :: s =>
      if a = hyphen ∧ b = hyphen then removeMatches true s
      else a :: removeMatches false (b :: c :: s)

def stripComments (query : QString) : QString := (removeMatches false query).trimmed

/-- `QString::split` at `";\n"`, empty parts included. -/
def parts : QString → List QString
  | [] => [[]]
  | [c] => [[c]]
  | c :: d :: s =>
      if c = semicolon ∧ d = newline then [] :: parts s
      else
        match parts (d :: s) with
        | [] => [[c]]
        | p :: ps => (c :: p) :: ps

/-- The parts between the separators that are not empty. -/
def splitQueries (queries : QString) : List QString := (parts queries).filter (· ≠ [])

end Sqlate.SqlUtils
