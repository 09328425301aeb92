import PatternAlgebra.Text.Basic

/-!
# Classes of units

Digits, letters and word units are ASCII. Blanks and line terminators also have members above it.
-/

namespace PatternAlgebra.Text

/-- The digits `0` to `9`. -/
def isDigit (u : CodeUnit) : Bool := 0x30 ≤ u && u ≤ 0x39

/-- The letters `A` to `Z` and `a` to `z`. -/
def isLetter (u : CodeUnit) : Bool := (0x41 ≤ u && u ≤ 0x5A) || (0x61 ≤ u && u ≤ 0x7A)

/-- Letters, digits and the low line. -/
def isWord (u : CodeUnit) : Bool := isLetter u || isDigit u || u == lowLine

/-- The four units that end a line: LF, CR, U+2028 and U+2029. -/
def isLineTerminator (u : CodeUnit) : Bool :=
  u == 0x0A || u == 0x0D || u == 0x2028 || u == 0x2029

/-- White space: the controls TAB to CR, the space separators, the line terminators and the
byte order mark. -/
def isBlank (u : CodeUnit) : Bool :=
  (0x09 ≤ u && u ≤ 0x0D) || u == 0x20 || u == 0xA0 || u == 0x1680 ||
    (0x2000 ≤ u && u ≤ 0x200A) || u == 0x2028 || u == 0x2029 || u == 0x202F ||
    u == 0x205F || u == 0x3000 || u == 0xFEFF

end PatternAlgebra.Text

namespace PatternAlgebra

/-- The classes that have an escape of their own. -/
inductive Shorthand where
  | digit
  | word
  | blank
  deriving DecidableEq

/-- Membership of a unit. -/
def Shorthand.contains : Shorthand → CodeUnit → Bool
  | .digit => Text.isDigit
  | .word => Text.isWord
  | .blank => Text.isBlank

end PatternAlgebra
