import PatternAlgebra.Text.Class

/-!
# Grouping before a quantifier

A quantifier applies to the atom before it, so other text is put into a group first. The test is
textual: a full stop, a backslash with one unit, and text between a first `[` and a last `]` pass
for one atom. Two classes side by side pass as well, and a line terminator makes any text fail.
-/

namespace PatternAlgebra

/-- Text between square brackets with something between them, on one line. -/
def isBracketed : Text → Bool
  | openBracket :: rest =>
    2 ≤ rest.length && rest.getLast? == some closeBracket &&
      !rest.dropLast.any Text.isLineTerminator
  | _ => false

/-- A backslash and one unit that does not end the line. -/
def isEscapedUnit : Text → Bool
  | [backslash, u] => !Text.isLineTerminator u
  | _ => false

/-- Whether text is put into a group before a quantifier. -/
def needsGrouping (t : Text) : Bool := !(t == [fullStop] || isBracketed t || isEscapedUnit t)

/-- Text in a group that captures nothing. -/
def grouped (t : Text) : Text := openParen :: questionMark :: colon :: (t ++ [closeParen])

/-- Text with a quantifier, in a group where needed. -/
def quantify (t quantifier : Text) : Text :=
  if needsGrouping t then grouped t ++ quantifier else t ++ quantifier

end PatternAlgebra
