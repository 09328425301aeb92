import PatternAlgebra.Text.Class

/-!
# Displayed expressions

A compiled expression shows its text so that it could stand between slashes on one line: a slash
outside a class is quoted, a line terminator is written as an escape, and the empty text becomes an
empty group.
-/

namespace PatternAlgebra.Display

/-- The escape that stands for a line terminator, without its backslash. -/
def lineTerminatorLetters (u : CodeUnit) : Text :=
  if u = 0x0A then utf16 "n"
  else if u = 0x0D then utf16 "r"
  else if u = 0x2028 then utf16 "u2028"
  else utf16 "u2029"

/-- A unit that no backslash precedes. -/
def plainUnit (inClass : Bool) (u : CodeUnit) : Text :=
  if Text.isLineTerminator u then backslash :: lineTerminatorLetters u
  else if u = solidus ∧ inClass = false then [backslash, solidus]
  else [u]

/-- A unit behind a backslash, which is kept. -/
def escapedUnit (u : CodeUnit) : Text :=
  if Text.isLineTerminator u then backslash :: lineTerminatorLetters u else [backslash, u]

/-- Whether the text behind a unit stands in a class. -/
def classBehind (inClass : Bool) (u : CodeUnit) : Bool :=
  if u = openBracket then true else if u = closeBracket then false else inClass

/-- Displays a text that begins inside or outside a class. -/
def displayFrom (inClass : Bool) : Text → Text
  | [] => []
  | u :: rest =>
    if u = backslash then
      match rest with
      | [] => [backslash]
      | v :: after => escapedUnit v ++ displayFrom inClass after
    else plainUnit inClass u ++ displayFrom (classBehind inClass u) rest

/-- A text as a compiled expression shows it. -/
def display (t : Text) : Text := if t = [] then utf16 "(?:)" else displayFrom false t

end PatternAlgebra.Display
