import PatternAlgebra.Pattern.Grouping

/-!
# Lowering of input anchors

The engine has no `\A` and `\z`. Lowering writes assertions on the ends of the input in their place,
grouped so that a quantifier behind them still has an atom to apply to. A backslash is read together
with the unit after it, so a quoted backslash before `A` stays as it is.

The assertions are negative look-arounds over the class of all units. The reader knows these two by
their spelling and no others.
-/

namespace PatternAlgebra.Lowering

/-- An assertion that holds at the start of the input only. -/
def inputStartText : Text := utf16 "(?:(?<![\\s\\S]))"

/-- An assertion that holds at the end of the input only. -/
def inputEndText : Text := utf16 "(?:(?![\\s\\S]))"

/-- What an escape of the unit becomes. -/
def lowerEscape (u : CodeUnit) : Text :=
  if u = upperA then inputStartText else if u = lowerZ then inputEndText else [backslash, u]

/-- Writes assertions for the input anchors of a text. -/
def lower : Text → Text
  | [] => []
  | u :: rest =>
    if u = backslash then
      match rest with
      | [] => [backslash]
      | v :: after => lowerEscape v ++ lower after
    else u :: lower rest

/-- A lowered text that has to span the whole input. -/
def spanning (body : Text) : Text := inputStartText ++ grouped body ++ inputEndText

@[simp] theorem lower_nil : lower [] = [] := rfl

@[simp] theorem lower_unit {u : CodeUnit} (h : u ≠ backslash) (rest : Text) :
    lower (u :: rest) = u :: lower rest := by
  rw [lower.eq_def]
  simp [h]

@[simp] theorem lower_escape (u : CodeUnit) (rest : Text) :
    lower (backslash :: u :: rest) = lowerEscape u ++ lower rest := by
  simp [lower]

end PatternAlgebra.Lowering
