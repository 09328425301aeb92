import PatternAlgebra.Text.Class

/-!
# Anchors

An anchor is a condition on a position in a text. It consumes nothing. Line anchors hold at the
ends of the text and, where lines count, beside a line terminator; input anchors hold at the ends of
the text only.
-/

namespace PatternAlgebra

inductive Anchor where
  | lineStart
  | lineEnd
  | inputStart
  | inputEnd
  deriving DecidableEq

/-- Whether an anchor holds at a position of the text with these units. `multiline` says whether
lines count. -/
def Anchor.holds (units : Array CodeUnit) (multiline : Bool) (position : Nat) : Anchor → Bool
  | .inputStart => position == 0
  | .inputEnd => position == units.size
  | .lineStart =>
    position == 0 || (multiline && (units[position - 1]?).any Text.isLineTerminator)
  | .lineEnd =>
    position == units.size || (multiline && (units[position]?).any Text.isLineTerminator)

/-! Input anchors take no notice of lines. -/

@[simp] theorem Anchor.holds_inputStart (units : Array CodeUnit) (multiline : Bool)
    (position : Nat) : inputStart.holds units multiline position = (position == 0) := rfl

@[simp] theorem Anchor.holds_inputEnd (units : Array CodeUnit) (multiline : Bool)
    (position : Nat) : inputEnd.holds units multiline position = (position == units.size) := rfl

end PatternAlgebra
