import PatternAlgebra.Outline.Basic

/-!
# Breakdowns

A breakdown lists the nodes of an outline from the root down, one line each, the parts of a node
two spaces deeper than the node. Details follow their node at the depth of its parts, behind a dash.
-/

namespace PatternAlgebra.Outline

/-- Two spaces for each level. -/
def indent (depth : Nat) : Text := List.replicate (2 * depth) 0x20

mutual

/-- The lines of an outline whose root stands at a depth. -/
def breakdownLines (depth : Nat) : Outline → List Text
  | node _ _ description details children =>
    (indent depth ++ description) ::
      (details.map (fun detail => indent (depth + 1) ++ utf16 "- " ++ detail) ++
        breakdownLinesOfAll (depth + 1) children)

def breakdownLinesOfAll (depth : Nat) : List Outline → List Text
  | [] => []
  | o :: os => breakdownLines depth o ++ breakdownLinesOfAll depth os

end

/-- The expression, the type of the root, and the lines of all nodes. -/
def explain (o : Outline) : Text :=
  Text.lines ((utf16 "Pattern: " ++ o.expression) :: (utf16 "Type: " ++ utf16 o.kind.typeName) ::
    utf16 "Breakdown:" :: breakdownLines 1 o)

end PatternAlgebra.Outline
