import PatternAlgebra.Outline.Basic

/-!
# Diagrams

A diagram draws an outline as a tree. Under a node stand its details and then its parts; each line
begins with one four-unit cell per level: a bar or a gap for the levels above, according to whether
more is to come there, and a branch for its own.
-/

namespace PatternAlgebra.Outline

/-- The cell of a line with another entry of the same node below. -/
def branch : Text := utf16 "├── "

/-- The cell of the last entry of a node. -/
def lastBranch : Text := utf16 "└── "

/-- The cell under a branch. -/
def bar : Text := utf16 "│   "

/-- The cell under a last branch. -/
def gap : Text := utf16 "    "

/-- The cell of an entry, given whether it is the last one. -/
def connector (last : Bool) : Text := if last then lastBranch else branch

/-- The cell that continues an entry's level below it. -/
def continuation (last : Bool) : Text := if last then gap else bar

/-- The lines of a node's details. `more` says whether parts follow. -/
def detailLines (lead : Text) (more : Bool) : List Text → List Text
  | [] => []
  | detail :: rest =>
    (lead ++ connector (rest.isEmpty && !more) ++ detail) :: detailLines lead more rest

mutual

/-- The lines under a node, each behind the cells of the levels above. -/
def entryLines (lead : Text) : Outline → List Text
  | node _ _ _ details children =>
    detailLines lead (!children.isEmpty) details ++ childLines lead children

/-- The lines of the parts of a node. -/
def childLines (lead : Text) : List Outline → List Text
  | [] => []
  | o :: os =>
    (lead ++ connector os.isEmpty ++ o.description) ::
      (entryLines (lead ++ continuation os.isEmpty) o ++ childLines lead os)

end

/-- The tree of an outline, and its expression. -/
def visualize (o : Outline) : Text :=
  Text.lines (utf16 "Pattern Structure:" :: o.description :: entryLines [] o ++
    [[], utf16 "Regex: " ++ o.expression])

end PatternAlgebra.Outline
