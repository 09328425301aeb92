import PatternAlgebra.Outline.Basic

/-!
# Rows of an outline

A breakdown and a diagram show an outline row by row: a row for each node, the rows of its details
behind it, and those of its parts behind these. What stands here is common to both and says nothing
about how a row is written.
-/

namespace PatternAlgebra

namespace Outline

mutual

/-- All nodes of an outline, each before its parts. -/
def nodes : Outline → List Outline
  | node kind expression description details children =>
    node kind expression description details children :: nodesOfAll children

def nodesOfAll : List Outline → List Outline
  | [] => []
  | o :: os => nodes o ++ nodesOfAll os

end

/-- A node or a detail, with the number of nodes above it. -/
structure Row where
  depth : Nat
  isDetail : Bool
  text : Text
  deriving DecidableEq

mutual

/-- The rows of an outline whose root stands at a depth. -/
@[simp] def rows (depth : Nat) : Outline → List Row
  | node _ _ description details children =>
    ⟨depth, false, description⟩ ::
      (details.map (⟨depth + 1, true, ·⟩) ++ rowsOfAll (depth + 1) children)

@[simp] def rowsOfAll (depth : Nat) : List Outline → List Row
  | [] => []
  | o :: os => rows depth o ++ rowsOfAll depth os

end

@[simp] theorem head?_rows (depth : Nat) (o : Outline) :
    (rows depth o).head? = some ⟨depth, false, o.description⟩ := by
  cases o
  rfl

theorem head?_rowsOfAll (depth : Nat) (o : Outline) (os : List Outline) (rest : List Row) :
    (rowsOfAll depth (o :: os) ++ rest).head? = some ⟨depth, false, o.description⟩ := by
  simp

/-- A row is about a node if it shows its description or one of its details. -/
def Row.About (row : Row) (n : Outline) : Prop :=
  (row.isDetail = false ∧ row.text = n.description) ∨
    (row.isDetail = true ∧ row.text ∈ n.details)

theorem exists_node_of_mem_rows {row : Row} (o : Outline) :
    ∀ depth, row ∈ rows depth o → ∃ n ∈ o.nodes, row.About n := by
  induction o using inductParts
    (Q := fun os => ∀ depth, row ∈ rowsOfAll depth os → ∃ n ∈ nodesOfAll os, row.About n) with
  | node kind expression description details children ih =>
    intro depth h
    rw [rows, List.mem_cons, List.mem_append, List.mem_map] at h
    rw [nodes]
    rcases h with rfl | ⟨detail, hdetail, rfl⟩ | hpart
    · exact ⟨_, List.mem_cons_self, .inl ⟨rfl, rfl⟩⟩
    · exact ⟨_, List.mem_cons_self, .inr ⟨rfl, hdetail⟩⟩
    · obtain ⟨n, hn, habout⟩ := ih _ hpart
      exact ⟨n, List.mem_cons_of_mem _ hn, habout⟩
  | nil depth h => cases h
  | cons o os iho ihos depth h =>
    rw [rowsOfAll, List.mem_append] at h
    rw [nodesOfAll]
    rcases h with h | h
    · obtain ⟨n, hn, habout⟩ := iho _ h
      exact ⟨n, List.mem_append_left _ hn, habout⟩
    · obtain ⟨n, hn, habout⟩ := ihos _ h
      exact ⟨n, List.mem_append_right _ hn, habout⟩

/-- Descriptions and details are single lines. -/
def OneLined (o : Outline) : Prop :=
  ∀ n ∈ o.nodes, 0x0A ∉ n.description ∧ ∀ detail ∈ n.details, 0x0A ∉ detail

theorem OneLined.lineFeed_not_mem_text {o : Outline} (h : o.OneLined) {depth : Nat} {row : Row}
    (hrow : row ∈ rows depth o) : 0x0A ∉ row.text := by
  obtain ⟨n, hn, ⟨-, htext⟩ | ⟨-, htext⟩⟩ := exists_node_of_mem_rows o depth hrow
  · rw [htext]
    exact (h n hn).1
  · exact (h n hn).2 _ htext

end Outline

end PatternAlgebra
