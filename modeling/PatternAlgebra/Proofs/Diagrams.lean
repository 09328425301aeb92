import PatternAlgebra.Outline.Diagram
import PatternAlgebra.Proofs.Breakdowns

/-!
# What a diagram shows

A diagram shows the rows that a breakdown lists, one line each and in the same order, with a cell for
each level instead of an indentation (`same_rows_shown`). Which cells these are is a matter of the
row's trail: on each level down to its own, whether what stands there is the last entry of its node.
-/

namespace PatternAlgebra

namespace Outline

/-! ## Trails -/

/-- The trails of a node's details. `more` says whether parts follow. -/
def detailTrails (lasts : List Bool) (more : Bool) : List Text → List (List Bool)
  | [] => []
  | _ :: rest => (lasts ++ [rest.isEmpty && !more]) :: detailTrails lasts more rest

mutual

/-- The trails of all rows of an outline whose root has a trail. -/
def trails (lasts : List Bool) : Outline → List (List Bool)
  | node _ _ _ details children =>
    lasts :: (detailTrails lasts (!children.isEmpty) details ++ partTrails lasts children)

def partTrails (lasts : List Bool) : List Outline → List (List Bool)
  | [] => []
  | o :: os => trails (lasts ++ [os.isEmpty]) o ++ partTrails lasts os

end

/-- A trail leads to a row if it is as long as the row is deep. -/
def LeadsTo (trail : List Bool) (row : Row) : Prop := trail.length = row.depth

theorem detailTrails_rows (lasts : List Bool) (more : Bool) (details : List Text) :
    List.Forall₂ LeadsTo (detailTrails lasts more details)
      (details.map (Row.mk (lasts.length + 1) true ·)) := by
  induction details with
  | nil => exact .nil
  | cons detail details ih => exact .cons (List.length_append ..) ih

/-- The trails of an outline lead to its rows. -/
theorem trails_rows (o : Outline) : ∀ lasts : List Bool,
    List.Forall₂ LeadsTo (trails lasts o) (rows lasts.length o) := by
  induction o using inductParts (Q := fun os => ∀ lasts : List Bool,
      List.Forall₂ LeadsTo (partTrails lasts os) (rowsOfAll (lasts.length + 1) os)) with
  | node kind expression description details children ih =>
    intro lasts
    exact .cons rfl (List.rel_append (detailTrails_rows lasts _ details) (ih lasts))
  | nil lasts => exact .nil
  | cons o os iho ihos lasts =>
    have hlength : (lasts ++ [os.isEmpty]).length = lasts.length + 1 := List.length_append ..
    refine List.rel_append ?_ (ihos lasts)
    rw [← hlength]
    exact iho _

/-! ## Cells -/

/-- The cells of a trail: one for each level above, and its own. -/
def cells (trail : List Bool) : List Text :=
  trail.dropLast.map continuation ++ trail.getLast?.toList.map connector

@[simp] theorem cells_concat (lasts : List Bool) (last : Bool) :
    cells (lasts ++ [last]) = lasts.map continuation ++ [connector last] := by
  simp [cells]

@[simp] theorem length_cells (trail : List Bool) : (cells trail).length = trail.length := by
  rcases List.eq_nil_or_concat' trail with rfl | ⟨lasts, last, rfl⟩
  · rfl
  · simp

/-- The line of a row with a trail. -/
def drawnLine (trail : List Bool) (row : Row) : Text := (cells trail).flatten ++ row.text

theorem detailLines_eq (lasts : List Bool) (more : Bool) (depth : Nat) (details : List Text) :
    detailLines (lasts.map continuation).flatten more details =
      List.zipWith drawnLine (detailTrails lasts more details)
        (details.map (Row.mk depth true ·)) := by
  induction details with
  | nil => rfl
  | cons detail details ih =>
    simp [detailLines, detailTrails, drawnLine, ih]

/-- A node has its line, and those under it. -/
theorem entryLines_eq (o : Outline) : ∀ lasts : List Bool,
    ((cells lasts).flatten ++ o.description) :: entryLines (lasts.map continuation).flatten o =
      List.zipWith drawnLine (trails lasts o) (rows lasts.length o) := by
  induction o using inductParts (Q := fun os => ∀ lasts : List Bool,
      childLines (lasts.map continuation).flatten os =
        List.zipWith drawnLine (partTrails lasts os) (rowsOfAll (lasts.length + 1) os)) with
  | node kind expression description details children ih =>
    intro lasts
    rw [entryLines, trails, rows, List.zipWith_cons_cons,
      List.zipWith_append (detailTrails_rows lasts _ details).length_eq, ← detailLines_eq, ← ih]
    rfl
  | nil lasts => rfl
  | cons o os iho ihos lasts =>
    have hlength : (lasts ++ [os.isEmpty]).length = lasts.length + 1 := List.length_append ..
    have hpart := trails_rows o (lasts ++ [os.isEmpty])
    have hlines := iho (lasts ++ [os.isEmpty])
    rw [hlength] at hpart hlines
    rw [childLines, partTrails, rowsOfAll, List.zipWith_append hpart.length_eq, ← hlines, ihos]
    simp

theorem continuation_cases (last : Bool) : continuation last = bar ∨ continuation last = gap := by
  cases last with
  | true => exact .inr rfl
  | false => exact .inl rfl

theorem connector_cases (last : Bool) : connector last = branch ∨ connector last = lastBranch := by
  cases last with
  | true => exact .inr rfl
  | false => exact .inl rfl

/-- The cells of the levels above are no connectors. -/
theorem mem_dropLast_cells {trail : List Bool} {cell : Text} (h : cell ∈ (cells trail).dropLast) :
    cell = bar ∨ cell = gap := by
  rcases List.eq_nil_or_concat' trail with rfl | ⟨lasts, last, rfl⟩
  · cases h
  · rw [cells_concat, List.dropLast_concat, List.mem_map] at h
    obtain ⟨above, -, rfl⟩ := h
    exact continuation_cases above

/-- A row's own cell is a connector. -/
theorem mem_getLast?_cells {trail : List Bool} {cell : Text}
    (h : cell ∈ (cells trail).getLast?) : cell = branch ∨ cell = lastBranch := by
  rcases List.eq_nil_or_concat' trail with rfl | ⟨lasts, last, rfl⟩
  · cases h
  · rw [cells_concat, List.getLast?_concat] at h
    obtain rfl := Option.some.inj h
    exact connector_cases last

theorem mem_cells {trail : List Bool} {cell : Text} (h : cell ∈ cells trail) :
    (cell = bar ∨ cell = gap) ∨ cell = branch ∨ cell = lastBranch := by
  have hne := List.ne_nil_of_mem h
  rw [← List.dropLast_concat_getLast hne, List.mem_append, List.mem_singleton] at h
  rcases h with h | rfl
  · exact .inl (mem_dropLast_cells h)
  · exact .inr (mem_getLast?_cells (List.getLast?_eq_some_getLast hne))

theorem length_of_mem_cells {trail : List Bool} {cell : Text} (h : cell ∈ cells trail) :
    cell.length = 4 := by
  rcases mem_cells h with (rfl | rfl) | rfl | rfl <;> decide +kernel

theorem lineFeed_not_mem_drawnLine {trail : List Bool} {row : Row} (h : 0x0A ∉ row.text) :
    0x0A ∉ drawnLine trail row := by
  have hcells : 0x0A ∉ bar ∧ 0x0A ∉ gap ∧ 0x0A ∉ branch ∧ 0x0A ∉ lastBranch := by decide +kernel
  rw [drawnLine, List.mem_append, List.mem_flatten, not_or]
  refine ⟨?_, h⟩
  rintro ⟨cell, hcell, hmem⟩
  rcases mem_cells hcell with (rfl | rfl) | rfl | rfl
  · exact hcells.1 hmem
  · exact hcells.2.1 hmem
  · exact hcells.2.2.1 hmem
  · exact hcells.2.2.2 hmem

/-! ## Lines of both -/

/-- The lines of a diagram between its heading and its blank line. -/
def drawnLines (o : Outline) : List Text := List.zipWith drawnLine (trails [] o) (rows 0 o)

theorem lineFeed_not_mem_drawnLines {o : Outline} (h : o.OneLined) :
    ∀ line ∈ o.drawnLines, 0x0A ∉ line := by
  rw [drawnLines, ← List.map_uncurry_zip_eq_zipWith, List.forall_mem_map]
  rintro ⟨trail, row⟩ hpair
  exact lineFeed_not_mem_drawnLine (h.lineFeed_not_mem_text (List.of_mem_zip hpair).2)

/-- A diagram has its rows between its heading and a blank line, and the expression at its end. -/
theorem splitOn_visualize {o : Outline} (h : o.OneLined) :
    (visualize o).splitOn 0x0A = utf16 "Pattern Structure:" :: o.drawnLines ++
      [] :: (utf16 "Regex: " ++ o.expression).splitOn 0x0A := by
  have hword : 0x0A ∉ utf16 "Pattern Structure:" := by decide +kernel
  have hlines : o.description :: entryLines [] o = o.drawnLines := o.entryLines_eq []
  have hsingle : ∀ line ∈ utf16 "Pattern Structure:" :: o.drawnLines ++ [[]], 0x0A ∉ line := by
    rw [List.forall_mem_append, List.forall_mem_cons, List.forall_mem_singleton]
    exact ⟨⟨hword, lineFeed_not_mem_drawnLines h⟩, List.not_mem_nil⟩
  rw [visualize, List.cons_append, hlines, ← List.cons_append, List.append_cons,
    splitOn_lines (List.append_ne_nil_of_right_ne_nil _ (List.cons_ne_nil _ _)),
    List.flatMap_append, flatMap_splitOn hsingle, List.flatMap_singleton, ← List.append_cons]

/-- A line of a breakdown shows a row: behind two spaces for each level, those of the root included,
stands its text, and a dash before it if it is a detail. -/
def Row.ListedAs (row : Row) (line : Text) : Prop :=
  line = List.replicate (2 * (row.depth + 1)) 0x20 ++ (if row.isDetail then utf16 "- " else []) ++
    row.text

/-- A line of a diagram shows a row: behind a cell of four units for each level stands its text. The
last cell is a connector, and those before it are none. -/
def Row.DrawnAs (row : Row) (line : Text) : Prop :=
  ∃ cells : List Text, cells.length = row.depth ∧ (∀ cell ∈ cells, cell.length = 4) ∧
    (∀ cell ∈ cells.dropLast, cell = bar ∨ cell = gap) ∧
    (∀ cell ∈ cells.getLast?, cell = branch ∨ cell = lastBranch) ∧ line = cells.flatten ++ row.text

theorem drawnAs_drawnLine {trail : List Bool} {row : Row} (h : LeadsTo trail row) :
    row.DrawnAs (drawnLine trail row) :=
  ⟨cells trail, (length_cells trail).trans h, fun _ => length_of_mem_cells,
    fun _ => mem_dropLast_cells, fun _ => mem_getLast?_cells, rfl⟩

theorem drawnAs_zipWith {ts : List (List Bool)} {rs : List Row} (h : List.Forall₂ LeadsTo ts rs) :
    List.Forall₂ Row.DrawnAs rs (List.zipWith drawnLine ts rs) := by
  induction h with
  | nil => exact .nil
  | cons hleads _ ih => exact .cons (drawnAs_drawnLine hleads) ih

theorem drawnAs_drawnLines (o : Outline) : List.Forall₂ Row.DrawnAs (rows 0 o) o.drawnLines :=
  drawnAs_zipWith (trails_rows o [])

/-- An explanation ends in a line for each row, and a diagram has a line for each row between its
heading and a blank line. There are as many of one as of the other, and the lines of a row show it
both, at its depth. -/
theorem same_rows_shown {o : Outline} (h : o.OneLined) :
    ∃ listed drawn : List Text,
      (explain o).splitOn 0x0A = (utf16 "Pattern: " ++ o.expression).splitOn 0x0A ++
        (utf16 "Type: " ++ utf16 o.kind.typeName) :: utf16 "Breakdown:" :: listed ∧
      (visualize o).splitOn 0x0A = utf16 "Pattern Structure:" :: drawn ++
        [] :: (utf16 "Regex: " ++ o.expression).splitOn 0x0A ∧
      listed.length = drawn.length ∧
      List.Forall₂ Row.ListedAs (rows 0 o) listed ∧ List.Forall₂ Row.DrawnAs (rows 0 o) drawn := by
  have hlisted : List.Forall₂ Row.ListedAs (rows 0 o) ((rows 0 o).map Row.listed) := by
    rw [List.forall₂_map_right_iff, List.forall₂_same]
    exact fun row _ => (List.append_assoc _ _ _).symm
  refine ⟨_, _, splitOn_explain h, splitOn_visualize h, ?_, hlisted, drawnAs_drawnLines o⟩
  exact hlisted.length_eq.symm.trans (drawnAs_drawnLines o).length_eq

/-- A root with a detail and a part, which has two details and two parts of its own, one of them
without any text. -/
def bushy : Outline :=
  .node .sequence (utf16 "a\n\nb") (utf16 "- r") [utf16 "│   d"]
    [.node .either (utf16 "x") (utf16 "    p") [utf16 "", utf16 "- e"]
      [.node .digit (utf16 "y") [] [] [], .node .digit (utf16 "z") (utf16 "└── q") [] []]]

theorem bushy_rows_shown :
    bushy.OneLined ∧ ∃ listed drawn : List Text,
      (explain bushy).splitOn 0x0A = [utf16 "Pattern: a", [], utf16 "b", utf16 "Type: Sequence",
        utf16 "Breakdown:"] ++ listed ∧
      (visualize bushy).splitOn 0x0A = utf16 "Pattern Structure:" :: drawn ++
        [[], utf16 "Regex: a", [], utf16 "b"] ∧
      listed.length = drawn.length ∧ List.Forall₂ Row.ListedAs (rows 0 bushy) listed ∧
      List.Forall₂ Row.DrawnAs (rows 0 bushy) drawn := by
  have hlines : bushy.OneLined := by
    simp only [OneLined]
    decide +kernel
  have hexpression : (utf16 "Pattern: " ++ bushy.expression).splitOn 0x0A ++
      [utf16 "Type: " ++ utf16 bushy.kind.typeName, utf16 "Breakdown:"] =
        [utf16 "Pattern: a", [], utf16 "b", utf16 "Type: Sequence", utf16 "Breakdown:"] ∧
      (utf16 "Regex: " ++ bushy.expression).splitOn 0x0A = [utf16 "Regex: a", [], utf16 "b"] := by
    decide +kernel
  obtain ⟨listed, drawn, hlisted, hdrawn, hshown⟩ := same_rows_shown hlines
  refine ⟨hlines, listed, drawn, ?_, ?_, hshown⟩
  · rw [hlisted, ← hexpression.1, List.append_assoc]
    rfl
  · rw [hdrawn, hexpression.2]

end Outline

end PatternAlgebra
