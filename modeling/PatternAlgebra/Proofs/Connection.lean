import PatternAlgebra.Proofs.Diagrams

/-!
# The lines of a diagram join

Read down a column, a diagram is drawn without gaps: what goes on below a cell is joined there, and
nothing is joined to a cell that ends (`diagram_connected`). From row to row the trail either gets
one level longer, or passes to the next entry of a node above, across levels that have ended; the
rest follows from this, and from the last row's having ended on all levels.
-/

namespace PatternAlgebra

namespace Outline

/-! ## From row to row -/

/-- The trail of the next row: one level deeper, or beside an entry that was not the last, once all
below that entry has ended. -/
inductive Follows : List Bool → List Bool → Prop where
  | under (lasts : List Bool) (last : Bool) : Follows lasts (lasts ++ [last])
  | beside (lasts ended : List Bool) (last : Bool) (h : ∀ b ∈ ended, b = true) :
      Follows (lasts ++ false :: ended) (lasts ++ [last])

/-- Trails that follow one another, from one behind the first to the last of them. -/
inductive Walk : List Bool → List (List Bool) → List Bool → Prop where
  | done (trail : List Bool) : Walk trail [] trail
  | step {before trail finish : List Bool} {rest : List (List Bool)} (h : Follows before trail)
      (hrest : Walk trail rest finish) : Walk before (trail :: rest) finish

theorem Walk.append {start middle finish : List Bool} {ts us : List (List Bool)}
    (h : Walk start ts middle) (h' : Walk middle us finish) : Walk start (ts ++ us) finish := by
  induction h with
  | done trail => exact h'
  | step hfollows _ ih => exact .step hfollows (ih h')

/-- Below a row of a walk comes one that follows it, unless it is the last. -/
theorem Walk.next {start finish : List Bool} {ts : List (List Bool)} (h : Walk start ts finish)
    {m : Nat} {trail : List Bool} (htrail : (start :: ts)[m]? = some trail) :
    (∃ below, (start :: ts)[m + 1]? = some below ∧ Follows trail below) ∨
      ((start :: ts)[m + 1]? = none ∧ trail = finish) := by
  induction h generalizing m with
  | done trail =>
    cases m with
    | zero => exact .inr ⟨rfl, (Option.some.inj htrail).symm⟩
    | succ m => cases htrail
  | step hfollows _ ih =>
    cases m with
    | zero =>
      obtain rfl := Option.some.inj htrail
      exact .inl ⟨_, rfl, hfollows⟩
    | succ m => exact ih htrail

theorem Walk.follows {start finish : List Bool} {ts : List (List Bool)}
    (h : Walk start ts finish) {m : Nat} {trail below : List Bool}
    (htrail : (start :: ts)[m]? = some trail) (hbelow : (start :: ts)[m + 1]? = some below) :
    Follows trail below := by
  rcases h.next htrail with ⟨below', hbelow', hfollows⟩ | ⟨hnone, -⟩
  · rw [hbelow] at hbelow'
    rwa [Option.some.inj hbelow']
  · rw [hbelow] at hnone
    cases hnone

/-- An entry with nothing under it. -/
def leaf (t : Text) : Outline := .node .literal [] t [] []

/-- Details take part in a walk as entries with nothing under them. -/
theorem detailTrails_append (lasts : List Bool) (details : List Text) (children : List Outline) :
    detailTrails lasts (!children.isEmpty) details ++ partTrails lasts children =
      partTrails lasts (details.map leaf ++ children) := by
  induction details with
  | nil => rfl
  | cons detail details ih =>
    have hlast : (details.isEmpty && !!children.isEmpty) =
        (details.map leaf ++ children).isEmpty := by
      rw [Bool.not_not]
      cases details <;> rfl
    rw [detailTrails, List.cons_append, ih, hlast]
    rfl

/-- The rows under a node make up a walk that ends on all levels below the node. -/
def EndsWalk (o : Outline) : Prop :=
  ∀ lasts, ∃ below ended, trails lasts o = lasts :: below ∧ (∀ b ∈ ended, b = true) ∧
    Walk lasts below (lasts ++ ended)

theorem walk_partTrails {os : List Outline} (h : ∀ o ∈ os, EndsWalk o) {lasts before : List Bool}
    (hbefore : ∀ last, Follows before (lasts ++ [last])) (hne : os ≠ []) :
    ∃ ended, (∀ b ∈ ended, b = true) ∧ Walk before (partTrails lasts os) (lasts ++ ended) := by
  induction os generalizing before with
  | nil => contradiction
  | cons o os ih =>
    obtain ⟨ho, hos⟩ := List.forall_mem_cons.1 h
    obtain ⟨below, ended, htrails, hended, hwalk⟩ := ho (lasts ++ [os.isEmpty])
    rw [List.append_assoc, List.singleton_append] at hwalk
    rw [partTrails, htrails]
    -- The last entry's end is that of all of them; any other leaves its level open for the next.
    cases hempty : os.isEmpty with
    | true =>
      rw [List.isEmpty_iff] at hempty
      subst hempty
      refine ⟨true :: ended, List.forall_mem_cons.2 ⟨rfl, hended⟩, ?_⟩
      rw [partTrails, List.append_nil]
      exact .step (hbefore true) hwalk
    | false =>
      rw [hempty] at hwalk
      obtain ⟨ended', hended', hwalk'⟩ := ih hos (fun last => .beside lasts ended last hended)
        (by simpa using hempty)
      exact ⟨ended', hended', .step (hbefore false) (hwalk.append hwalk')⟩

theorem walk_below {os : List Outline} (h : ∀ o ∈ os, EndsWalk o) (lasts : List Bool) :
    ∃ ended, (∀ b ∈ ended, b = true) ∧ Walk lasts (partTrails lasts os) (lasts ++ ended) := by
  cases os with
  | nil =>
    refine ⟨[], List.forall_mem_nil _, ?_⟩
    rw [List.append_nil]
    exact .done lasts
  | cons o os => exact walk_partTrails h (fun last => .under lasts last) (List.cons_ne_nil o os)

theorem endsWalk (o : Outline) : EndsWalk o := by
  induction o using induct with
  | node kind expression description details children ih =>
    have hleaf : ∀ detail ∈ details, EndsWalk (leaf detail) := by
      intro detail _ lasts
      obtain ⟨ended, hended, hwalk⟩ := walk_below (List.forall_mem_nil EndsWalk) lasts
      exact ⟨_, ended, rfl, hended, hwalk⟩
    have hentries : ∀ o ∈ details.map leaf ++ children, EndsWalk o := by
      rw [List.forall_mem_append, List.forall_mem_map]
      exact ⟨hleaf, ih⟩
    intro lasts
    obtain ⟨ended, hended, hwalk⟩ := walk_below hentries lasts
    rw [trails, detailTrails_append]
    exact ⟨_, ended, rfl, hended, hwalk⟩

/-! ## From cell to cell -/

section Cells

variable {lasts trail below : List Bool} {last : Bool} {j : Nat}

theorem getElem?_cells_above (h : j < lasts.length) :
    (cells (lasts ++ [last]))[j]? = lasts[j]?.map continuation := by
  rw [cells_concat, List.getElem?_append_left (by rwa [List.length_map]), List.getElem?_map]

theorem getElem?_cells_own : (cells (lasts ++ [last]))[lasts.length]? = some (connector last) := by
  have hle : (lasts.map continuation).length ≤ lasts.length := Nat.le_of_eq (List.length_map _)
  rw [cells_concat, List.getElem?_append_right hle, List.length_map, Nat.sub_self]
  rfl

theorem getElem?_cells (trail : List Bool) (j : Nat) :
    (cells trail)[j]? =
      trail[j]?.map (fun b => if j + 1 = trail.length then connector b else continuation b) := by
  rcases List.eq_nil_or_concat' trail with rfl | ⟨lasts, last, rfl⟩
  · rfl
  · have hlength : (lasts ++ [last]).length = lasts.length + 1 := List.length_append ..
    rcases Nat.lt_trichotomy j lasts.length with hj | rfl | hj
    · have hne : j + 1 ≠ (lasts ++ [last]).length := by omega
      rw [getElem?_cells_above hj, List.getElem?_append_left hj]
      simp only [if_neg hne]
    · rw [getElem?_cells_own, List.getElem?_concat_length, Option.map_some, if_pos hlength.symm]
    · have hcells := length_cells (lasts ++ [last])
      rw [List.getElem?_eq_none (by omega), List.getElem?_eq_none (by omega), Option.map_none]

/-- On an open level stands a branch or a bar. -/
theorem opens_iff :
    (cells trail)[j]? = some branch ∨ (cells trail)[j]? = some bar ↔ trail[j]? = some false := by
  have hconnector : ∀ b, connector b = branch ∨ connector b = bar ↔ b = false := by decide +kernel
  have hcontinuation : ∀ b, continuation b = branch ∨ continuation b = bar ↔ b = false := by
    decide +kernel
  rw [getElem?_cells]
  cases trail[j]? with
  | none => simp
  | some b =>
    rw [Option.map_some, Option.some_inj, Option.some_inj, Option.some_inj]
    split
    · exact hconnector b
    · exact hcontinuation b

/-- A last branch stands on a row's own level, and that is closed. -/
theorem ends_of_lastBranch (h : (cells trail)[j]? = some lastBranch) :
    j + 1 = trail.length ∧ trail[j]? = some true := by
  have hconnector : ∀ b, connector b = lastBranch → b = true := by decide +kernel
  have hcontinuation : ∀ b, continuation b ≠ lastBranch := by decide +kernel
  rw [getElem?_cells, Option.map_eq_some_iff] at h
  obtain ⟨b, hb, hcell⟩ := h
  split at hcell
  next hown =>
    rw [hconnector b hcell] at hb
    exact ⟨hown, hb⟩
  · exact absurd hcell (hcontinuation b)

/-- Where all that is below an entry has ended, no level under it is open. -/
theorem le_of_open {ended : List Bool} (hended : ∀ b ∈ ended, b = true)
    (hj : (lasts ++ false :: ended)[j]? = some false) : j ≤ lasts.length := by
  refine Nat.le_of_not_lt (fun hlt => ?_)
  obtain ⟨k, rfl⟩ := Nat.exists_eq_add_of_lt hlt
  have hindex : lasts.length + k + 1 - lasts.length = k + 1 := by omega
  rw [List.getElem?_append_right (by omega), hindex, List.getElem?_cons_succ] at hj
  cases hended false (List.mem_of_getElem? hj)

/-- What joins the line above is below an open level, or the row's own connector. -/
theorem open_or_own (hj : (cells (lasts ++ [last]))[j]? = some bar ∨
    (cells (lasts ++ [last]))[j]? = some branch ∨
      (cells (lasts ++ [last]))[j]? = some lastBranch) :
    lasts[j]? = some false ∨ lasts.length = j := by
  have hcontinuation : ∀ b, continuation b = bar ∨ continuation b = branch ∨
      continuation b = lastBranch → b = false := by
    decide +kernel
  rcases Nat.lt_trichotomy j lasts.length with hlt | rfl | hgt
  · rw [getElem?_cells_above hlt, List.getElem?_eq_getElem hlt, Option.map_some, Option.some_inj,
      Option.some_inj, Option.some_inj] at hj
    rw [List.getElem?_eq_getElem hlt, hcontinuation _ hj]
    exact .inl rfl
  · exact .inr rfl
  · have hlength := length_cells (lasts ++ [last])
    rw [List.length_append, List.length_singleton] at hlength
    rw [List.getElem?_eq_none (by omega)] at hj
    simp at hj

theorem Follows.downward (h : Follows trail below) (hj : trail[j]? = some false) :
    (cells below)[j]? = some bar ∨ (cells below)[j]? = some branch ∨
      (cells below)[j]? = some lastBranch := by
  cases h with
  | under _ last =>
    obtain ⟨hlt, -⟩ := List.getElem?_eq_some_iff.1 hj
    rw [getElem?_cells_above hlt, hj]
    exact .inl rfl
  | beside lasts ended last hended =>
    rcases Nat.lt_or_eq_of_le (le_of_open hended hj) with hlt | rfl
    · rw [List.getElem?_append_left hlt] at hj
      rw [getElem?_cells_above hlt, hj]
      exact .inl rfl
    · rw [getElem?_cells_own, Option.some_inj, Option.some_inj, Option.some_inj]
      exact .inr (connector_cases last)

theorem Follows.closed (h : Follows trail below) (hj : (cells trail)[j]? = some lastBranch)
    (hdeeper : j + 1 < below.length) : (cells below)[j]? = some gap := by
  obtain ⟨hown, hlast⟩ := ends_of_lastBranch hj
  cases h with
  | under _ last =>
    rw [getElem?_cells_above (by omega), hlast]
    rfl
  | beside lasts ended last hended =>
    rw [List.length_append, List.length_cons] at hown
    rw [List.length_append, List.length_singleton] at hdeeper
    omega

theorem Follows.upward (h : Follows trail below)
    (hj : (cells below)[j]? = some bar ∨ (cells below)[j]? = some branch ∨
      (cells below)[j]? = some lastBranch) : trail[j]? = some false ∨ trail.length = j := by
  cases h with
  | under _ last => exact open_or_own hj
  | beside lasts ended last hended =>
    rcases open_or_own hj with hopen | rfl
    · obtain ⟨hlt, -⟩ := List.getElem?_eq_some_iff.1 hopen
      rw [List.getElem?_append_left hlt]
      exact .inl hopen
    · rw [List.getElem?_append_right (Nat.le_refl _), Nat.sub_self]
      exact .inl rfl

end Cells

/-! ## From line to line -/

/-- The first cells of a line, four units each. -/
def cellsOf : Nat → Text → List Text
  | 0, _ => []
  | depth + 1, line => line.take 4 :: cellsOf depth (line.drop 4)

theorem cellsOf_flatten {cs : List Text} (h : ∀ cell ∈ cs, cell.length = 4) (t : Text) :
    cellsOf cs.length (cs.flatten ++ t) = cs := by
  induction cs with
  | nil => rfl
  | cons cell cs ih =>
    obtain ⟨hcell, hcs⟩ := List.forall_mem_cons.1 h
    rw [List.length_cons, cellsOf, List.flatten_cons, List.append_assoc, List.take_left' hcell,
      List.drop_left' hcell, ih hcs]

/-- The cells of all lines of a diagram, each line having as many as its row is deep. -/
def grid (o : Outline) (drawn : List Text) : List (List Text) :=
  List.zipWith (fun row line => cellsOf row.depth line) (rows 0 o) drawn

theorem cellsOf_zipWith {ts : List (List Bool)} {rs : List Row} (h : List.Forall₂ LeadsTo ts rs) :
    List.zipWith (fun row line => cellsOf row.depth line) rs (List.zipWith drawnLine ts rs) =
      ts.map cells := by
  induction h with
  | nil => rfl
  | @cons trail row ts rs hleads _ ih =>
    have hdepth : row.depth = (cells trail).length := hleads.symm.trans (length_cells trail).symm
    have hcells : cellsOf row.depth (drawnLine trail row) = cells trail := by
      rw [hdepth]
      exact cellsOf_flatten (fun cell => length_of_mem_cells) row.text
    rw [List.zipWith_cons_cons, List.zipWith_cons_cons, ih, hcells, List.map_cons]

theorem grid_drawnLines (o : Outline) : grid o o.drawnLines = (trails [] o).map cells :=
  cellsOf_zipWith (trails_rows o [])

/-- The lines of a grid of cells join. Below a branch or a bar comes a line with a bar or a connector
there; below a last branch there is nothing, if the next line has more cells; and a bar or a
connector stands below a branch or a bar, or below the text of the line above. -/
structure Connected (lines : List (List Text)) : Prop where
  downward : ∀ {m j : Nat} {upper : List Text}, lines[m]? = some upper →
    upper[j]? = some branch ∨ upper[j]? = some bar →
      ∃ lower, lines[m + 1]? = some lower ∧ (lower[j]? = some bar ∨ lower[j]? = some branch ∨
        lower[j]? = some lastBranch)
  closed : ∀ {m j : Nat} {upper lower : List Text}, lines[m]? = some upper →
    lines[m + 1]? = some lower → upper[j]? = some lastBranch → j + 1 < lower.length →
      lower[j]? = some gap
  upward : ∀ {m j : Nat} {upper lower : List Text}, lines[m]? = some upper →
    lines[m + 1]? = some lower →
      lower[j]? = some bar ∨ lower[j]? = some branch ∨ lower[j]? = some lastBranch →
        upper[j]? = some bar ∨ upper[j]? = some branch ∨ upper.length = j

theorem connected_cells {start finish : List Bool} {ts : List (List Bool)}
    (h : Walk start ts finish) (hfinish : ∀ b ∈ finish, b = true) :
    Connected ((start :: ts).map cells) := by
  have hline : ∀ {m : Nat} {line : List Text}, ((start :: ts).map cells)[m]? = some line →
      ∃ trail, (start :: ts)[m]? = some trail ∧ cells trail = line := by
    intro m line hm
    rwa [List.getElem?_map, Option.map_eq_some_iff] at hm
  constructor
  · intro m j upper hupper hj
    obtain ⟨trail, htrail, rfl⟩ := hline hupper
    rw [opens_iff] at hj
    rcases h.next htrail with ⟨below, hbelow, hfollows⟩ | ⟨-, rfl⟩
    · exact ⟨cells below, by rw [List.getElem?_map, hbelow, Option.map_some], hfollows.downward hj⟩
    · cases hfinish false (List.mem_of_getElem? hj)
  · intro m j upper lower hupper hlower hj hdeeper
    obtain ⟨trail, htrail, rfl⟩ := hline hupper
    obtain ⟨below, hbelow, rfl⟩ := hline hlower
    rw [length_cells] at hdeeper
    exact (h.follows htrail hbelow).closed hj hdeeper
  · intro m j upper lower hupper hlower hj
    obtain ⟨trail, htrail, rfl⟩ := hline hupper
    obtain ⟨below, hbelow, rfl⟩ := hline hlower
    rw [length_cells, or_left_comm, ← or_assoc, opens_iff]
    exact (h.follows htrail hbelow).upward hj

/-- The lines of a diagram join. -/
theorem diagram_connected {o : Outline} (h : o.OneLined) :
    ∃ drawn : List Text,
      (visualize o).splitOn 0x0A = utf16 "Pattern Structure:" :: drawn ++
        [] :: (utf16 "Regex: " ++ o.expression).splitOn 0x0A ∧
      List.Forall₂ Row.DrawnAs (rows 0 o) drawn ∧ Connected (grid o drawn) := by
  obtain ⟨below, ended, htrails, hended, hwalk⟩ := o.endsWalk []
  refine ⟨o.drawnLines, splitOn_visualize h, drawnAs_drawnLines o, ?_⟩
  rw [grid_drawnLines, htrails]
  exact connected_cells hwalk hended

/-- A root with a detail and two parts, each with rows under it; some texts look like cells. -/
def terraced : Outline :=
  .node .sequence (utf16 "ab") (utf16 "└── root") [utf16 "│   d"]
    [.node .group (utf16 "(a)") (utf16 "p") []
      [.node .optional (utf16 "(?:a)?") (utf16 "q") []
        [.node .literal (utf16 "a") [] [] []]],
      .node .either (utf16 "b") (utf16 "r") [utf16 "├── e"]
        [.node .literal (utf16 "b") (utf16 "s") [] []]]

/-- The rows of that outline as they are drawn. -/
def terracedLines : List Text :=
  [utf16 "└── root",
    utf16 "├── │   d",
    utf16 "├── p",
    utf16 "│   └── q",
    utf16 "│       └── ",
    utf16 "└── r",
    utf16 "    ├── ├── e",
    utf16 "    └── s"]

theorem terraced_connected :
    terraced.OneLined ∧ (visualize terraced).splitOn 0x0A = utf16 "Pattern Structure:" ::
      terracedLines ++ [[], utf16 "Regex: ab"] ∧ Connected (grid terraced terracedLines) := by
  have hlines : terraced.OneLined := by
    simp only [OneLined]
    decide +kernel
  have hregex : (utf16 "Regex: " ++ terraced.expression).splitOn 0x0A = [utf16 "Regex: ab"] := by
    decide +kernel
  have hwhole : (visualize terraced).splitOn 0x0A = utf16 "Pattern Structure:" ::
      terracedLines ++ [[], utf16 "Regex: ab"] := by
    decide +kernel
  obtain ⟨drawn, hsplit, -, hconnected⟩ := diagram_connected hlines
  rw [hwhole, hregex] at hsplit
  have hdrawn : utf16 "Pattern Structure:" :: terracedLines = utf16 "Pattern Structure:" :: drawn :=
    List.append_cancel_right hsplit
  rw [← (List.cons.inj hdrawn).2] at hconnected
  exact ⟨hlines, hwhole, hconnected⟩

end Outline

end PatternAlgebra
