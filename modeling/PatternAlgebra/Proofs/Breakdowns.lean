import Mathlib.Data.List.Forall2
import PatternAlgebra.Outline.Breakdown
import PatternAlgebra.Proofs.Rows
import PatternAlgebra.Proofs.TextLines

/-!
# What a breakdown tells

A breakdown has one line for each row of an outline, and can be read back: two outlines with the same
explanation have roots of one expression and one type, and the same descriptions and details in the
same tree (`explain_eq_iff`). Descriptions and details have to be single lines, and a description
must not begin like an indented line or like a detail; the expression may be anything. Kinds and
expressions below the root are not in the text and not told.
-/

namespace PatternAlgebra

/-! ## Parting lists -/

theorem replicate_append_inj {α : Type} {c : α} {m n : Nat} {xs ys : List α}
    (hxs : xs.head? ≠ some c) (hys : ys.head? ≠ some c)
    (h : List.replicate m c ++ xs = List.replicate n c ++ ys) : m = n ∧ xs = ys := by
  induction m generalizing n with
  | zero =>
    cases n with
    | zero => exact ⟨rfl, h⟩
    | succ n =>
      rw [List.replicate_zero, List.nil_append] at h
      rw [h] at hxs
      exact absurd rfl hxs
  | succ m ih =>
    cases n with
    | zero =>
      rw [List.replicate_zero, List.nil_append] at h
      rw [← h] at hys
      exact absurd rfl hys
    | succ n =>
      rw [List.replicate_succ, List.replicate_succ, List.cons_append, List.cons_append] at h
      obtain ⟨rfl, hrest⟩ := ih (List.cons.inj h).2
      exact ⟨rfl, hrest⟩

/-- Two lists are parted alike at the last place of an element. -/
theorem append_cons_inj_of_last {α : Type} {a : α} {xs ys us vs : List α} (hys : a ∉ ys)
    (hvs : a ∉ vs) (h : xs ++ a :: ys = us ++ a :: vs) : xs = us ∧ ys = vs := by
  rcases List.append_eq_append_iff.1 h with ⟨between, hus, htail⟩ | ⟨between, hxs, htail⟩
  · cases between with
    | nil => exact ⟨by simpa using hus.symm, (List.cons.inj htail).2⟩
    | cons b bs =>
      refine absurd ?_ hys
      rw [(List.cons.inj htail).2]
      exact List.mem_append_right _ List.mem_cons_self
  · cases between with
    | nil => exact ⟨by simpa using hxs, (List.cons.inj htail).2.symm⟩
    | cons b bs =>
      refine absurd ?_ hvs
      rw [(List.cons.inj htail).2]
      exact List.mem_append_right _ List.mem_cons_self

/-! ## Lines -/

theorem Kind.lineFeed_not_mem_typeName (k : Kind) : 0x0A ∉ utf16 k.typeName := by
  cases k <;> decide +kernel

namespace Outline

/-- What a line of a breakdown has behind its indentation. -/
def Row.marked (row : Row) : Text := (if row.isDetail then utf16 "- " else []) ++ row.text

/-- The line of a row. -/
def Row.listed (row : Row) : Text := indent (row.depth + 1) ++ row.marked

theorem breakdownLines_eq (o : Outline) :
    ∀ depth, breakdownLines (depth + 1) o = (rows depth o).map Row.listed := by
  induction o using inductParts (Q := fun os => ∀ depth,
      breakdownLinesOfAll (depth + 1) os = (rowsOfAll depth os).map Row.listed) with
  | node kind expression description details children ih =>
    intro depth
    simp [breakdownLines, ih, Row.listed, Row.marked, Function.comp_def]
  | nil depth => rfl
  | cons o os iho ihos depth =>
    simp [breakdownLinesOfAll, iho, ihos]

/-- The line with the type of the root. -/
def typeLine (o : Outline) : Text := utf16 "Type: " ++ utf16 o.kind.typeName

theorem lineFeed_not_mem_typeLine (o : Outline) : 0x0A ∉ o.typeLine := by
  have hword : 0x0A ∉ utf16 "Type: " := by decide +kernel
  rw [typeLine, List.mem_append, not_or]
  exact ⟨hword, o.kind.lineFeed_not_mem_typeName⟩

theorem Row.lineFeed_not_mem_listed {row : Row} (h : 0x0A ∉ row.text) : 0x0A ∉ row.listed := by
  have hdash : 0x0A ∉ utf16 "- " := by decide +kernel
  have hspace : (0x0A : CodeUnit) ≠ 0x20 := by decide
  rw [listed, indent, marked, List.mem_append, List.mem_append, not_or, not_or]
  refine ⟨fun hmem => hspace (List.eq_of_mem_replicate hmem), ?_, h⟩
  cases row.isDetail with
  | true => exact hdash
  | false => exact List.not_mem_nil

/-- Behind the expression an explanation has the type and a line for each row. -/
theorem splitOn_explain {o : Outline} (h : o.OneLined) :
    (explain o).splitOn 0x0A = (utf16 "Pattern: " ++ o.expression).splitOn 0x0A ++
      o.typeLine :: utf16 "Breakdown:" :: (rows 0 o).map Row.listed := by
  have hword : 0x0A ∉ utf16 "Breakdown:" := by decide +kernel
  have hlisted : ∀ line ∈ (rows 0 o).map Row.listed, 0x0A ∉ line := by
    rw [List.forall_mem_map]
    exact fun row hrow => Row.lineFeed_not_mem_listed (h.lineFeed_not_mem_text hrow)
  have hsingle : ∀ line ∈ o.typeLine :: utf16 "Breakdown:" :: (rows 0 o).map Row.listed,
      0x0A ∉ line := by
    rw [List.forall_mem_cons, List.forall_mem_cons]
    exact ⟨o.lineFeed_not_mem_typeLine, hword, hlisted⟩
  rw [explain, splitOn_lines (List.cons_ne_nil _ _), List.flatMap_cons, breakdownLines_eq]
  exact congrArg _ (flatMap_splitOn hsingle)

/-! ## Reading lines -/

/-- A description that is not taken for an indented line or for a detail. -/
def Unmarked (t : Text) : Prop := t.head? ≠ some 0x20 ∧ ¬ utf16 "- " <+: t

theorem Row.head?_marked {row : Row} (h : row.isDetail = false → Unmarked row.text) :
    row.marked.head? ≠ some 0x20 := by
  have hdash : (utf16 "- ").head? = some hyphen := by decide +kernel
  rw [marked]
  cases hd : row.isDetail with
  | true =>
    rw [if_pos rfl, List.head?_append, hdash, Option.some_or]
    decide
  | false =>
    rw [if_neg Bool.false_ne_true, List.nil_append]
    exact (h hd).1

theorem Row.marked_inj {row row' : Row} (h : row.isDetail = false → Unmarked row.text)
    (h' : row'.isDetail = false → Unmarked row'.text) (heq : row.marked = row'.marked) :
    row.isDetail = row'.isDetail ∧ row.text = row'.text := by
  rw [marked, marked] at heq
  cases hd : row.isDetail with
  | true =>
    cases hd' : row'.isDetail with
    | true =>
      rw [hd, hd', if_pos rfl] at heq
      exact ⟨rfl, List.append_cancel_left heq⟩
    | false =>
      rw [hd, hd', if_pos rfl, if_neg Bool.false_ne_true, List.nil_append] at heq
      exact absurd ⟨row.text, heq⟩ (h' hd').2
  | false =>
    cases hd' : row'.isDetail with
    | true =>
      rw [hd, hd', if_pos rfl, if_neg Bool.false_ne_true, List.nil_append] at heq
      exact absurd ⟨row'.text, heq.symm⟩ (h hd).2
    | false =>
      rw [hd, hd', if_neg Bool.false_ne_true] at heq
      exact ⟨rfl, heq⟩

/-- Rows are told apart by their lines. -/
theorem Row.listed_inj {row row' : Row} (h : row.isDetail = false → Unmarked row.text)
    (h' : row'.isDetail = false → Unmarked row'.text) (heq : row.listed = row'.listed) :
    row = row' := by
  obtain ⟨hindent, hmarked⟩ := replicate_append_inj (head?_marked h) (head?_marked h') heq
  obtain ⟨hdetail, htext⟩ := marked_inj h h' hmarked
  have hdepth : row.depth = row'.depth := by omega
  cases row
  cases row'
  simp_all

/-- No line of a breakdown is its heading: each is indented. -/
theorem breakdown_not_mem_listed (rs : List Row) : utf16 "Breakdown:" ∉ rs.map Row.listed := by
  have hhead : (utf16 "Breakdown:").head? ≠ some 0x20 := by decide +kernel
  intro hmem
  obtain ⟨row, -, hrow⟩ := List.mem_map.1 hmem
  rw [← hrow] at hhead
  exact hhead rfl

/-! ## Reading rows -/

/-- Two outlines have the same tree, and in it the same descriptions and details. -/
inductive Alike : Outline → Outline → Prop where
  | node {kind kind' : Kind} {expression expression' description : Text} {details : List Text}
      {children children' : List Outline} (parts : List.Forall₂ Alike children children') :
      Alike (.node kind expression description details children)
        (.node kind' expression' description details children')

/-- What may follow the rows of parts that stand at a depth: nothing, or a node that is less deep. -/
def RisesAbove (depth : Nat) (rest : List Row) : Prop :=
  ∀ row ∈ rest.head?, row.isDetail = false ∧ row.depth < depth

theorem RisesAbove.mono {depth depth' : Nat} {rest : List Row} (h : RisesAbove depth rest)
    (hle : depth ≤ depth') : RisesAbove depth' rest := by
  intro row hrow
  exact ⟨(h row hrow).1, Nat.lt_of_lt_of_le (h row hrow).2 hle⟩

theorem RisesAbove.rowsOfAll {depth : Nat} {rest : List Row} (h : RisesAbove depth rest)
    (os : List Outline) : RisesAbove (depth + 1) (rowsOfAll depth os ++ rest) := by
  cases os with
  | nil => exact h.mono (Nat.le_succ depth)
  | cons o os =>
    intro row hrow
    rw [head?_rowsOfAll] at hrow
    obtain rfl := Option.some.inj hrow
    exact ⟨rfl, Nat.lt_succ_self depth⟩

/-- Details end where a row is none. -/
theorem details_append_inj {depth : Nat} {details details' : List Text} {rest rest' : List Row}
    (h : ∀ row ∈ rest.head?, row.isDetail = false)
    (h' : ∀ row ∈ rest'.head?, row.isDetail = false)
    (heq : details.map (Row.mk depth true ·) ++ rest = details'.map (Row.mk depth true ·) ++ rest') :
    details = details' ∧ rest = rest' := by
  induction details generalizing details' with
  | nil =>
    cases details' with
    | nil => exact ⟨rfl, heq⟩
    | cons detail' details' =>
      rw [List.map_nil, List.nil_append] at heq
      rw [heq] at h
      cases h _ rfl
  | cons detail details ih =>
    cases details' with
    | nil =>
      rw [List.map_nil, List.nil_append] at heq
      rw [← heq] at h'
      cases h' _ rfl
    | cons detail' details' =>
      obtain ⟨hrow, hrows⟩ := List.cons.inj heq
      obtain ⟨rfl, rfl⟩ := ih hrows
      exact ⟨by rw [(Row.mk.inj hrow).2.2], rfl⟩

/-- The rows of an outline tell it apart, whatever follows them that does not belong to it. -/
theorem alike_of_rows (o : Outline) : ∀ {o' : Outline} {depth : Nat} {rest rest' : List Row},
    RisesAbove (depth + 1) rest → RisesAbove (depth + 1) rest' →
      rows depth o ++ rest = rows depth o' ++ rest' → Alike o o' ∧ rest = rest' := by
  induction o using inductParts (Q := fun os => ∀ (os' : List Outline) (depth : Nat)
      (rest rest' : List Row), RisesAbove depth rest → RisesAbove depth rest' →
        rowsOfAll depth os ++ rest = rowsOfAll depth os' ++ rest' →
          List.Forall₂ Alike os os' ∧ rest = rest') with
  | node kind expression description details children ih =>
    intro o' depth rest rest' hrest hrest' heq
    obtain ⟨kind', expression', description', details', children'⟩ := o'
    rw [rows, rows, List.cons_append, List.cons_append, List.append_assoc, List.append_assoc] at heq
    -- Neither the details nor the parts can run into what follows them: that is no detail, and
    -- less deep than the parts.
    obtain ⟨hroot, hbelow⟩ := List.cons.inj heq
    obtain ⟨rfl, hparts⟩ := details_append_inj (fun row hrow => (hrest.rowsOfAll children row hrow).1)
      (fun row hrow => (hrest'.rowsOfAll children' row hrow).1) hbelow
    obtain ⟨hchildren, rfl⟩ := ih children' _ _ _ hrest hrest' hparts
    obtain ⟨-, -, rfl⟩ := Row.mk.inj hroot
    exact ⟨.node hchildren, rfl⟩
  | nil os' depth rest rest' hrest hrest' heq =>
    cases os' with
    | nil => exact ⟨.nil, heq⟩
    | cons o' os' =>
      have hhead := congrArg List.head? heq
      rw [head?_rowsOfAll] at hhead
      exact absurd (hrest _ hhead).2 (Nat.lt_irrefl depth)
  | cons o os iho ihos os' depth rest rest' hrest hrest' heq =>
    cases os' with
    | nil =>
      have hhead := congrArg List.head? heq
      rw [head?_rowsOfAll] at hhead
      exact absurd (hrest' _ hhead.symm).2 (Nat.lt_irrefl depth)
    | cons o' os' =>
      rw [rowsOfAll, rowsOfAll, List.append_assoc, List.append_assoc] at heq
      obtain ⟨halike, hothers⟩ := iho (hrest.rowsOfAll os) (hrest'.rowsOfAll os') heq
      obtain ⟨hall, hends⟩ := ihos os' depth rest rest' hrest hrest' hothers
      exact ⟨.cons halike hall, hends⟩

theorem Alike.rows_eq {o o' : Outline} (h : Alike o o') (depth : Nat) :
    rows depth o = rows depth o' := by
  induction o using inductParts (Q := fun os => ∀ (os' : List Outline) (depth : Nat),
      List.Forall₂ Alike os os' → rowsOfAll depth os = rowsOfAll depth os')
      generalizing o' depth with
  | node kind expression description details children ih =>
    cases h with
    | node parts => rw [rows, rows, ih _ _ parts]
  | nil os' depth h =>
    cases h
    rfl
  | cons o os iho ihos os' depth h =>
    cases h with
    | cons halike hothers => simp [iho halike depth, ihos _ _ hothers]

/-! ## Reading explanations -/

/-- Every description in an outline can be told from an indented line and from a detail. -/
def AllUnmarked (o : Outline) : Prop := ∀ n ∈ o.nodes, Unmarked n.description

theorem AllUnmarked.text {o : Outline} (h : o.AllUnmarked) {depth : Nat} {row : Row}
    (hrow : row ∈ rows depth o) (hdetail : row.isDetail = false) : Unmarked row.text := by
  obtain ⟨n, hn, ⟨-, htext⟩ | ⟨hdetail', -⟩⟩ := exists_node_of_mem_rows o depth hrow
  · rw [htext]
    exact h n hn
  · rw [hdetail] at hdetail'
    cases hdetail'

/-- Equal lines come from equal rows. -/
theorem rows_eq_of_listed {rs rs' : List Row}
    (h : ∀ row ∈ rs, row.isDetail = false → Unmarked row.text)
    (h' : ∀ row ∈ rs', row.isDetail = false → Unmarked row.text)
    (heq : rs.map Row.listed = rs'.map Row.listed) : rs = rs' := by
  induction rs generalizing rs' with
  | nil => exact (List.map_eq_nil_iff.1 heq.symm).symm
  | cons row rs ih =>
    cases rs' with
    | nil => cases heq
    | cons row' rs' =>
      obtain ⟨hrow, hrs⟩ := List.forall_mem_cons.1 h
      obtain ⟨hrow', hrs'⟩ := List.forall_mem_cons.1 h'
      obtain ⟨hline, hlines⟩ := List.cons.inj heq
      rw [Row.listed_inj hrow hrow' hline, ih hrs hrs' hlines]

/-- Two outlines have the same explanation if and only if their roots have one expression and one
type and they have the same descriptions and details in the same tree. -/
theorem explain_eq_iff {o o' : Outline} (h : o.OneLined) (h' : o'.OneLined) (hu : o.AllUnmarked)
    (hu' : o'.AllUnmarked) :
    explain o = explain o' ↔
      o.expression = o'.expression ∧ o.kind.typeName = o'.kind.typeName ∧ Alike o o' := by
  constructor
  · intro heq
    have hsplit := congrArg (List.splitOn 0x0A) heq
    -- An expression may hold a line like the heading. The rows do not, so the last one is meant.
    rw [splitOn_explain h, splitOn_explain h', List.append_cons, List.append_cons _ o'.typeLine]
      at hsplit
    obtain ⟨habove, hlisted⟩ := append_cons_inj_of_last (breakdown_not_mem_listed _)
      (breakdown_not_mem_listed _) hsplit
    obtain ⟨hpattern, htype⟩ := List.append_inj' habove rfl
    have hrows : rows 0 o = rows 0 o' :=
      rows_eq_of_listed (fun row => hu.text) (fun row => hu'.text) hlisted
    refine ⟨?_, ?_, ?_⟩
    · have hjoined := congrArg (List.intercalate [0x0A]) hpattern
      rw [List.intercalate_splitOn, List.intercalate_splitOn] at hjoined
      exact List.append_cancel_left hjoined
    · exact utf16_inj (List.append_cancel_left (List.cons.inj htype).1)
    · have hnone : RisesAbove 1 [] := fun row hrow => nomatch hrow
      rw [← List.append_nil (rows 0 o), ← List.append_nil (rows 0 o')] at hrows
      exact (alike_of_rows o hnone hnone hrows).1
  · rintro ⟨hexpression, htype, halike⟩
    rw [explain, explain, hexpression, htype, breakdownLines_eq, breakdownLines_eq,
      halike.rows_eq 0]

/-- An outline whose expression, descriptions and details look like lines of another sort. -/
def dashed : Outline :=
  .node .sequence (utf16 "a\nBreakdown:") (utf16 "-") [utf16 "- a", []]
    [.node .either (utf16 "(?:b)") [] [utf16 "  b"] [],
      .node .group (utf16 "(c)") (utf16 "Type: ") [] [.node .literal (utf16 "c") (utf16 "c") [] []]]

/-- The same tree, with other kinds and expressions below its root. -/
def dashedOtherwise : Outline :=
  .node .sequence (utf16 "a\nBreakdown:") (utf16 "-") [utf16 "- a", []]
    [.node .digit (utf16 "\n") [] [utf16 "  b"] [],
      .node .digit [] (utf16 "Type: ") [] [.node .digit [] (utf16 "c") [] []]]

theorem dashed_explained :
    (dashed.OneLined ∧ dashedOtherwise.OneLined) ∧
      (dashed.AllUnmarked ∧ dashedOtherwise.AllUnmarked) ∧
      explain dashed = explain dashedOtherwise ∧ Alike dashed dashedOtherwise := by
  have hlines : dashed.OneLined ∧ dashedOtherwise.OneLined := by
    simp only [OneLined]
    decide +kernel
  have hmarks : dashed.AllUnmarked ∧ dashedOtherwise.AllUnmarked := by
    simp only [AllUnmarked, Unmarked]
    decide +kernel
  have hsame : explain dashed = explain dashedOtherwise := by decide +kernel
  exact ⟨hlines, hmarks, hsame,
    ((explain_eq_iff hlines.1 hlines.2 hmarks.1 hmarks.2).1 hsame).2.2⟩

end Outline

end PatternAlgebra
