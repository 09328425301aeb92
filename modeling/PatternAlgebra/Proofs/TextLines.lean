import Mathlib.Data.List.Basic
import PatternAlgebra.Text.Basic

/-!
# Texts joined of lines

A text that is joined of lines is split at its line feeds into these lines again. A line that holds
line feeds itself is split into several.
-/

namespace PatternAlgebra

theorem lines_append {ls ms : List Text} (hls : ls ≠ []) (hms : ms ≠ []) :
    Text.lines (ls ++ ms) = Text.lines ls ++ 0x0A :: Text.lines ms := by
  induction ls with
  | nil => contradiction
  | cons l ls ih =>
    cases ls with
    | nil =>
      obtain ⟨m, ms, rfl⟩ := List.exists_cons_of_ne_nil hms
      simp [Text.lines]
    | cons l' ls =>
      have hrest := ih (List.cons_ne_nil l' ls)
      simp only [Text.lines, List.cons_append, List.intercalate_cons_cons] at hrest ⊢
      rw [hrest]
      simp

/-- Joined lines are split one by one. -/
theorem splitOn_lines {ls : List Text} (hls : ls ≠ []) :
    (Text.lines ls).splitOn 0x0A = ls.flatMap (List.splitOn 0x0A) := by
  induction ls with
  | nil => contradiction
  | cons l ls ih =>
    cases ls with
    | nil => simp [Text.lines]
    | cons l' ls =>
      have hsingle : Text.lines [l] = l := by simp [Text.lines]
      have hcut : Text.lines (l :: l' :: ls) = l ++ 0x0A :: Text.lines (l' :: ls) := by
        rw [← hsingle, ← lines_append (List.cons_ne_nil _ _) (List.cons_ne_nil _ _),
          List.singleton_append, hsingle]
      rw [hcut, List.splitOn_append_cons_self, ih (List.cons_ne_nil l' ls)]
      exact List.flatMap_cons.symm

/-- Single lines stay as they are. -/
theorem flatMap_splitOn {ls : List Text} (h : ∀ l ∈ ls, 0x0A ∉ l) :
    ls.flatMap (List.splitOn 0x0A) = ls := by
  induction ls with
  | nil => rfl
  | cons l ls ih =>
    obtain ⟨hl, hls⟩ := List.forall_mem_cons.1 h
    rw [List.flatMap_cons, List.splitOn_eq_singleton hl, ih hls, List.singleton_append]

end PatternAlgebra
