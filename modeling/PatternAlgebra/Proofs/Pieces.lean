import PatternAlgebra.Proofs.Tokens

/-!
# Lowering piece by piece

A text is read from left to right in pieces: a backslash together with the unit behind it, or a unit
by itself. Lowering rewrites the pieces `\A` and `\z`, keeps all others, and depends on nothing else
(`lowering_piecewise`); what it writes it does not rewrite again. The texts are arbitrary here, and
need not be readable as expressions.
-/

namespace PatternAlgebra

namespace Lowering

/-- A piece of a text. -/
inductive Piece where
  | single (u : CodeUnit)
  | quoted (u : CodeUnit)
  deriving DecidableEq

namespace Piece

def text : Piece → Text
  | single u => [u]
  | quoted u => [backslash, u]

/-- What a piece becomes. -/
def lowered : Piece → Text
  | single u => [u]
  | quoted u => lowerEscape u

end Piece

/-- The pieces of a text, from left to right. A backslash with nothing behind it stands by itself. -/
def pieces : Text → List Piece
  | [] => []
  | u :: rest =>
    if u = backslash then
      match rest with
      | [] => [.single backslash]
      | v :: after => .quoted v :: pieces after
    else .single u :: pieces rest

@[simp] theorem pieces_nil : pieces [] = [] := rfl

@[simp] theorem pieces_unit {u : CodeUnit} (h : u ≠ backslash) (rest : Text) :
    pieces (u :: rest) = .single u :: pieces rest := by
  rw [pieces.eq_def]
  simp [h]

@[simp] theorem pieces_escape (u : CodeUnit) (rest : Text) :
    pieces (backslash :: u :: rest) = .quoted u :: pieces rest := by
  simp [pieces]

/-- Nothing is lost in reading pieces. -/
theorem flatMap_text_pieces (t : Text) : (pieces t).flatMap Piece.text = t := by
  induction t using pieces.induct with
  | case1 => rfl
  | case2 => rfl
  | case3 u after ih => simp [Piece.text, ih]
  | case4 u rest hu ih => simp [hu, Piece.text, ih]

theorem lower_eq_flatMap (t : Text) : lower t = (pieces t).flatMap Piece.lowered := by
  induction t using pieces.induct with
  | case1 => rfl
  | case2 => rfl
  | case3 u after ih => simp [Piece.lowered, ih]
  | case4 u rest hu ih => simp [hu, Piece.lowered, ih]

/-- An unpaired backslash is the last piece of the text that it ends. -/
theorem endsQuoting_iff {t : Text} :
    endsQuoting t = true ↔ (pieces t).getLast? = some (.single backslash) := by
  induction t using pieces.induct with
  | case1 => simp
  | case2 => simp [endsQuoting, pieces]
  | case3 u after ih =>
    rw [endsQuoting_escape, pieces_escape, ih, List.getLast?_cons]
    cases (pieces after).getLast? with
    | none => simp
    | some piece => simp
  | case4 u rest hu ih =>
    rw [endsQuoting_unit hu, pieces_unit hu, ih, List.getLast?_cons]
    cases (pieces rest).getLast? with
    | none => simp [hu]
    | some piece => simp

/-- What is written for an anchor holds no anchors and leaves no backslash unpaired. -/
theorem assertionTexts_lowered :
    (lower inputStartText = inputStartText ∧ endsQuoting inputStartText = false) ∧
      lower inputEndText = inputEndText ∧ endsQuoting inputEndText = false := by
  decide +kernel

/-- What an escape has become is not lowered again. -/
theorem lower_lowerEscape (u : CodeUnit) (rest : Text) :
    lower (lowerEscape u ++ rest) = lowerEscape u ++ lower rest := by
  obtain ⟨⟨hstart, hstartEnds⟩, hend, hendEnds⟩ := assertionTexts_lowered
  by_cases hA : u = upperA
  · rw [lowerEscape, if_pos hA, lower_append hstartEnds, hstart]
  · by_cases hz : u = lowerZ
    · rw [lowerEscape, if_neg hA, if_pos hz, lower_append hendEnds, hend]
    · have hkept : lowerEscape u = [backslash, u] := by rw [lowerEscape, if_neg hA, if_neg hz]
      rw [hkept]
      show lower (backslash :: u :: rest) = _
      rw [lower_escape, hkept]

theorem lower_lower (t : Text) : lower (lower t) = lower t := by
  induction t using pieces.induct with
  | case1 => rfl
  | case2 => rfl
  | case3 u after ih => simp [lower_lowerEscape, ih]
  | case4 u rest hu ih => simp [hu, ih]

/-- An escape of an anchor is not kept: an assertion begins with a bracket. -/
theorem head?_lowerEscape_of_anchor {u : CodeUnit} (h : u = upperA ∨ u = lowerZ) (rest : Text) :
    (lowerEscape u ++ rest).head? = some openParen := by
  have hbegins : inputStartText.head? = some openParen ∧ inputEndText.head? = some openParen := by
    decide +kernel
  have hz : lowerZ ≠ upperA := by decide
  rcases h with rfl | rfl
  · rw [lowerEscape, if_pos rfl, List.head?_append, hbegins.1]
    rfl
  · rw [lowerEscape, if_neg hz, if_pos rfl, List.head?_append, hbegins.2]
    rfl

/-- A text without anchors is left as it is, and no other. -/
theorem lower_eq_self_iff {t : Text} :
    lower t = t ↔ .quoted upperA ∉ pieces t ∧ .quoted lowerZ ∉ pieces t := by
  induction t using pieces.induct with
  | case1 => simp
  | case2 => simp [pieces, lower]
  | case3 u after ih =>
    rw [lower_escape, pieces_escape, List.mem_cons, List.mem_cons]
    by_cases hanchor : u = upperA ∨ u = lowerZ
    · refine iff_of_false ?_ ?_
      · intro heq
        have hhead := head?_lowerEscape_of_anchor hanchor (lower after)
        rw [heq] at hhead
        exact absurd hhead (show some backslash ≠ some openParen by decide)
      · intro hnone
        rcases hanchor with rfl | rfl
        · exact hnone.1 (.inl rfl)
        · exact hnone.2 (.inl rfl)
    · obtain ⟨hA, hz⟩ := not_or.1 hanchor
      have hkept : lowerEscape u ++ lower after = backslash :: u :: lower after := by
        rw [lowerEscape, if_neg hA, if_neg hz]
        rfl
      have hnoA : Piece.quoted upperA ≠ .quoted u := fun h => hA (Piece.quoted.inj h).symm
      have hnoz : Piece.quoted lowerZ ≠ .quoted u := fun h => hz (Piece.quoted.inj h).symm
      rw [hkept, List.cons_inj_right, List.cons_inj_right, ih, or_iff_right hnoA,
        or_iff_right hnoz]
  | case4 u rest hu ih => simp [hu, ih]

/-- Lowering goes by pieces, and only the anchors among them are rewritten. A text that does not end
in an unpaired backslash is lowered by itself; what has been lowered stays as it is. The text of a
pattern never ends so, and a sequence is lowered part by part. -/
theorem lowering_piecewise :
    (∀ t, (pieces t).flatMap Piece.text = t ∧ lower t = (pieces t).flatMap Piece.lowered) ∧
      (∀ s t, (pieces s).getLast? ≠ some (.single backslash) →
        lower (s ++ t) = lower s ++ lower t) ∧
      (∀ t, lower (lower t) = lower t) ∧
      (∀ t, lower t = t ↔ .quoted upperA ∉ pieces t ∧ .quoted lowerZ ∉ pieces t) ∧
      (∀ p : Pattern, (pieces p.expression).getLast? ≠ some (.single backslash)) ∧
      ∀ first others, lower (Pattern.sequence first others).expression =
        (first :: others).flatMap (fun p => lower p.expression) := by
  refine ⟨fun t => ⟨flatMap_text_pieces t, lower_eq_flatMap t⟩, ?_, lower_lower,
    fun t => lower_eq_self_iff, ?_, ?_⟩
  · intro s t hs
    have hends : endsQuoting s = false := by
      rw [← Bool.not_eq_true, endsQuoting_iff]
      exact hs
    exact lower_append hends t
  · intro p hlast
    rw [← endsQuoting_iff, p.endsQuoting_expression] at hlast
    contradiction
  · intro first others
    rw [Pattern.lower_sequence, List.flatMap_cons]

/-- Behind a quoted backslash an `A` is no anchor, and one with a backslash of its own is. -/
theorem quoted_backslash_lowered :
    (pieces (utf16 "\\\\")).getLast? ≠ some (.single backslash) ∧
      lower (utf16 "\\\\" ++ utf16 "A\\A") = lower (utf16 "\\\\") ++ lower (utf16 "A\\A") ∧
      lower (utf16 "\\\\") = utf16 "\\\\" ∧ lower (utf16 "A\\A") ≠ utf16 "A\\A" := by
  have hpaired : (pieces (utf16 "\\\\")).getLast? ≠ some (.single backslash) := by decide +kernel
  obtain ⟨-, happend, -, hkept, -, -⟩ := lowering_piecewise
  refine ⟨hpaired, happend _ _ hpaired, (hkept _).2 ?_, fun h => ((hkept _).1 h).1 ?_⟩
  · decide +kernel
  · decide +kernel

end Lowering

end PatternAlgebra
