import PatternAlgebra.Proofs.Compilation
import PatternAlgebra.Proofs.Meaning
import PatternAlgebra.Proofs.Search

/-!
# Anchors around a pattern

A pattern spans an input exactly if it occurs there between an anchor on the start and one on the end,
written as parts of a sequence. Anchors on lines do as well, as long as lines do not count. With lines
that count nothing is said: there a match may span one line only.

An anchor on the start or the end of the input is written as a negative look-around over the class of
all units, and the lexer knows both by their spelling. The first section shows that nothing is lost by
that: the class is read as all units, and the assertion holds exactly where the look-around does.
Look-arounds over anything else are not part of expressions and have no meaning here.
-/

namespace PatternAlgebra

/-! ## The assertions on the input as look-arounds -/

/-- All units: the blanks and those that are none. -/
def UnitSet.all : UnitSet := .members false [.shorthand .blank false, .shorthand .blank true]

theorem UnitSet.accepts_all (folding : Bool) (u : CodeUnit) : all.accepts folding u = true := by
  have hpart : ∀ v, (ClassItem.shorthand .blank false).contains v = true ∨
      (ClassItem.shorthand .blank true).contains v = true := by
    intro v
    simp only [ClassItem.contains, Shorthand.contains]
    cases Text.isBlank v <;> simp
  simp only [all, accepts, List.any_cons, List.any_nil, Bool.or_false, bne_iff_ne, ne_eq,
    Bool.not_eq_false, Bool.or_eq_true]
  cases folding with
  | false => exact hpart u
  | true =>
    -- Under folding an item accepts a unit as soon as it holds one of the same letter.
    have hself : u ∈ CaseFold.peers (CaseFold.fold u) := CaseFold.mem_peers_iff.2 rfl
    simp only [ClassItem.accepts, ↓reduceIte, List.any_eq_true]
    rcases hpart u with h | h
    · exact .inl ⟨u, hself, h⟩
    · exact .inr ⟨u, hself, h⟩

theorem UnitSet.acceptsAt_all {s : Subject} {position : Nat} :
    all.acceptsAt s position = true ↔ position < s.length := by
  rw [acceptsAt, Subject.length]
  cases hu : s.units[position]? with
  | none =>
    have := Array.getElem?_eq_none_iff.1 hu
    simp only [Bool.false_eq_true, false_iff]
    omega
  | some u => simp only [accepts_all, (Array.getElem?_eq_some_iff.1 hu).1]

theorem classToken_all (named : Bool) :
    classToken named (utf16 "\\s\\S])") = .ok (.one .all, [closeParen]) := by
  have htext : utf16 "\\s\\S])" =
      [backslash, lowerS, backslash, upperS, closeBracket, closeParen] := by decide
  rw [htext, classToken, classHead_of_ne (by decide),
    classAtoms_escape (fun h => absurd h.2 (by decide)),
    classAtoms_escape (fun h => absurd h.2 (by decide)), classAtoms_close]
  rfl

/-- What stands in the texts of both assertions is the class of all units. -/
theorem classToken_assertionTails (named : Bool) :
    classToken named (startAssertionTail.drop 3) = .ok (.one .all, [closeParen]) ∧
      classToken named (endAssertionTail.drop 2) = .ok (.one .all, [closeParen]) := by
  have hstart : startAssertionTail.drop 3 = utf16 "\\s\\S])" := by decide
  have hend : endAssertionTail.drop 2 = utf16 "\\s\\S])" := by decide
  rw [hstart, hend]
  exact ⟨classToken_all named, classToken_all named⟩

namespace Regex

/-- A negative look-ahead: the expression has no outcome from here. -/
def NothingAhead (s : Subject) (r : Regex) (st : State) : Prop := r.outcomes s st = []

/-- A negative look-behind: wherever the expression begins, it has no outcome that ends here. -/
def NothingBehind (s : Subject) (r : Regex) (st : State) : Prop :=
  ∀ before, ∀ next ∈ r.outcomes s before, next.position ≠ st.position

end Regex

/-- The end of the input is where no unit stands ahead. -/
theorem Anchor.holds_inputEnd_iff {s : Subject} {st : State} (h : st.position ≤ s.length) :
    inputEnd.holds s.units s.options.multiline st.position = true ↔
      (Regex.one .all).NothingAhead s st := by
  rw [holds_inputEnd, beq_iff_eq, Regex.NothingAhead, List.eq_nil_iff_forall_not_mem]
  simp only [Regex.mem_outcomes_one, UnitSet.acceptsAt_all]
  change st.position = s.length ↔ _
  constructor
  · intro hend next hnext
    omega
  · intro hnone
    by_contra hne
    exact hnone _ ⟨by omega, rfl⟩

/-- The start of the input is where no unit stands behind. -/
theorem Anchor.holds_inputStart_iff {s : Subject} {st : State} (h : st.position ≤ s.length) :
    inputStart.holds s.units s.options.multiline st.position = true ↔
      (Regex.one .all).NothingBehind s st := by
  rw [holds_inputStart, beq_iff_eq]
  constructor
  · intro hstart before next hnext
    obtain ⟨-, rfl⟩ := Regex.mem_outcomes_one.1 hnext
    rw [State.position_advance, hstart]
    exact Nat.succ_ne_zero _
  · intro hnone
    by_contra hne
    -- The unit just before is one that an outcome consumes.
    have hunit : UnitSet.all.acceptsAt s (st.position - 1) = true := by
      rw [UnitSet.acceptsAt_all]
      omega
    refine hnone (.start (st.position - 1)) _ (Regex.mem_outcomes_one.2 ⟨hunit, rfl⟩) ?_
    rw [State.position_advance, State.position_start]
    omega

/-! ## Between two anchors -/

/-- On a text in which lines do not count a line is all of it. -/
theorem Anchor.holds_line (units : Array CodeUnit) (position : Nat) :
    lineStart.holds units false position = inputStart.holds units false position ∧
      lineEnd.holds units false position = inputEnd.holds units false position := by
  constructor
  · exact Bool.or_false _
  · exact Bool.or_false _

namespace Pattern

variable {p : Pattern}

/-- A pattern between two anchors. -/
def anchored (first last : Anchor) (p : Pattern) : Pattern :=
  ((anchor first).andThen p).andThen (anchor last)

theorem capturing_anchored (first last : Anchor) (p : Pattern) :
    (anchored first last p).capturing = p.capturing := by
  simp [anchored, andThen]

theorem references_anchored (first last : Anchor) (p : Pattern) :
    (anchored first last p).references = p.references := by
  simp [anchored, andThen]

theorem groupNumber_anchored (first last : Anchor) (p : Pattern) :
    (anchored first last p).groupNumber = p.groupNumber := by
  funext name
  rw [groupNumber, groupNumber, namesFrom, namesFrom, capturing_anchored]

theorem Consistent.anchored (hp : p.Consistent) (first last : Anchor) :
    (anchored first last p).Consistent := by
  constructor
  · rw [groupNames, capturing_anchored]
    exact hp.distinct
  · rw [references_anchored, groupNames, capturing_anchored]
    exact hp.declared

/-- Anchors around a pattern are read as assertions around its items. -/
theorem readItems_anchored (first last : Anchor) (p : Pattern) :
    (anchored first last p).readItems =
      .assertion first :: (p.readItems ++ [.assertion last]) := by
  rw [readItems, groupNumber_anchored]
  show (Regex.assertion first :: (p.items Quantifier.asRead p.groupNumber (0 + 0) ++ [])) ++
    [.assertion last] = _
  rw [List.append_nil]
  rfl

/-- Anchors that hold where the input begins and ends make a pattern span the input. -/
theorem search_anchored {s : Subject} {first last : Anchor}
    (hfirst : ∀ position, first.holds s.units s.options.multiline position =
      Anchor.inputStart.holds s.units s.options.multiline position)
    (hlast : ∀ position, last.holds s.units s.options.multiline position =
      Anchor.inputEnd.holds s.units s.options.multiline position) :
    (anchored first last p).program.regex.search s = p.spanningProgram.regex.search s := by
  have hassertion : ∀ {a b : Anchor}, (∀ position, a.holds s.units s.options.multiline position =
      b.holds s.units s.options.multiline position) →
      (Regex.assertion a).outcomes s = (Regex.assertion b).outcomes s := by
    intro a b hab
    funext st
    rw [Regex.outcomes, Regex.outcomes, hab]
  refine Regex.search_congr rfl (fun st => ?_)
  show (Regex.sequenceOf (anchored first last p).readItems).outcomes s st =
    (Regex.sequenceOf [.assertion .inputStart, Regex.sequenceOf p.readItems,
      .assertion .inputEnd]).outcomes s st
  rw [readItems_anchored, Regex.outcomes_sequenceOf_cons, Regex.outcomes_sequenceOf_cons,
    hassertion hfirst]
  refine List.flatMap_congr (fun mid _ => ?_)
  rw [Regex.outcomes_sequenceOf_append, Regex.outcomes_sequenceOf_cons]
  show _ = List.flatMap ((Regex.assertion .inputEnd).outcomes s) _
  rw [← hassertion hlast]
  rfl

/-- A consistent pattern spans an input if and only if it occurs there between input anchors, and,
where lines do not count, if and only if it occurs there between line anchors. -/
theorem spans_eq_anchored (hp : p.Consistent) (input : Option Text) (options : MatchOptions) :
    ∃ found, p.spans input options = .ok found ∧
      (((anchor .inputStart).andThen p).andThen (anchor .inputEnd)).occursIn input options =
        .ok found ∧
      (options.multiline = false →
        (((anchor .lineStart).andThen p).andThen (anchor .lineEnd)).occursIn input options =
          .ok found) := by
  cases input with
  | none => exact ⟨false, rfl, rfl, fun _ => rfl⟩
  | some input =>
    refine ⟨_, hp.spans_eq input options, ?_, fun hlines => ?_⟩
    · show (anchored .inputStart .inputEnd p).occursIn _ _ = _
      rw [(hp.anchored _ _).occursIn_eq, Program.firstMatch,
        search_anchored (fun _ => rfl) (fun _ => rfl)]
      rfl
    · obtain ⟨ignoreCase, multiline⟩ := options
      obtain rfl : multiline = false := hlines
      show (anchored .lineStart .lineEnd p).occursIn _ _ = _
      rw [(hp.anchored _ _).occursIn_eq, Program.firstMatch,
        search_anchored (fun position => (Anchor.holds_line _ position).1)
          (fun position => (Anchor.holds_line _ position).2)]
      rfl

/-- A choice that has to be grouped, a text that ends in a backslash, and a reference. -/
def bordered : Pattern :=
  sequence (namedGroup ⟨utf16 "side", by decide⟩ (either (utf16 "x") [utf16 "\\", []]))
    [repeated (backreference ⟨utf16 "side", by decide⟩) .zeroOrMore, literal (utf16 "\n\\")]

theorem bordered_spans_eq_anchored :
    bordered.Consistent ∧ ∃ found,
      bordered.spans (some (utf16 "xX\n\\")) ⟨true, false⟩ = .ok found ∧
        (((anchor .inputStart).andThen bordered).andThen (anchor .inputEnd)).occursIn
          (some (utf16 "xX\n\\")) ⟨true, false⟩ = .ok found ∧
        (((anchor .lineStart).andThen bordered).andThen (anchor .lineEnd)).occursIn
          (some (utf16 "xX\n\\")) ⟨true, false⟩ = .ok found := by
  have hp : bordered.Consistent := ⟨by decide, by decide⟩
  obtain ⟨found, hspans, hinput, hlines⟩ :=
    spans_eq_anchored hp (some (utf16 "xX\n\\")) ⟨true, false⟩
  exact ⟨hp, found, hspans, hinput, hlines rfl⟩

end Pattern

end PatternAlgebra
