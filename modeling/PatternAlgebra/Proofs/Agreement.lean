import PatternAlgebra.Proofs.Entries
import PatternAlgebra.Proofs.Search
import PatternAlgebra.Proofs.Spanning

/-!
# The answers about an input agree

Whether some part of an input matches, whether all of it does and what is extracted from it are
answered by three runs, the second of them on another program. For every text that compiles the
answers fit together, and the whole input matches as soon as any outcome of the expression ends where
the input ends, be it preferred or not. Texts that do not compile have no answers; these are not
considered.

A text is read by the grammar that `tokens` cuts (Regex/Lexer). For the engine's other syntax, lazy
quantifiers, escapes by code and number, boundaries and further look-arounds, nothing is claimed: such
texts are refused here or read as plain units.
-/

namespace PatternAlgebra

namespace Program

variable {p : Program}

/-- Where a program has to span the input, its outcomes are those that do. -/
theorem mem_outcomes_spanning {s : Subject} {st next : State} :
    next ∈ p.spanning.regex.outcomes s st ↔
      st.position = 0 ∧ next ∈ p.regex.outcomes s st ∧ next.position = s.length := by
  have hspanning : p.spanning.regex =
      .sequence (.assertion .inputStart) (.sequence p.regex (.assertion .inputEnd)) := rfl
  simp only [hspanning, Regex.mem_outcomes_sequence, Regex.mem_outcomes_assertion,
    Anchor.holds_inputStart, Anchor.holds_inputEnd, beq_iff_eq]
  constructor
  · rintro ⟨_, ⟨hfirst, rfl⟩, _, hmem, hlast, rfl⟩
    exact ⟨hfirst, hmem, hlast⟩
  · rintro ⟨hfirst, hmem, hlast⟩
    exact ⟨st, ⟨hfirst, rfl⟩, next, hmem, hlast, rfl⟩

/-- A whole input matches if some outcome from its start ends at its end. -/
theorem firstMatch_spanning {input : Text} {options : MatchOptions} :
    (p.spanning.firstMatch input options).isSome = true ↔
      ∃ next ∈ p.regex.outcomes (.ofText input options) (.start 0),
        next.position = input.length := by
  rw [firstMatch, Regex.search_isSome]
  constructor
  · rintro ⟨i, -, next, hnext⟩
    obtain ⟨hzero, hmem, hposition⟩ := mem_outcomes_spanning.1 hnext
    obtain rfl : i = 0 := hzero
    exact ⟨next, hmem, hposition⟩
  · rintro ⟨next, hmem, hposition⟩
    exact ⟨0, Nat.zero_le _, next, mem_outcomes_spanning.2 ⟨rfl, hmem, hposition⟩⟩

/-- A first match lies within the input. -/
theorem bounds_of_firstMatch {input : Text} {options : MatchOptions} {span : Span}
    {captures : Captures} (h : p.firstMatch input options = some (span, captures)) :
    span.start ≤ span.stop ∧ span.stop ≤ input.length := by
  obtain ⟨hstart, hmem, -⟩ := Regex.search_eq_some h
  have hlater := (Regex.reaches_of_mem_outcomes _ _ _ _ hmem).1
  exact ⟨hlater.le, hlater.le_length hstart⟩

/-- A first match that shows the whole input runs from its start to its end. -/
theorem span_eq_of_slice_eq {input : Text} {options : MatchOptions} {span : Span}
    {captures : Captures} (h : p.firstMatch input options = some (span, captures))
    (hwhole : (Subject.ofText input options).slice span = input) :
    span = ⟨0, input.length⟩ := by
  obtain ⟨hle, hstop⟩ := bounds_of_firstMatch h
  obtain ⟨start, stop⟩ := span
  have hlength := congrArg List.length hwhole
  rw [Subject.slice_eq, List.length_take, List.length_drop] at hlength
  change min (stop - start) (input.length - start) = input.length at hlength
  simp only at hle hstop
  obtain rfl : start = 0 := by omega
  obtain rfl : stop = input.length := by omega
  rfl

end Program

namespace Source

variable {source : Text} {p : Program}

/-- How the answers about one input fit together, `p` being the program that searches it. -/
structure Agree (p : Program) (input : Option Text) (options : MatchOptions) (found spanned : Bool)
    (record? : Option Record) : Prop where
  /-- Something is extracted if and only if some part of the input matches. -/
  recorded : record?.isSome = true ↔ found = true
  /-- A match that is all of the input makes the whole input match. -/
  whole : ∀ record, record? = some record → record.get? (utf16 "match") = input → spanned = true
  /-- An input that matches as a whole has a part that matches. -/
  part : spanned = true → found = true
  /-- The whole input matches if some outcome from its start ends at its end. -/
  ends : spanned = true ↔ ∃ text, input = some text ∧
    ∃ next ∈ p.regex.outcomes (.ofText text options) (.start 0), next.position = text.length

theorem agree_firstMatch (p : Program) (source input : Text) (options : MatchOptions) :
    Agree p (some input) options (p.firstMatch input options).isSome
      (p.spanning.firstMatch input options).isSome
      ((p.firstMatch input options).map (fun found =>
        recordOf source p (.ofText input options) found.1 found.2)) where
  recorded := by rw [Option.isSome_map]
  whole := by
    intro record hrecord hwhole
    obtain ⟨⟨span, captures⟩, hfound, rfl⟩ := Option.map_eq_some_iff.1 hrecord
    rw [get?_recordOf_match] at hwhole
    have hspan := Program.span_eq_of_slice_eq hfound (Option.some.inj hwhole)
    obtain ⟨-, hmem, -⟩ := Regex.search_eq_some hfound
    subst hspan
    exact Program.firstMatch_spanning.2 ⟨_, hmem, rfl⟩
  part := by
    intro hspanned
    obtain ⟨next, hmem, -⟩ := Program.firstMatch_spanning.1 hspanned
    exact Regex.search_isSome.2 ⟨0, Nat.zero_le _, next, hmem⟩
  ends := by
    rw [Program.firstMatch_spanning]
    constructor
    · exact fun hends => ⟨input, rfl, hends⟩
    · rintro ⟨text, htext, hends⟩
      exact Option.some.inj htext ▸ hends

/-- Whatever text of the grammar read by `tokens` compiles, it compiles for the whole input as well,
and each input gets three answers that agree. -/
theorem answers_agree (h : compile .anywhere source = .ok p) :
    (∃ q, compile .wholeInput source = .ok q) ∧
      ∀ input options, ∃ found spanned record?,
        occursIn source input options = .ok found ∧ spans source input options = .ok spanned ∧
          extract source input options = .ok record? ∧
          Agree p input options found spanned record? := by
  refine ⟨⟨_, compile_wholeInput h⟩, fun input options => ?_⟩
  cases input with
  | none =>
    refine ⟨false, false, none, rfl, rfl, rfl, ?_⟩
    constructor
    · rfl
    · exact fun _ hrecord => nomatch hrecord
    · exact fun hspanned => nomatch hspanned
    · constructor
      · exact fun hspanned => nomatch hspanned
      · exact fun ⟨_, htext, _⟩ => nomatch htext
  | some input =>
    refine ⟨_, _, _, ?_, ?_, ?_, agree_firstMatch p source input options⟩
    · rw [occursIn, h]
      rfl
    · rw [spans, compile_wholeInput h]
      rfl
    · rw [extract, h]
      rfl

/-- A text that no pattern is written as: branches without a group around them, the shorter one
first, a reference, a repeated assertion and a brace that begins no quantifier. -/
def branching : Text := utf16 "a|(?<n>ab)\x7b1,\x7d\\k<n>|(?:(?![\\s\\S]))*]x\x7b1"

theorem branching_agrees :
    ∃ p, compile .anywhere branching = .ok p ∧ (∃ q, compile .wholeInput branching = .ok q) ∧
      ∀ input options, ∃ found spanned record?,
        occursIn branching input options = .ok found ∧
          spans branching input options = .ok spanned ∧
          extract branching input options = .ok record? ∧
          Agree p input options found spanned record? := by
  have hcompiles : (compile .anywhere branching).toOption.isSome = true := by decide +kernel
  cases h : compile .anywhere branching with
  | error e =>
    rw [h] at hcompiles
    contradiction
  | ok p => exact ⟨p, rfl, answers_agree h⟩

end Source

end PatternAlgebra
