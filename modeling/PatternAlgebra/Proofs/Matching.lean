import PatternAlgebra.Proofs.Compilation
import PatternAlgebra.Proofs.Entries
import PatternAlgebra.Proofs.Meaning
import PatternAlgebra.Proofs.Search

/-!
# Matching decides the meaning of a pattern

What is asked of a pattern without references is answered by its relation: whether the whole input
matches, whether some part of it does, and where the first match begins. Which match is taken among
those that begin there is not said.
-/

namespace PatternAlgebra

/-- A search succeeds if the relation that the expression decides holds from some position. -/
theorem Decides.search_isSome {s : Subject} {r : Regex} {R : Nat → Nat → Prop}
    (h : Decides (r.outcomes s) R) :
    (r.search s).isSome = true ↔ ∃ i j, i ≤ s.length ∧ R i j := by
  rw [Regex.search_isSome]
  constructor
  · rintro ⟨i, hi, next, hnext⟩
    exact ⟨i, next.position, hi, (h (.start i) next.position).1 ⟨next, hnext, rfl⟩⟩
  · rintro ⟨i, j, hi, hR⟩
    obtain ⟨next, hnext, -⟩ := (h (.start i) j).2 hR
    exact ⟨i, hi, next, hnext⟩

/-- Between two assertions on the ends of the input only the whole of it matches. -/
theorem Decides.spanning {s : Subject} {rs : List Regex} {R : Nat → Nat → Prop}
    (h : Decides ((Regex.sequenceOf rs).outcomes s) R) :
    Decides ((Regex.sequenceOf [.assertion .inputStart, Regex.sequenceOf rs,
      .assertion .inputEnd]).outcomes s) (fun i j => i = 0 ∧ j = s.length ∧ R 0 s.length) := by
  refine ((Decides.assertion .inputStart).cons (h.cons (.assertion .inputEnd))).congr (fun i j => ?_)
  constructor
  · rintro ⟨a, ⟨rfl, hstart⟩, b, hR, rfl, hend⟩
    have hi : i = 0 := eq_of_beq hstart
    have hj : b = s.length := eq_of_beq hend
    subst hi hj
    exact ⟨rfl, rfl, hR⟩
  · rintro ⟨rfl, rfl, hR⟩
    exact ⟨0, ⟨rfl, beq_self_eq_true 0⟩, s.length, hR, rfl, beq_self_eq_true s.length⟩

namespace Pattern

variable {p : Pattern}

theorem consistent_of_references_nil (hdistinct : p.groupNames.Nodup) (hp : p.references = []) :
    p.Consistent := by
  refine ⟨hdistinct, fun name hname => ?_⟩
  rw [hp] at hname
  contradiction

theorem Faithful.decides_program (hf : p.Faithful) (hp : p.references = []) (s : Subject) :
    Decides (p.program.regex.outcomes s) (p.Relates s) := by
  have hgroups : p.RefersByGroupNames := fun name hname => by rw [hp] at hname; contradiction
  show Decides ((Regex.sequenceOf p.readItems).outcomes s) _
  rw [readItems, hf.items_eq hgroups]
  exact decides_items hp s p.groupNumber 0

theorem Faithful.decides_spanningProgram (hf : p.Faithful) (hp : p.references = []) (s : Subject) :
    Decides (p.spanningProgram.regex.outcomes s)
      (fun i j => i = 0 ∧ j = s.length ∧ p.Relates s 0 s.length) :=
  (hf.decides_program hp s).spanning

theorem Faithful.bounds_of_relates (hf : p.Faithful) (hp : p.references = []) {s : Subject}
    {i j : Nat} (hi : i ≤ s.length) (h : p.Relates s i j) : i ≤ j ∧ j ≤ s.length := by
  have hforwards := (hf.decides_program hp s).forwards h
  omega

theorem Faithful.firstMatch_isSome (hf : p.Faithful) (hp : p.references = []) (input : Text)
    (options : MatchOptions) :
    (p.program.firstMatch input options).isSome = true ↔
      ∃ i j, i ≤ j ∧ j ≤ input.length ∧ p.Relates (.ofText input options) i j := by
  rw [Program.firstMatch, (hf.decides_program hp _).search_isSome]
  constructor
  · rintro ⟨i, j, hi, hR⟩
    obtain ⟨hij, hj⟩ := hf.bounds_of_relates hp hi hR
    exact ⟨i, j, hij, hj, hR⟩
  · rintro ⟨i, j, hij, hj, hR⟩
    exact ⟨i, j, Nat.le_trans hij hj, hR⟩

/-- The first match lies between two related positions, the first as early as possible. -/
theorem Faithful.firstMatch_spec (hf : p.Faithful) (hp : p.references = []) {input : Text}
    {options : MatchOptions} {span : Span} {captures : Captures}
    (h : p.program.firstMatch input options = some (span, captures)) :
    span.start ≤ span.stop ∧ span.stop ≤ input.length ∧
      p.Relates (.ofText input options) span.start span.stop ∧
      ∀ i j, i < span.start → ¬ p.Relates (.ofText input options) i j := by
  have hdecides := hf.decides_program hp (.ofText input options)
  obtain ⟨hstart, hmem, hearlier⟩ := Regex.search_eq_some h
  have hR := (hdecides (.start span.start) span.stop).1 ⟨_, hmem, rfl⟩
  obtain ⟨hle, hstop⟩ := hf.bounds_of_relates hp hstart hR
  refine ⟨hle, hstop, hR, fun i j hi hij => ?_⟩
  obtain ⟨next, hnext, -⟩ := (hdecides (.start i) j).2 hij
  rw [hearlier i hi] at hnext
  contradiction

/-- Matching decides the relation of a pattern without references: the whole input matches if the
pattern relates its ends, some part of it matches if the pattern relates two positions, and what is
extracted is a text between two related positions, the first as early as possible. -/
theorem matching_decides (hdistinct : p.groupNames.Nodup) (hp : p.references = [])
    (hf : p.Faithful) (input : Text) (options : MatchOptions) :
    (∃ spans, p.spans (some input) options = .ok spans ∧
      (spans = true ↔ p.Relates (.ofText input options) 0 input.length)) ∧
    (∃ found, p.occursIn (some input) options = .ok found ∧
      (found = true ↔
        ∃ i j, i ≤ j ∧ j ≤ input.length ∧ p.Relates (.ofText input options) i j)) ∧
    (∃ record?, p.extract (some input) options = .ok record? ∧
      (record?.isSome = true ↔
        ∃ i j, i ≤ j ∧ j ≤ input.length ∧ p.Relates (.ofText input options) i j) ∧
      ∀ record, record? = some record →
        ∃ i j, i ≤ j ∧ j ≤ input.length ∧ p.Relates (.ofText input options) i j ∧
          (∀ i' j', i' < i → ¬ p.Relates (.ofText input options) i' j') ∧
          record.get? (utf16 "match") = some ((input.drop i).take (j - i))) := by
  have hc := consistent_of_references_nil hdistinct hp
  refine ⟨⟨_, hc.spans_eq input options, ?_⟩, ⟨_, hc.occursIn_eq input options, ?_⟩,
    ⟨_, hc.extract_eq input options, ?_, ?_⟩⟩
  · rw [Program.firstMatch, (hf.decides_spanningProgram hp _).search_isSome]
    constructor
    · rintro ⟨-, -, -, rfl, rfl, hR⟩
      exact hR
    · exact fun hR => ⟨0, input.length, Nat.zero_le _, rfl, rfl, hR⟩
  · exact hf.firstMatch_isSome hp input options
  · rw [Option.isSome_map]
    exact hf.firstMatch_isSome hp input options
  · intro record hrecord
    obtain ⟨⟨span, captures⟩, hfound, rfl⟩ := Option.map_eq_some_iff.1 hrecord
    obtain ⟨hle, hstop, hR, hearliest⟩ := hf.firstMatch_spec hp hfound
    refine ⟨span.start, span.stop, hle, hstop, hR, hearliest, ?_⟩
    rw [Source.get?_recordOf_match, Subject.slice_eq]
    rfl

/-- Loops around a body that may be empty, around an anchor and around each other, and a class that
excludes units. -/
def looped : Pattern :=
  sequence
    (repeated (group (repeated (either (utf16 "a") [[], utf16 "ab"]) .zeroOrMore)) (.atLeast three))
    [repeated (anchor .lineEnd) .oneOrMore,
      namedGroup ⟨utf16 "n", by decide⟩ (repeated (charClass true (utf16 "]x")) (.exactly three))]

theorem looped_decides :
    looped.groupNames.Nodup ∧ looped.references = [] ∧ looped.Faithful ∧
      ∃ spans, looped.spans (some (utf16 "aAB\n\nk")) ⟨true, true⟩ = .ok spans ∧
        (spans = true ↔ looped.Relates (.ofText (utf16 "aAB\n\nk") ⟨true, true⟩) 0 6) := by
  have hdistinct : looped.groupNames.Nodup := by decide
  have hreferences : looped.references = [] := by decide
  have hf : looped.Faithful := faithful_of_isClass (by decide) (by decide)
  exact ⟨hdistinct, hreferences, hf, (matching_decides hdistinct hreferences hf _ _).1⟩

end Pattern

end PatternAlgebra
