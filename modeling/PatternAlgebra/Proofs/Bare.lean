import PatternAlgebra.Proofs.Agreement
import PatternAlgebra.Proofs.Matching

/-!
# Patterns without groups

A pattern with neither groups nor references nor repetitions is consistent and is read as it is
meant, so nothing has to be asked of it. It spans an input if its relation holds between the ends
of the input (`Bare.spans_iff`), and a record of it holds the match alone (`Bare.extract_eq`).
Which of several matches is preferred is not decided here.
-/

namespace PatternAlgebra

/-- The record that holds a whole match and nothing else. -/
def Record.ofWhole (t : Text) : Record where
  entries := [(decimalText 0, t), (utf16 "match", t)]
  sorted := by
    have hkeys : decimalText 0 < utf16 "match" := by decide
    simpa using hkeys

theorem Source.recordOf_eq_ofWhole {p : Program} (hnames : p.names = []) (hcount : p.groupCount = 0)
    (source : Text) (subject : Subject) (span : Span) (captures : Captures) :
    recordOf source p subject span captures = .ofWhole (subject.slice span) := by
  have hnamed : (NameScan.declaredNames source).filterMap (fun name =>
      ((p.names.lookup name).bind (fun index => (captures index).map subject.slice)).map
        (fun value => (name, value))) = [] := by
    rw [List.filterMap_eq_nil_iff]
    intro name _
    rw [hnames]
    rfl
  rw [recordOf, hcount]
  simp only [hnamed]
  rfl

namespace Pattern

/-- What is extracted with a pattern without groups is the first match, alone. -/
theorem Consistent.extract_of_ungrouped {p : Pattern} (hp : p.Consistent) (h : p.capturing = [])
    (input : Text) (options : MatchOptions) :
    p.extract (some input) options =
      .ok ((p.program.firstMatch input options).map (fun found =>
        .ofWhole ((Subject.ofText input options).slice found.1))) := by
  have hnames : p.program.names = [] := by
    show p.namesFrom 0 = []
    rw [namesFrom, h]
    rfl
  have hcount : p.program.groupCount = 0 := by
    show p.groupCount = 0
    rw [groupCount, h]
    rfl
  rw [hp.extract_eq]
  congr 2
  funext found
  exact Source.recordOf_eq_ofWhole hnames hcount _ _ _ _

/-- A pattern without groups, references and repetitions. -/
structure Bare (p : Pattern) : Prop where
  ungrouped : p.capturing = []
  unreferring : p.references = []
  unrepeated : p.repetitions = []

namespace Bare

variable {p : Pattern}

theorem consistent (h : p.Bare) : p.Consistent := by
  refine consistent_of_references_nil ?_ h.unreferring
  rw [groupNames, h.ungrouped]
  exact .nil

theorem faithful (h : p.Bare) : p.Faithful := by
  have hnone : ∀ r, r ∉ p.repetitions := by
    rw [h.unrepeated]
    exact fun _ => List.not_mem_nil
  exact ⟨fun r hr => absurd hr (hnone r), fun r hr => absurd hr (hnone r)⟩

theorem spans_iff (h : p.Bare) (input : Text) (options : MatchOptions) :
    ∃ spanned, p.spans (some input) options = .ok spanned ∧
      (spanned = true ↔ p.Relates (.ofText input options) 0 input.length) := by
  refine ⟨_, h.consistent.spans_eq input options, ?_⟩
  show (p.program.spanning.firstMatch input options).isSome = true ↔ _
  rw [Program.firstMatch_spanning]
  exact h.faithful.decides_program h.unreferring _ (.start 0) input.length

/-- What is extracted is the first match, alone. -/
theorem extract_eq (h : p.Bare) (input : Text) (options : MatchOptions) :
    p.extract (some input) options =
      .ok ((p.program.firstMatch input options).map (fun found =>
        .ofWhole ((Subject.ofText input options).slice found.1))) :=
  h.consistent.extract_of_ungrouped h.ungrouped input options

end Bare

end Pattern

end PatternAlgebra
