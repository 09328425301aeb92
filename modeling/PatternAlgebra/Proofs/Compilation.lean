import PatternAlgebra.Matching.Basic
import PatternAlgebra.Proofs.Agreement
import PatternAlgebra.Proofs.DeclaredNames
import PatternAlgebra.Proofs.Parsing
import PatternAlgebra.Report.Basic

/-!
# Compilation of consistent patterns

A pattern in which names are distinct and every reference has its group compiles, and no question
that is asked of it fails, whatever its texts and counts are. A pattern without these properties may
compile as well; nothing is said about that.
-/

namespace PatternAlgebra

/-! ## Questions asked of a text that compiles -/

theorem exists_program {scope : Scope} {source : Text}
    (h : (compile scope source).toOption.isSome = true) :
    ∃ program, compile scope source = .ok program := by
  cases hcompile : compile scope source with
  | error e =>
    rw [hcompile] at h
    contradiction
  | ok program => exact ⟨program, rfl⟩

namespace Source

variable {source : Text} {program : Program}

theorem occursIn_of_compile (h : compile .anywhere source = .ok program) (input : Text)
    (options : MatchOptions) :
    occursIn source (some input) options = .ok (program.firstMatch input options).isSome := by
  rw [occursIn, h]
  rfl

theorem spans_of_compile (h : compile .wholeInput source = .ok program) (input : Text)
    (options : MatchOptions) :
    spans source (some input) options = .ok (program.firstMatch input options).isSome := by
  rw [spans, h]
  rfl

theorem extract_of_compile (h : compile .anywhere source = .ok program) (input : Text)
    (options : MatchOptions) :
    extract source (some input) options =
      .ok ((program.firstMatch input options).map (fun found =>
        recordOf source program (.ofText input options) found.1 found.2)) := by
  rw [extract, h]
  rfl

end Source

namespace Report

variable {source : Text} {cases : Cases} {options : MatchOptions}

/-- A report on a text that compiles has a result for each of its cases. -/
theorem run_of_compile {program : Program} (h : compile .anywhere source = .ok program)
    (cases : Cases) (options : MatchOptions) :
    run source cases options = .ok ⟨source, cases.map (fun case =>
      .of case.1 case.2 (program.firstMatch case.1 options).isSome)⟩ := by
  have hresults : cases.mapM (runCase source options) =
      .ok (cases.map (fun case =>
        .of case.1 case.2 (program.firstMatch case.1 options).isSome)) := by
    induction cases with
    | nil => rfl
    | cons case cases ih =>
      rw [List.mapM_cons, ih, runCase, Source.occursIn_of_compile h]
      rfl
  rw [run, hresults]
  rfl

/-- A text that does not compile is refused at the first case. -/
theorem run_of_refused {e : CompileError} (h : compile .anywhere source = .error e)
    (hcases : cases ≠ []) : run source cases options = .error e := by
  obtain ⟨case, others, rfl⟩ := List.exists_cons_of_ne_nil hcases
  rw [run, List.mapM_cons, runCase, Source.occursIn, h]
  rfl

end Report

namespace Pattern

/-- The program of a consistent pattern: its items, names and groups. -/
def program (p : Pattern) : Program :=
  ⟨Regex.sequenceOf p.readItems, p.namesFrom 0, p.groupCount⟩

/-- The program that has to span the input. -/
def spanningProgram (p : Pattern) : Program :=
  ⟨Regex.sequenceOf [.assertion .inputStart, Regex.sequenceOf p.readItems, .assertion .inputEnd],
    p.namesFrom 0, p.groupCount⟩

variable {p : Pattern}

theorem Consistent.compile_anywhere (hp : p.Consistent) :
    compile .anywhere p.expression = .ok p.program := by
  rw [compile, hp.undeclaredName?_expression]
  show Except.mapError _ (Program.parse _) = _
  rw [parse_anywhere hp]
  rfl

theorem Consistent.compile_wholeInput (hp : p.Consistent) :
    compile .wholeInput p.expression = .ok p.spanningProgram := by
  rw [compile, hp.undeclaredName?_expression]
  show Except.mapError _ (Program.parse _) = _
  rw [parse_wholeInput hp]
  rfl

/-! ## Questions asked of a pattern -/

theorem Consistent.occursIn_eq (hp : p.Consistent) (input : Text) (options : MatchOptions) :
    p.occursIn (some input) options = .ok (p.program.firstMatch input options).isSome :=
  Source.occursIn_of_compile hp.compile_anywhere input options

theorem Consistent.spans_eq (hp : p.Consistent) (input : Text) (options : MatchOptions) :
    p.spans (some input) options = .ok (p.spanningProgram.firstMatch input options).isSome :=
  Source.spans_of_compile hp.compile_wholeInput input options

/-- A consistent pattern spans an input if one of its outcomes from the start ends at the end. -/
theorem Consistent.spans_iff_outcome (hp : p.Consistent) {input : Text} {options : MatchOptions} :
    p.spans (some input) options = .ok true ↔
      ∃ next ∈ p.program.regex.outcomes (.ofText input options) (.start 0),
        next.position = input.length := by
  rw [hp.spans_eq, Except.ok.injEq]
  exact Program.firstMatch_spanning (p := p.program)

theorem Consistent.extract_eq (hp : p.Consistent) (input : Text) (options : MatchOptions) :
    p.extract (some input) options =
      .ok ((p.program.firstMatch input options).map (fun found =>
        Source.recordOf p.expression p.program (.ofText input options) found.1 found.2)) :=
  Source.extract_of_compile hp.compile_anywhere input options

/-- A consistent pattern compiles, and whatever is asked of it has an answer. -/
theorem Consistent.never_refused (hp : p.Consistent) :
    (∀ scope, ∃ program, compile scope p.expression = .ok program) ∧
      (∀ options, ∃ shown, Source.displayed p.expression options = .ok shown) ∧
      (∀ input options, ∃ found, p.occursIn input options = .ok found) ∧
      (∀ input options, ∃ found, p.spans input options = .ok found) ∧
      (∀ input options, ∃ record, p.extract input options = .ok record) ∧
      (∀ cases options, ∃ report, Report.run p.expression cases options = .ok report) := by
  refine ⟨?_, ?_, ?_, ?_, ?_, ?_⟩
  · intro scope
    cases scope with
    | anywhere => exact ⟨_, hp.compile_anywhere⟩
    | wholeInput => exact ⟨_, hp.compile_wholeInput⟩
  · intro options
    rw [Source.displayed, hp.compile_anywhere]
    exact ⟨_, rfl⟩
  · intro input options
    cases input with
    | none => exact ⟨false, rfl⟩
    | some input => exact ⟨_, hp.occursIn_eq input options⟩
  · intro input options
    cases input with
    | none => exact ⟨false, rfl⟩
    | some input => exact ⟨_, hp.spans_eq input options⟩
  · intro input options
    cases input with
    | none => exact ⟨none, rfl⟩
    | some input => exact ⟨_, hp.extract_eq input options⟩
  · intro cases options
    exact ⟨_, Report.run_of_compile hp.compile_anywhere cases options⟩

/-- The double `1e21`, as a count. -/
def sextillion : Count := ⟨⟨0x444B1AE4D6E2EF50⟩, 10 ^ 21, by decide⟩

/-- A pattern whose counts are written in scientific form, the second one behind an anchor, and
whose texts are full of units with a meaning. -/
def awkward : Pattern :=
  sequence
    (namedGroup ⟨utf16 "units", by decide⟩
      (repeated (charClass false (utf16 "]^-\\")) (.exactly sextillion)))
    [repeated (anchor .inputStart) (.atLeast sextillion), literal (utf16 "(?<b>[*+\\A"),
      backreference ⟨utf16 "units", by decide⟩]

theorem awkward_never_refused :
    awkward.Consistent ∧
      (∀ scope, ∃ program, compile scope awkward.expression = .ok program) ∧
      (∀ options, ∃ shown, Source.displayed awkward.expression options = .ok shown) ∧
      (∀ input options, ∃ found, awkward.occursIn input options = .ok found) ∧
      (∀ input options, ∃ found, awkward.spans input options = .ok found) ∧
      (∀ input options, ∃ record, awkward.extract input options = .ok record) ∧
      (∀ cases options, ∃ report, Report.run awkward.expression cases options = .ok report) := by
  have hp : awkward.Consistent := ⟨by decide, by decide⟩
  exact ⟨hp, hp.never_refused⟩

end Pattern

end PatternAlgebra
