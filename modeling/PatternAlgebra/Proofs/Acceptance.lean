import PatternAlgebra.Proofs.Compilation
import PatternAlgebra.Proofs.Dangling
import PatternAlgebra.Proofs.PatternLeaves
import PatternAlgebra.Proofs.Refusals

/-!
# Patterns that a whole input is matched against

A pattern that can be matched against a whole input can be searched for as well, as long as the
names that it refers to hold no `>`. A name is read up to its first `>`, and what follows is part of
the expression: it may close a bracket that stands around the text only where it has to span the
input, or leave open what only the text behind it closes there. Such patterns are refused where they
are searched for; all others that can be matched against a whole input are accepted
(`accepted_of_spans`).
-/

namespace PatternAlgebra.Pattern

variable {p : Pattern}

/-- Whatever is asked about places in an input where the pattern occurs has an answer. -/
structure Accepted (p : Pattern) : Prop where
  displayed : ∀ options, ∃ shown, Source.displayed p.expression options = .ok shown
  occursIn : ∀ input options, ∃ found, p.occursIn input options = .ok found
  extracted : ∀ input options, ∃ record, p.extract input options = .ok record
  reported : ∀ cases options, ∃ report, Report.run p.expression cases options = .ok report

theorem accepted_of_compile {program : Program}
    (h : compile .anywhere p.expression = .ok program) : p.Accepted := by
  constructor
  · intro options
    rw [Source.displayed, h]
    exact ⟨_, rfl⟩
  · intro input options
    cases input with
    | none => exact ⟨false, rfl⟩
    | some input => exact ⟨_, Source.occursIn_of_compile h input options⟩
  · intro input options
    cases input with
    | none => exact ⟨none, rfl⟩
    | some input => exact ⟨_, Source.extract_of_compile h input options⟩
  · exact fun cases options => ⟨_, Report.run_of_compile h cases options⟩

/-- The group names of a pattern that compiles are distinct. -/
theorem nodup_groupNames_of_compile (hp : p.RefersByGroupNames) {scope : Scope} {program : Program}
    (h : compile scope p.expression = .ok program) : p.groupNames.Nodup := by
  obtain ⟨hnames, hdistinct, -⟩ := Program.ofTokens_eq_ok.1 (ofTokens_of_compile hp h)
  have hown : program.names = p.namesFrom 0 := by
    rw [hnames, ← numberedNames_tokens_eq]
    cases scope with
    | anywhere => rfl
    | wholeInput => exact Program.numberedNames_spanningTokens _
  rw [repeatedName?_eq_none, hown, map_fst_namesFrom] at hdistinct
  exact hdistinct

/-- A pattern that compiles for the whole input compiles as it stands, as long as the names that it
refers to hold no `>`. -/
theorem compile_anywhere_of_wholeInput (hplain : ∀ name ∈ p.references, greaterThan ∉ name.text)
    {program : Program} (h : compile .wholeInput p.expression = .ok program) :
    ∃ program, compile .anywhere p.expression = .ok program := by
  have hp := refersByGroupNames_of_compile hplain h
  obtain ⟨hfound, hparse⟩ := compile_eq_ok.1 h
  by_cases hnone : p.groupNames = []
  · obtain ⟨program, hparse⟩ := parse_unread hp hnone
    exact ⟨program, compile_eq_ok.2 ⟨hfound, hparse⟩⟩
  · have hdeclared : ∀ name ∈ p.references, name.text ∈ p.groupNames := by
      intro name hname
      by_contra hdangling
      obtain ⟨e, hrefused⟩ := parse_dangling hp hnone hname hdangling .wholeInput
      rw [hparse] at hrefused
      contradiction
    have hconsistent : p.Consistent := ⟨nodup_groupNames_of_compile hp h, hdeclared⟩
    exact ⟨_, hconsistent.compile_anywhere⟩

/-- A pattern that is matched against a whole input can be searched for, if the names that it refers
to hold no `>`. Otherwise it may be refused, but only for a bracket that is closed once too often or
an end of the text within a class, an escape or the opening of a group. -/
theorem accepted_of_spans {input : Text} {options : MatchOptions} {answer : Bool}
    (h : p.spans (some input) options = .ok answer) :
    ((∀ name ∈ p.references, greaterThan ∉ name.text) → p.Accepted) ∧
      (p.Accepted ∨ ∃ cause, cause.mendable = true ∧
        compile .anywhere p.expression = .error (.malformed p.expression cause)) := by
  obtain ⟨program, hcompile⟩ : ∃ program, compile .wholeInput p.expression = .ok program := by
    cases hcompile : compile .wholeInput p.expression with
    | ok program => exact ⟨program, rfl⟩
    | error e =>
      rw [spans, Source.spans, hcompile] at h
      contradiction
  refine ⟨?_, ?_⟩
  · intro hplain
    obtain ⟨program, hsearched⟩ := compile_anywhere_of_wholeInput hplain hcompile
    exact accepted_of_compile hsearched
  · cases hsearched : compile .anywhere p.expression with
    | ok program => exact .inl (accepted_of_compile hsearched)
    | error e =>
      by_cases hstays : ∀ cause, e = .malformed p.expression cause → cause.mendable = false
      · rw [compile_wholeInput_refused hsearched hstays] at hcompile
        contradiction
      · push Not at hstays
        obtain ⟨cause, rfl, hmendable⟩ := hstays
        exact .inr ⟨cause, by simpa using hmendable, rfl⟩

theorem spelled_accepted :
    spelled.spans (some (utf16 "<k<word>")) {} = .ok true ∧
      (∀ name ∈ spelled.references, greaterThan ∉ name.text) ∧ spelled.Accepted := by
  have hspans : spelled.spans (some (utf16 "<k<word>")) {} = .ok true := by decide +kernel
  have hplain : ∀ name ∈ spelled.references, greaterThan ∉ name.text := by decide
  exact ⟨hspans, hplain, (accepted_of_spans hspans).1 hplain⟩

/-- A group, and a reference to a name that goes on behind a `>` and closes a bracket there. -/
def mended : Pattern :=
  sequence (namedGroup ⟨utf16 "mark", by decide⟩ (shorthand .digit))
    [backreference ⟨utf16 "mark>)(?:", by decide⟩]

/-- A pattern that matches a whole input and is refused where the same input is searched. -/
theorem mended_occursIn :
    mended.spans (some (utf16 "11>")) {} = .ok true ∧
      mended.occursIn (some (utf16 "11>")) {} =
        .error (.malformed mended.expression .unmatchedClosing) ∧
      ¬ mended.Accepted := by
  have hrefused : mended.occursIn (some (utf16 "11>")) {} =
      .error (.malformed mended.expression .unmatchedClosing) := by decide +kernel
  refine ⟨by decide +kernel, hrefused, fun haccepted => ?_⟩
  obtain ⟨found, hfound⟩ := haccepted.occursIn (some (utf16 "11>")) {}
  rw [hrefused] at hfound
  contradiction

end PatternAlgebra.Pattern
