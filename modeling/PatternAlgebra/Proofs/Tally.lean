import Mathlib.Data.List.Forall2
import PatternAlgebra.Proofs.Compilation
import PatternAlgebra.Proofs.CountText
import PatternAlgebra.Proofs.TextLines

/-!
# What a report adds up to

A report on a text that compiles accounts for its cases one by one, its counts add up, and the last
two lines of the summary state them (`batch_adds_up`), also where inputs or the text hold line feeds
and the lines before these are not those of single cases. Reports on two lists of cases are put
together by putting the lists together.
-/

namespace PatternAlgebra

@[simp] theorem lineFeed_not_mem_decimalText (n : Nat) : 0x0A ∉ decimalText n := by
  intro hmem
  have hdigit := isDigit_of_mem_decimalText hmem
  revert hdigit
  decide

namespace Report

variable {source : Text} {options : MatchOptions}

@[simp] theorem lineFeed_not_mem_countsLine (total passed failed : Nat) :
    0x0A ∉ countsLine total passed failed := by
  have hwords : 0x0A ∉ utf16 "Results: " ∧ 0x0A ∉ utf16 " total, " ∧ 0x0A ∉ utf16 " passed, " ∧
      0x0A ∉ utf16 " failed" := by
    decide +kernel
  simp [countsLine, hwords]

@[simp] theorem lineFeed_not_mem_banner (failed : Nat) : 0x0A ∉ banner failed := by
  have hall : 0x0A ∉ icon true ++ utf16 " All tests passed" := by decide +kernel
  have hwords : 0x0A ∉ icon false ∧ 0x0A ∉ utf16 " " ∧ 0x0A ∉ utf16 " test(s) failed" := by
    decide +kernel
  rw [banner]
  split
  · exact hall
  · simp [hwords]

/-- Results as text end in the line with the counts and the banner. -/
theorem splitOn_format (pattern : Text) (results : List CaseResult) :
    ∃ front, (format pattern results).splitOn 0x0A = front ++
      [countsLine results.length (results.countP (·.passed))
          (results.length - results.countP (·.passed)),
        banner (results.length - results.countP (·.passed))] := by
  have hlast : ∀ total passed failed : Nat,
      [[], countsLine total passed failed, banner failed].flatMap (List.splitOn 0x0A) =
        [[], countsLine total passed failed, banner failed] := by
    intro total passed failed
    apply flatMap_splitOn
    simp
  rw [format, splitOn_lines (List.append_ne_nil_of_right_ne_nil _ (List.cons_ne_nil _ _)),
    List.flatMap_append, hlast, List.append_cons]
  exact ⟨_, rfl⟩

/-- The counts in a summary are those of the report. -/
theorem splitOn_summary (r : Report) :
    ∃ front, r.summary.splitOn 0x0A =
      front ++ [countsLine r.total r.passed r.failed, banner r.failed] :=
  splitOn_format r.pattern r.results

/-! ## Counts -/

@[simp] theorem passed_le_total (r : Report) : r.passed ≤ r.total := List.countP_le_length

@[simp] theorem passed_add_failed (r : Report) : r.passed + r.failed = r.total :=
  Nat.add_sub_cancel' r.passed_le_total

theorem allPassed_iff (r : Report) : r.allPassed = true ↔ r.failed = 0 := by
  have hsum := r.passed_add_failed
  rw [allPassed, beq_iff_eq]
  omega

/-- The counts of a report whose results are those of two others. -/
theorem counts_append {r s t : Report} (h : r.results = s.results ++ t.results) :
    r.total = s.total + t.total ∧ r.passed = s.passed + t.passed ∧
      r.failed = s.failed + t.failed := by
  have htotal : r.total = s.total + t.total := by
    rw [total, h, List.length_append]
    rfl
  have hpassed : r.passed = s.passed + t.passed := by
    rw [passed, h, List.countP_append]
    rfl
  have hr := r.passed_add_failed
  have hs := s.passed_add_failed
  have ht := t.passed_add_failed
  exact ⟨htotal, hpassed, by omega⟩

/-- Results in another order are counted alike. -/
theorem counts_of_perm {r s : Report} (h : r.results.Perm s.results) :
    r.total = s.total ∧ r.passed = s.passed ∧ r.failed = s.failed ∧ r.allPassed = s.allPassed := by
  have htotal : r.total = s.total := h.length_eq
  have hpassed : r.passed = s.passed := h.countP_eq _
  refine ⟨htotal, hpassed, ?_, ?_⟩
  · rw [failed, htotal, hpassed, failed]
  · rw [allPassed, htotal, hpassed, allPassed]

/-- Of two results one passes. -/
theorem countP_add_of_opposed {rs ss : List CaseResult}
    (h : List.Forall₂ (fun a b => b.passed = !a.passed) rs ss) :
    rs.countP (·.passed) + ss.countP (·.passed) = rs.length := by
  induction h with
  | nil => rfl
  | @cons a b rs ss hab _ ih =>
    rw [List.countP_cons, List.countP_cons, List.length_cons, hab]
    cases a.passed with
    | true =>
      simp only [Bool.not_true, Bool.false_eq_true, if_true, if_false]
      omega
    | false =>
      simp only [Bool.not_false, Bool.false_eq_true, if_true, if_false]
      omega

/-- A report whose results pass where those of another fail. -/
theorem counts_opposed {r s : Report}
    (h : List.Forall₂ (fun a b => b.passed = !a.passed) r.results s.results) :
    s.passed = r.failed ∧ s.failed = r.passed := by
  have htotal : r.total = s.total := h.length_eq
  have hpassed : r.passed + s.passed = r.total := countP_add_of_opposed h
  have hr := r.passed_add_failed
  have hs := s.passed_add_failed
  exact ⟨by omega, by omega⟩

/-! ## Reports on cases -/

/-- A case with the opposite answer expected. -/
def opposite (case : Text × Bool) : Text × Bool := (case.1, !case.2)

/-- A result is about a case: it holds what the text answers, and whether that was expected. -/
structure Settles (source : Text) (options : MatchOptions) (case : Text × Bool)
    (result : CaseResult) : Prop where
  input : result.input = case.1
  expected : result.expected = case.2
  actual : Source.occursIn source (some case.1) options = .ok result.actual
  passed : result.passed = true ↔ result.actual = result.expected

/-- A report accounts for cases: it has a result for each of them, in order, and counts them; its
counts add up and stand in the last two lines of its summary. -/
structure Accounts (source : Text) (options : MatchOptions) (cases : Cases) (r : Report) : Prop where
  pattern : r.pattern = source
  results : List.Forall₂ (Settles source options) cases r.results
  total : r.total = cases.length
  passed : r.passed =
    cases.countP (fun case => Source.occursIn source (some case.1) options = .ok case.2)
  sum : r.passed + r.failed = r.total
  allPassed : r.allPassed = true ↔ r.failed = 0
  lastLines : ∃ front, r.summary.splitOn 0x0A = front ++
    [utf16 "Results: " ++ decimalText r.total ++ utf16 " total, " ++ decimalText r.passed ++
      utf16 " passed, " ++ decimalText r.failed ++ utf16 " failed",
    if r.failed = 0 then utf16 "✓ All tests passed"
      else utf16 "✗ " ++ decimalText r.failed ++ utf16 " test(s) failed"]

theorem banner_eq (failed : Nat) :
    banner failed = if failed = 0 then utf16 "✓ All tests passed"
      else utf16 "✗ " ++ decimalText failed ++ utf16 " test(s) failed" := by
  have hall : icon true ++ utf16 " All tests passed" = utf16 "✓ All tests passed" := by
    decide +kernel
  have hcross : icon false ++ utf16 " " = utf16 "✗ " := by decide +kernel
  rw [banner, hall, hcross]

section Compiled

variable {program : Program} (h : compile .anywhere source = .ok program)

include h

theorem settles_of_compile (options : MatchOptions) (case : Text × Bool) :
    Settles source options case
      (.of case.1 case.2 (program.firstMatch case.1 options).isSome) where
  input := rfl
  expected := rfl
  actual := Source.occursIn_of_compile h case.1 options
  passed := beq_iff_eq

theorem accounts_of_compile (cases : Cases) (options : MatchOptions) :
    ∃ r, run source cases options = .ok r ∧ Accounts source options cases r := by
  refine ⟨_, run_of_compile h cases options, ?_⟩
  constructor
  · rfl
  · rw [List.forall₂_map_right_iff, List.forall₂_same]
    exact fun case _ => settles_of_compile h options case
  · exact List.length_map _
  · rw [passed, List.countP_map]
    refine List.countP_congr (fun case _ => ?_)
    rw [Source.occursIn_of_compile h, decide_eq_true_iff, Except.ok.injEq]
    exact beq_iff_eq
  · exact passed_add_failed _
  · exact allPassed_iff _
  · rw [← banner_eq]
    exact splitOn_summary _

/-- Lists of cases are put together as their reports are. -/
theorem run_append (xs ys : Cases) (options : MatchOptions) :
    ∃ rx ry r, run source xs options = .ok rx ∧ run source ys options = .ok ry ∧
      run source (xs ++ ys) options = .ok r ∧ r.results = rx.results ++ ry.results :=
  ⟨_, _, _, run_of_compile h xs options, run_of_compile h ys options,
    run_of_compile h (xs ++ ys) options, List.map_append⟩

/-- A case passes if it fails with the opposite answer expected. -/
theorem run_opposite (cases : Cases) (options : MatchOptions) :
    ∃ r s, run source cases options = .ok r ∧
      run source (cases.map opposite) options = .ok s ∧
      List.Forall₂ (fun a b => b.passed = !a.passed) r.results s.results := by
  refine ⟨_, _, run_of_compile h cases options, run_of_compile h _ options, ?_⟩
  rw [List.map_map, List.forall₂_map_left_iff, List.forall₂_map_right_iff, List.forall₂_same]
  intro case _
  show ((program.firstMatch case.1 options).isSome == !case.2) =
    !((program.firstMatch case.1 options).isSome == case.2)
  cases (program.firstMatch case.1 options).isSome <;> cases case.2 <;> rfl

end Compiled

/-- A report on a text that compiles accounts for its cases. Put together, two lists of cases have
their results one after another and their counts added; with all expectations turned round, what
passed fails and what failed passes. A text that does not compile is refused, unless there are no
cases. -/
theorem batch_adds_up (source : Text) (options : MatchOptions) :
    (∀ program, compile .anywhere source = .ok program →
      (∀ cases, ∃ r, run source cases options = .ok r ∧ Accounts source options cases r) ∧
        (∀ xs ys, ∃ rx ry r, run source xs options = .ok rx ∧ run source ys options = .ok ry ∧
          run source (xs ++ ys) options = .ok r ∧ r.results = rx.results ++ ry.results ∧
          r.total = rx.total + ry.total ∧ r.passed = rx.passed + ry.passed ∧
          r.failed = rx.failed + ry.failed) ∧
        ∀ cases, ∃ r s, run source cases options = .ok r ∧
          run source (cases.map opposite) options = .ok s ∧
          s.passed = r.failed ∧ s.failed = r.passed) ∧
      ∀ e, compile .anywhere source = .error e →
        (∀ cases, cases ≠ [] → run source cases options = .error e) ∧
          ∃ r, run source [] options = .ok r ∧ r.total = 0 := by
  constructor
  · intro program h
    refine ⟨fun cases => accounts_of_compile h cases options, fun xs ys => ?_, fun cases => ?_⟩
    · obtain ⟨rx, ry, r, hrx, hry, hr, hresults⟩ := run_append h xs ys options
      exact ⟨rx, ry, r, hrx, hry, hr, hresults, counts_append hresults⟩
    · obtain ⟨r, s, hr, hs, hresults⟩ := run_opposite h cases options
      exact ⟨r, s, hr, hs, counts_opposed hresults⟩
  · exact fun e h => ⟨fun cases hcases => run_of_refused h hcases, ⟨source, []⟩, rfl, rfl⟩

/-- A text with a line feed. -/
def ragged : Text := utf16 "a\n|b"

/-- An input with a line feed, and one that comes twice, with either answer expected. -/
def raggedCases : Cases := [(utf16 "a\n\"", true), (utf16 "b", false), (utf16 "b", true)]

theorem ragged_adds_up :
    (∃ program, compile .anywhere ragged = .ok program) ∧
      (∃ r, run ragged raggedCases {} = .ok r ∧ Accounts ragged {} raggedCases r ∧
        r.passed = 2 ∧ r.failed = 1) ∧
      compile .anywhere (utf16 "(") = .error (.malformed (utf16 "(") .unmatchedOpening) ∧
      run (utf16 "(") raggedCases {} = .error (.malformed (utf16 "(") .unmatchedOpening) := by
  obtain ⟨program, hprogram⟩ := exists_program (show
    (compile .anywhere ragged).toOption.isSome = true by decide +kernel)
  have hopen : compile .anywhere (utf16 "(") =
      .error (.malformed (utf16 "(") .unmatchedOpening) := by
    decide +kernel
  obtain ⟨r, hr, haccounts⟩ := ((batch_adds_up ragged {}).1 program hprogram).1 raggedCases
  have hpassed : r.passed = 2 := by
    rw [haccounts.passed]
    decide +kernel
  have hfailed : r.failed = 1 := by
    have hsum := haccounts.sum
    have htotal : r.total = 3 := haccounts.total
    omega
  exact ⟨⟨program, hprogram⟩, ⟨r, hr, haccounts, hpassed, hfailed⟩, hopen,
    ((batch_adds_up (utf16 "(") {}).2 _ hopen).1 raggedCases (List.cons_ne_nil _ _)⟩

end Report

end PatternAlgebra
