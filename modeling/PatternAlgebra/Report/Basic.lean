import PatternAlgebra.Matching.Basic
import PatternAlgebra.Report.Cases

/-!
# Reports

A report runs a pattern on test cases and counts how many gave the expected answer. Without cases
nothing is compiled. Results can be written as text without a report; the text counts them itself.
-/

namespace PatternAlgebra

/-- The outcome of a case. -/
structure CaseResult where
  input : Text
  expected : Bool
  actual : Bool
  passed : Bool
  deriving DecidableEq

namespace CaseResult

/-- The outcome of a case with the answer it gave. -/
def of (input : Text) (expected actual : Bool) : CaseResult :=
  ⟨input, expected, actual, actual == expected⟩

end CaseResult

/-- The outcomes of the cases of a pattern, given by its expression. -/
structure Report where
  pattern : Text
  results : List CaseResult
  deriving DecidableEq

namespace Report

def total (r : Report) : Nat := r.results.length

def passed (r : Report) : Nat := r.results.countP (·.passed)

def failed (r : Report) : Nat := r.total - r.passed

def allPassed (r : Report) : Bool := r.passed == r.total

/-- Runs an expression text on one case. -/
def runCase (source : Text) (options : MatchOptions) (case : Text × Bool) :
    Except CompileError CaseResult :=
  (Source.occursIn source (some case.1) options).map (CaseResult.of case.1 case.2)

/-- Runs an expression text on cases in order. -/
def run (source : Text) (cases : Cases) (options : MatchOptions) : Except CompileError Report :=
  (cases.mapM (runCase source options)).map (Report.mk source)

/-- Runs an expression text on the cases of a container. -/
def runAll (source : Text) (container : Container) (options : MatchOptions) :
    Except CompileError Report :=
  run source container.entries options

/-! ## Results as text -/

/-- An answer in words. -/
def label (found : Bool) : Text := if found then utf16 "match" else utf16 "no match"

/-- A check mark or a cross. -/
def icon (passed : Bool) : Text := if passed then utf16 "✓" else utf16 "✗"

/-- The line about a case. -/
def resultLine (c : CaseResult) : Text :=
  utf16 "  " ++ icon c.passed ++ utf16 " \"" ++ c.input ++ utf16 "\" expected " ++
    label c.expected ++ utf16 ", got " ++ label c.actual

/-- The line with the counts. -/
def countsLine (total passed failed : Nat) : Text :=
  utf16 "Results: " ++ decimalText total ++ utf16 " total, " ++ decimalText passed ++
    utf16 " passed, " ++ decimalText failed ++ utf16 " failed"

/-- The last line. -/
def banner (failed : Nat) : Text :=
  if failed = 0 then icon true ++ utf16 " All tests passed"
  else icon false ++ utf16 " " ++ decimalText failed ++ utf16 " test(s) failed"

/-- Results as text, under the expression that they are about. -/
def format (pattern : Text) (results : List CaseResult) : Text :=
  let passed := results.countP (·.passed)
  let failed := results.length - passed
  Text.lines (utf16 "Test Report" :: utf16 "===========" :: (utf16 "Pattern: " ++ pattern) ::
    [] :: results.map resultLine ++
      [[], countsLine results.length passed failed, banner failed])

/-- The report as text. -/
def summary (r : Report) : Text := format r.pattern r.results

end Report

end PatternAlgebra
