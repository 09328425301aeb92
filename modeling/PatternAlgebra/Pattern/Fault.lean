import PatternAlgebra.Number.Notation

/-!
# Faults of construction

Each way in which a pattern can be refused is one fault, with the offending values. Its code, the
parameter at fault and the message are functions of it.
-/

namespace PatternAlgebra

/-- The classes of errors that callers can tell apart. -/
inductive ErrorCode where
  | emptyAlternatives
  | emptySequence
  | invalidCount
  | invalidBounds
  | invalidGroupName
  | invalidCharRange
  | emptyRanges
  | invalidRangeSpec
  | emptyBackreference
  | invalidRegex
  deriving DecidableEq

namespace ErrorCode

def all : List ErrorCode :=
  [emptyAlternatives, emptySequence, invalidCount, invalidBounds, invalidGroupName,
    invalidCharRange, emptyRanges, invalidRangeSpec, emptyBackreference, invalidRegex]

/-- The spelling of a code. -/
def name : ErrorCode → String
  | emptyAlternatives => "EMPTY_ALTERNATIVES"
  | emptySequence => "EMPTY_SEQUENCE"
  | invalidCount => "INVALID_COUNT"
  | invalidBounds => "INVALID_BOUNDS"
  | invalidGroupName => "INVALID_GROUP_NAME"
  | invalidCharRange => "INVALID_CHAR_RANGE"
  | emptyRanges => "EMPTY_RANGES"
  | invalidRangeSpec => "INVALID_RANGE_SPEC"
  | emptyBackreference => "EMPTY_BACKREFERENCE"
  | invalidRegex => "INVALID_REGEX"

/-- The code with a spelling. -/
def ofName? (s : String) : Option ErrorCode := all.find? (·.name == s)

theorem ofName?_name (c : ErrorCode) : ofName? c.name = some c := by
  cases c <;> decide

end ErrorCode

/-- What a caller sees of a refused construction. -/
structure Refusal where
  code : ErrorCode
  message : Text
  /-- The parameter at fault, when there is a single one. -/
  argument : Option Text := none
  deriving DecidableEq

/-- The two repetitions with a single count. -/
inductive CountRole where
  | exactly
  | atLeast
  deriving DecidableEq

/-- The two bounds of a character range. -/
inductive RangeSide where
  | start
  | finish
  deriving DecidableEq

/-- Reasons to refuse a pattern. -/
inductive Fault where
  | noAlternatives
  | noPatterns
  | badCount (role : CountRole) (given : Double)
  | badBounds (least most : Double)
  | badGroupName (name : Text)
  | badCharCode (side : RangeSide) (given : Double)
  | notOneUnit (side : RangeSide)
  | reversedRange (first last : CodeUnit)
  | noRanges
  | emptyRangeSpec
  | noRangeInSpec (spec : Text)
  | emptyReferenceName
  deriving DecidableEq

/-- The node that takes the count. -/
def CountRole.owner : CountRole → Text
  | .exactly => utf16 "Exactly"
  | .atLeast => utf16 "AtLeast"

/-- The parameter that holds the count. -/
def CountRole.argument : CountRole → Text
  | .exactly => utf16 "count"
  | .atLeast => utf16 "min"

/-- The parameter that holds the bound. -/
def RangeSide.argument : RangeSide → Text
  | .start => utf16 "start"
  | .finish => utf16 "end"

namespace Fault

def code : Fault → ErrorCode
  | noAlternatives => .emptyAlternatives
  | noPatterns => .emptySequence
  | badCount _ _ => .invalidCount
  | badBounds _ _ => .invalidBounds
  | badGroupName _ => .invalidGroupName
  | badCharCode _ _ | notOneUnit _ | reversedRange _ _ => .invalidCharRange
  | noRanges => .emptyRanges
  | emptyRangeSpec | noRangeInSpec _ => .invalidRangeSpec
  | emptyReferenceName => .emptyBackreference

def argument : Fault → Option Text
  | noAlternatives => some (utf16 "alternatives")
  | noPatterns => some (utf16 "patterns")
  | badCount role _ => some role.argument
  | badBounds _ _ | reversedRange _ _ => none
  | badGroupName _ | emptyReferenceName => some (utf16 "name")
  | badCharCode side _ | notOneUnit side => some side.argument
  | noRanges | emptyRangeSpec | noRangeInSpec _ => some (utf16 "ranges")

def message : Fault → Text
  | noAlternatives => utf16 "Either requires at least one alternative"
  | noPatterns => utf16 "Sequence requires at least one pattern"
  | badCount role given =>
    role.owner ++ utf16 " " ++ role.argument ++ utf16 " must be a non-negative integer, got " ++
      given.text
  | badBounds least most =>
    utf16 "Invalid range: min=" ++ least.text ++ utf16 ", max=" ++ most.text
  | badGroupName name =>
    utf16 "Invalid group name " ++ name.quoted ++
      utf16 ": must start with a letter and contain only letters and digits (no underscores)"
  | badCharCode side given =>
    side.argument ++ utf16 " must be a character code between 0 and 65535, got " ++ given.text
  | notOneUnit side => side.argument ++ utf16 " must be a single character string"
  | reversedRange first last =>
    utf16 "Start character " ++ Text.quoted [first] ++
      utf16 " must be less than or equal to end character " ++ Text.quoted [last]
  | noRanges => utf16 "At least one CharRange is required"
  | emptyRangeSpec => utf16 "Range specification cannot be empty"
  | noRangeInSpec spec =>
    utf16 "No valid range in specification \"" ++ spec ++ utf16 "\" (expected 'a'-'z', ...)"
  | emptyReferenceName => utf16 "Group name cannot be empty"

def refusal (f : Fault) : Refusal := ⟨f.code, f.message, f.argument⟩

end Fault

/-- Why no pattern came of a request: its parameters were refused, or a named group was asked
for without a pattern to capture. -/
inductive BuildError where
  | refused (fault : Fault)
  | nothingToCapture (name : Text)
  deriving DecidableEq

def BuildError.message : BuildError → Text
  | .refused fault => fault.message
  | .nothingToCapture name =>
    utf16 "group(" ++ name.quoted ++ utf16 ") requires a pattern to capture"

end PatternAlgebra
