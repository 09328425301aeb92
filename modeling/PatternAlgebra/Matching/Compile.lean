import PatternAlgebra.Pattern.Fault
import PatternAlgebra.Regex.Lowering
import PatternAlgebra.Regex.NameScan
import PatternAlgebra.Regex.Parser

/-!
# Compilation

Expression text is compiled in two steps. First every name it refers to has to be declared in it;
the engine alone would read a reference in a text without named groups as plain text. Then the
lowered text is read, either as it stands or so that it has to span the whole input.
-/

namespace PatternAlgebra

/-- Reasons for which an expression text does not compile. -/
inductive CompileError where
  | undeclaredName (source name : Text)
  | malformed (source : Text) (cause : SyntaxError)
  deriving DecidableEq

namespace CompileError

/-- The message about a text that does not compile. -/
def describe (source reason : Text) : Text :=
  utf16 "Cannot compile pattern /" ++ source ++ utf16 "/: " ++ reason

/-- The text as it was before lowering. -/
def source : CompileError → Text
  | undeclaredName source _ => source
  | malformed source _ => source

def code : ErrorCode := .invalidRegex

/-- What is said about an undeclared name. -/
def undeclaredReason (name : Text) : Text :=
  utf16 "Backreference \\k<" ++ name ++ utf16 "> refers to no named group"

/-- The message, where its wording is this library's own. -/
def message? : CompileError → Option Text
  | undeclaredName source name => some (describe source (undeclaredReason name))
  | malformed _ _ => none

end CompileError

/-- Where a match may stand: anywhere in the input, or over all of it. -/
inductive Scope where
  | anywhere
  | wholeInput
  deriving DecidableEq

/-- The text that the engine reads. -/
def engineText (scope : Scope) (source : Text) : Text :=
  match scope with
  | .anywhere => Lowering.lower source
  | .wholeInput => Lowering.spanning (Lowering.lower source)

/-- The first name that a text refers to and does not declare. -/
def undeclaredName? (source : Text) : Option Text :=
  (NameScan.referencedNames source).find? (fun name =>
    !(NameScan.declaredNames source).contains name)

/-- Compiles an expression text. -/
def compile (scope : Scope) (source : Text) : Except CompileError Program :=
  match undeclaredName? source with
  | some name => .error (.undeclaredName source name)
  | none => (Program.parse (engineText scope source)).mapError (.malformed source)

end PatternAlgebra
