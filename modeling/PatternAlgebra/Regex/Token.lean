import PatternAlgebra.Regex.Syntax

/-!
# Tokens of expressions

An expression text is a list of tokens: sets that match one unit, assertions, references by name,
brackets, bars and quantifiers. The reasons for which a text is refused stand here as well.
-/

namespace PatternAlgebra

/-- How a bracket pair groups. -/
inductive Grouping where
  | plain
  | captured (name : Option Text)
  deriving DecidableEq

inductive Token where
  | one (units : UnitSet)
  | assertion (anchor : Anchor)
  | reference (name : Text)
  | opening (grouping : Grouping)
  | closing
  | bar
  | quantifier (least : Nat) (most : Option Nat)
  deriving DecidableEq

/-- Reasons to refuse an expression text. -/
inductive SyntaxError where
  | danglingBackslash
  | badReference
  | badGroup
  | unclosedClass
  | reversedClassRange
  | reversedCounts
  | nothingToRepeat
  | unmatchedClosing
  | unmatchedOpening
  | duplicateName (name : Text)
  | unknownName (name : Text)
  deriving DecidableEq

end PatternAlgebra
