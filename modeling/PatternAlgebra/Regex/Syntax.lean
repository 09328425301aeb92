import PatternAlgebra.Pattern.Parameter
import PatternAlgebra.Text.Anchor
import PatternAlgebra.Text.CaseFold

/-!
# Regular expressions

The tree that an expression text stands for. Groups are numbered from one in the order of their
opening brackets, and references go by number. Loops are greedy. An expression consumes units one by
one, each from a set of units.
-/

namespace PatternAlgebra

/-- A part of a class: the units of a range, or those of a shorthand, or those outside it. -/
inductive ClassItem where
  | range (first last : CodeUnit)
  | shorthand (s : Shorthand) (negated : Bool)
  deriving DecidableEq

/-- A set of units. A class that is negated and has no items holds all units. -/
inductive UnitSet where
  | only (u : CodeUnit)
  | anyOnLine
  | members (negated : Bool) (items : List ClassItem)
  deriving DecidableEq

/-- Expression trees. -/
inductive Regex where
  | empty
  | one (units : UnitSet)
  | assertion (anchor : Anchor)
  | sequence (first second : Regex)
  | choice (first second : Regex)
  | capture (index : Nat) (body : Regex)
  | loop (body : Regex) (least : Nat) (most : Option Nat)
  | reference (index : Nat)
  deriving DecidableEq

namespace ClassItem

def contains (item : ClassItem) (u : CodeUnit) : Bool :=
  match item with
  | range first last => first ≤ u && u ≤ last
  | shorthand s negated => s.contains u != negated

/-- Whether the item holds a unit, or under folding some unit of the same letter. -/
def accepts (folding : Bool) (item : ClassItem) (u : CodeUnit) : Bool :=
  if folding then (CaseFold.peers (CaseFold.fold u)).any item.contains else item.contains u

end ClassItem

/-- Whether two units are the same, or under folding the same letter. -/
def sameUnit (folding : Bool) (u v : CodeUnit) : Bool :=
  if folding then CaseFold.fold u == CaseFold.fold v else u == v

/-- Whether a set matches a unit. Folding applies to the members of a class, negation after it. -/
def UnitSet.accepts (folding : Bool) : UnitSet → CodeUnit → Bool
  | only c, u => sameUnit folding c u
  | anyOnLine, u => !Text.isLineTerminator u
  | members negated items, u => items.any (·.accepts folding u) != negated

namespace Regex

/-- Expressions one after another, nested to the right. -/
@[simp] def sequenceOf : List Regex → Regex
  | [] => empty
  | [r] => r
  | r :: rs => sequence r (sequenceOf rs)

/-- A choice between a first expression and others, nested to the right. -/
@[simp] def choiceOf (first : Regex) : List Regex → Regex
  | [] => first
  | second :: others => choice first (choiceOf second others)

/-- The numbers of the groups in an expression. -/
@[simp] def groups : Regex → List Nat
  | empty | one _ | assertion _ | reference _ => []
  | sequence a b | choice a b => a.groups ++ b.groups
  | capture index body => index :: body.groups
  | loop body _ _ => body.groups

end Regex

end PatternAlgebra
