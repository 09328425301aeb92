import PatternAlgebra.Proofs.Groups
import PatternAlgebra.Proofs.Reading

/-!
# The items of a pattern

A pattern stands for a list of expressions to be matched one after another, given by recursion on
it. How a quantifier and its body become items is left open: as the pattern means it, the quantifier
repeats the whole body; as the text is read, it repeats the last item that its text stands behind.
-/

namespace PatternAlgebra

/-- How a quantifier becomes items, given its body and the items of that. -/
abbrev Repetition := Quantifier → Pattern → List Regex → List Regex

namespace Quantifier

/-- A quantifier as it is meant: one loop around the whole body. -/
def asMeant : Repetition := fun q _ items => [.loop (Regex.sequenceOf items) q.least q.most?]

/-- A quantifier as it is read: its tokens behind the body, which a group may enclose. -/
def asRead : Repetition := fun q body items =>
  q.tokens.foldl extendItems
    (if q.groups body.expression then [Regex.sequenceOf items] else items)

end Quantifier

def literalItems (t : Text) : List Regex := t.map (fun u => .one (.only u))

/-- One of several texts is a choice; a single text needs none. -/
def choiceItems (first : Text) : List Text → List Regex
  | [] => literalItems first
  | others =>
    [Regex.choiceOf (Regex.sequenceOf (literalItems first))
      (others.map (fun t => Regex.sequenceOf (literalItems t)))]

namespace Pattern

mutual

/-- The items of a pattern that `n` groups open before. `index` gives the group that a name refers
to. -/
@[simp] def items (rep : Repetition) (index : Text → Nat) (n : Nat) : Pattern → List Regex
  | literal t => literalItems t
  | either first others => choiceItems first others
  | sequence first others =>
    first.items rep index n ++ itemsAll rep index (n + first.groupCount) others
  | repeated body q => rep q body (body.items rep index n)
  | anyUnit => [.one .anyOnLine]
  | shorthand s => [.one (.members false [.shorthand s false])]
  | anchor a => [.assertion a]
  | charClass negated members => [.one (.members negated (members.map (fun u => .range u u)))]
  | charRange r => [.one (.members false [.range r.first r.last])]
  | multiRange first others =>
    [.one (.members false ((first :: others).map (fun r => .range r.first r.last)))]
  | group body | namedGroup _ body =>
    [.capture (n + 1) (Regex.sequenceOf (body.items rep index (n + 1)))]
  | backreference name => [.reference (index name.text)]

/-- The items of patterns, one after another. -/
@[simp] def itemsAll (rep : Repetition) (index : Text → Nat) (n : Nat) : List Pattern → List Regex
  | [] => []
  | p :: ps => p.items rep index n ++ itemsAll rep index (n + p.groupCount) ps

end

/-- The expression that a pattern means: its items with one loop for each quantifier, groups
numbered from one in the order in which they open, and references to the groups with their names. -/
def tree (p : Pattern) : Regex :=
  Regex.sequenceOf (p.items Quantifier.asMeant p.groupNumber 0)

mutual

/-- The repetitions in a pattern: what is repeated, and how often. -/
def repetitions : Pattern → List (Pattern × Quantifier)
  | sequence first others => first.repetitions ++ repetitionsAll others
  | repeated body q => (body, q) :: body.repetitions
  | group body | namedGroup _ body => body.repetitions
  | literal _ | either _ _ | anyUnit | shorthand _ | anchor _ | charClass _ _ | charRange _
  | multiRange _ _ | backreference _ => []

/-- The repetitions in patterns, one after another. -/
def repetitionsAll : List Pattern → List (Pattern × Quantifier)
  | [] => []
  | p :: ps => p.repetitions ++ repetitionsAll ps

end

end Pattern

end PatternAlgebra
