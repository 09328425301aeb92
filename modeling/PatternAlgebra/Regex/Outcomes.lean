import PatternAlgebra.Regex.Subject

/-!
# Outcomes

The meaning of an expression on a subject: from a state, all states in which it can end, in the
order in which backtracking would try them. An outcome can appear more than once.

A loop first makes its least number of rounds, which may be empty, and then more rounds, each of
which has to consume something; it prefers a further round to stopping. Every round begins by
forgetting what the groups of the body captured.
-/

namespace PatternAlgebra

/-- The outcomes of exactly so many rounds. -/
def mandatoryOutcomes (round : State → List State) : Nat → State → List State
  | 0, st => [st]
  | n + 1, st => (round st).flatMap (mandatoryOutcomes round n)

/-- The outcomes of at most so many rounds that each consume something, further rounds first. -/
def optionalOutcomes (round : State → List State) : Nat → State → List State
  | 0, st => [st]
  | n + 1, st =>
    ((round st).filter (fun next => next.position != st.position)).flatMap
      (optionalOutcomes round n) ++ [st]

namespace Regex

/-- All states in which an expression can end, the preferred one first. -/
def outcomes (s : Subject) : Regex → State → List State
  | empty, st => [st]
  | one units, st => if units.acceptsAt s st.position then [st.advance] else []
  | assertion anchor, st =>
    if anchor.holds s.units s.options.multiline st.position then [st] else []
  | sequence a b, st => (a.outcomes s st).flatMap (b.outcomes s)
  | choice a b, st => a.outcomes s st ++ b.outcomes s st
  | capture index body, st =>
    (body.outcomes s st).map (fun next => next.capture index st.position)
  | reference index, st => (s.afterReference? index st).toList
  | loop body least most, st =>
    let round := fun st : State => body.outcomes s (st.forget body.groups)
    (mandatoryOutcomes round least st).flatMap (fun next =>
      optionalOutcomes round
        (match most with
          | some most => most - least
          | none => s.length - next.position) next)

/-! What the outcomes are, for each way to build an expression but the loop. -/

section Members

variable {s : Subject} {st next : State}

@[simp] theorem mem_outcomes_empty : next ∈ empty.outcomes s st ↔ next = st := List.mem_singleton

@[simp] theorem mem_outcomes_one {units : UnitSet} :
    next ∈ (one units).outcomes s st ↔
      units.acceptsAt s st.position = true ∧ next = st.advance := by
  rw [outcomes, List.mem_ite_nil_right, List.mem_singleton]

@[simp] theorem mem_outcomes_assertion {anchor : Anchor} :
    next ∈ (assertion anchor).outcomes s st ↔
      anchor.holds s.units s.options.multiline st.position = true ∧ next = st := by
  rw [outcomes, List.mem_ite_nil_right, List.mem_singleton]

@[simp] theorem mem_outcomes_sequence {a b : Regex} :
    next ∈ (sequence a b).outcomes s st ↔
      ∃ mid ∈ a.outcomes s st, next ∈ b.outcomes s mid := List.mem_flatMap

@[simp] theorem mem_outcomes_choice {a b : Regex} :
    next ∈ (choice a b).outcomes s st ↔ next ∈ a.outcomes s st ∨ next ∈ b.outcomes s st :=
  List.mem_append

@[simp] theorem mem_outcomes_capture {index : Nat} {body : Regex} :
    next ∈ (capture index body).outcomes s st ↔
      ∃ mid ∈ body.outcomes s st, mid.capture index st.position = next := List.mem_map

@[simp] theorem mem_outcomes_reference {index : Nat} :
    next ∈ (reference index).outcomes s st ↔ s.afterReference? index st = some next :=
  Option.mem_toList

end Members

end Regex

end PatternAlgebra
