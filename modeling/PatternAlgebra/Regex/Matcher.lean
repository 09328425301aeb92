import PatternAlgebra.Regex.Subject

/-!
# Matching

The matcher follows the outcomes of an expression one at a time and hands each to a continuation,
until one is accepted. It builds no list, and it bounds the mandatory rounds of a loop: once there
are more of them than units left, one is empty, and an empty round can be repeated at will.
-/

namespace PatternAlgebra

/-- A continuation accepts a state, with an answer, or rejects it. -/
abbrev Continuation (α : Type) := State → Option α

/-- Exactly so many rounds. -/
def mandatoryRounds {α : Type} (round : State → Continuation α → Option α) :
    Nat → State → Continuation α → Option α
  | 0, st, k => k st
  | n + 1, st, k => round st (fun next => mandatoryRounds round n next k)

/-- At most so many rounds that each consume something, as many as possible first. -/
def optionalRounds {α : Type} (round : State → Continuation α → Option α) :
    Nat → State → Continuation α → Option α
  | 0, st, k => k st
  | n + 1, st, k =>
    match round st (fun next =>
      if next.position = st.position then none else optionalRounds round n next k) with
    | some answer => some answer
    | none => k st

namespace Regex

/-- Runs an expression from a state and gives the first answer of the continuation. -/
def run {α : Type} (s : Subject) : Regex → State → Continuation α → Option α
  | empty, st, k => k st
  | one units, st, k => if units.acceptsAt s st.position then k st.advance else none
  | assertion anchor, st, k =>
    if anchor.holds s.units s.options.multiline st.position then k st else none
  | sequence a b, st, k => a.run s st (fun next => b.run s next k)
  | choice a b, st, k =>
    match a.run s st k with
    | some answer => some answer
    | none => b.run s st k
  | capture index body, st, k => body.run s st (fun next => k (next.capture index st.position))
  | reference index, st, k =>
    match s.afterReference? index st with
    | some next => k next
    | none => none
  | loop body least most, st, k =>
    let groups := body.groups
    let round := fun (st : State) (k : Continuation α) => body.run s (st.forget groups) k
    mandatoryRounds round (min least (s.length - st.position + 1)) st (fun next =>
      optionalRounds round
        (match most with
          | some most => most - least
          | none => s.length - next.position) next k)

/-- The first match at or after a position, among so many positions. -/
def searchFrom (s : Subject) (r : Regex) : (count start : Nat) → Option (Span × Captures)
  | 0, _ => none
  | count + 1, start =>
    match r.run s (.start start) (fun st => some (Span.mk start st.position, st.captures)) with
    | some found => some found
    | none => searchFrom s r count (start + 1)

/-- The first match in a subject: its span, and what the groups captured. -/
def search (s : Subject) (r : Regex) : Option (Span × Captures) := r.searchFrom s (s.length + 1) 0

end Regex

end PatternAlgebra
