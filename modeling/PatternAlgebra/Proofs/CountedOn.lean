import Mathlib.Data.List.Basic
import PatternAlgebra.Proofs.Renumber
import PatternAlgebra.Regex.FirstOutcome

/-!
# Outcomes with groups counted on

An expression whose groups and references have all been counted on by the same number has the same
outcomes in the same order, but for the numbers under which the captures stand
(`Regex.outcomes_countOn`). The groups before them stay empty; what an expression does with captures
in these is not said.
-/

namespace PatternAlgebra

namespace State

/-- The state in which each group has a number greater by `k`, and the groups before are empty. -/
def countOn (k : Nat) (st : State) : State :=
  ⟨st.position, fun i => if i < k then none else st.captures (i - k)⟩

variable {k : Nat} {st : State}

theorem position_countOn : (st.countOn k).position = st.position := rfl

theorem captures_countOn (i : Nat) : (st.countOn k).captures (i + k) = st.captures i := by
  show (if i + k < k then none else st.captures (i + k - k)) = _
  rw [if_neg (Nat.not_lt.2 (Nat.le_add_left k i)), Nat.add_sub_cancel]

theorem countOn_eq {other : State} (hposition : other.position = st.position)
    (hbelow : ∀ i < k, other.captures i = none)
    (habove : ∀ i, other.captures (i + k) = st.captures i) : st.countOn k = other := by
  obtain ⟨position, captures⟩ := other
  obtain rfl : position = st.position := hposition
  have hcaptures : (st.countOn k).captures = captures := by
    funext i
    show (if i < k then none else st.captures (i - k)) = captures i
    split
    next hlt => exact (hbelow i hlt).symm
    next hge => rw [← habove, Nat.sub_add_cancel (Nat.not_lt.1 hge)]
  rw [← hcaptures]
  rfl

theorem countOn_start (position : Nat) : (start position).countOn k = start position :=
  countOn_eq rfl (fun _ _ => rfl) (fun _ => rfl)

theorem countOn_capture (index start : Nat) :
    (st.capture index start).countOn k = (st.countOn k).capture (index + k) start := by
  refine countOn_eq rfl (fun i hi => ?_) (fun i => ?_)
  · show (if i = index + k then _ else if i < k then none else _) = none
    rw [if_neg (by omega), if_pos hi]
  · show (if i + k = index + k then some (Span.mk start st.position)
      else (st.countOn k).captures (i + k)) = if i = index then _ else _
    rw [captures_countOn]
    by_cases heq : i = index
    · rw [if_pos (congrArg (· + k) heq), if_pos heq]
    · rw [if_neg (fun h => heq (Nat.add_right_cancel h)), if_neg heq]

theorem countOn_forget (groups : List Nat) :
    (st.forget groups).countOn k = (st.countOn k).forget (groups.map (· + k)) := by
  refine countOn_eq ?_ (fun i hi => ?_) (fun i => ?_)
  · rw [position_forget, position_forget, position_countOn]
  · rw [captures_forget]
    show (if _ then none else if i < k then none else _) = none
    rw [if_pos hi, ite_self]
  · have hmem : (groups.map (· + k)).contains (i + k) = groups.contains i := by
      rw [Bool.eq_iff_iff, List.contains_iff_mem, List.contains_iff_mem, List.mem_map]
      constructor
      · rintro ⟨j, hj, heq⟩
        exact Nat.add_right_cancel heq ▸ hj
      · exact fun hi => ⟨i, hi, rfl⟩
    rw [captures_forget, captures_forget, hmem, captures_countOn]

theorem countOn_afterReference (s : Subject) (index : Nat) :
    s.afterReference? (index + k) (st.countOn k) = (s.afterReference? index st).map (countOn k) := by
  unfold Subject.afterReference?
  rw [captures_countOn]
  cases st.captures index with
  | none => rfl
  | some span =>
    show (if s.standsAt (s.slice span) st.position = true then some _ else none) =
      Option.map (countOn k) (if s.standsAt (s.slice span) st.position = true then some _ else none)
    by_cases hstands : s.standsAt (s.slice span) st.position = true
    · rw [if_pos hstands, if_pos hstands]
      rfl
    · rw [if_neg hstands, if_neg hstands]
      rfl

end State

/-! ## Rounds -/

section Rounds

variable {φ : State → State} {round round' : State → List State}

theorem mandatoryOutcomes_map (hround : ∀ st, round' (φ st) = (round st).map φ) (n : Nat)
    (st : State) : mandatoryOutcomes round' n (φ st) = (mandatoryOutcomes round n st).map φ := by
  induction n generalizing st with
  | zero => rfl
  | succ n ih =>
    rw [mandatoryOutcomes, mandatoryOutcomes, hround, List.flatMap_map, List.map_flatMap]
    exact List.flatMap_congr (fun next _ => ih next)

/-- Whether a round has consumed something is seen from positions, which have to be kept. -/
theorem optionalOutcomes_map (hposition : ∀ st, (φ st).position = st.position)
    (hround : ∀ st, round' (φ st) = (round st).map φ) (n : Nat) (st : State) :
    optionalOutcomes round' n (φ st) = (optionalOutcomes round n st).map φ := by
  induction n generalizing st with
  | zero => rfl
  | succ n ih =>
    have hfilter : (round' (φ st)).filter (fun next => next.position != (φ st).position) =
        ((round st).filter (fun next => next.position != st.position)).map φ := by
      rw [hround, List.filter_map]
      simp only [Function.comp_def, hposition]
    rw [optionalOutcomes, optionalOutcomes, hfilter, List.map_append, List.flatMap_map,
      List.map_flatMap]
    congr 1
    exact List.flatMap_congr (fun next _ => ih next)

end Rounds

namespace Regex

/-- Outcomes do not depend on where the numbering of groups begins. -/
theorem outcomes_countOn (s : Subject) (k : Nat) (r : Regex) (st : State) :
    (r.renumber (· + k)).outcomes s (st.countOn k) = (r.outcomes s st).map (State.countOn k) := by
  induction r generalizing st with
  | empty => rfl
  | one units =>
    show (if units.acceptsAt s st.position then [st.advance.countOn k] else []) = _
    rw [outcomes]
    split <;> rfl
  | assertion a =>
    show (if a.holds s.units s.options.multiline st.position then [st.countOn k] else []) = _
    rw [outcomes]
    split <;> rfl
  | sequence a b iha ihb =>
    rw [renumber, outcomes, outcomes, iha, List.flatMap_map, List.map_flatMap]
    exact List.flatMap_congr (fun next _ => ihb next)
  | choice a b iha ihb => rw [renumber, outcomes, outcomes, iha, ihb, List.map_append]
  | capture index body ih =>
    rw [renumber, outcomes, outcomes, ih, List.map_map, List.map_map]
    exact List.map_congr_left (fun next _ => (State.countOn_capture index st.position).symm)
  | reference index =>
    rw [renumber, outcomes, outcomes, State.countOn_afterReference]
    cases s.afterReference? index st <;> rfl
  | loop body least most ih =>
    have hround : ∀ st : State, (body.renumber (· + k)).outcomes s
        ((st.countOn k).forget (body.renumber (· + k)).groups) =
          (body.outcomes s (st.forget body.groups)).map (State.countOn k) := by
      intro st
      rw [groups_renumber, ← State.countOn_forget, ih]
    have hposition : ∀ st : State, (st.countOn k).position = st.position := fun _ => rfl
    rw [renumber, outcomes, outcomes, List.map_flatMap, mandatoryOutcomes_map hround,
      List.flatMap_map]
    exact List.flatMap_congr (fun next _ => optionalOutcomes_map hposition hround _ next)

end Regex

end PatternAlgebra
