import PatternAlgebra.Proofs.Bare
import PatternAlgebra.Proofs.Repetition

/-!
# Runs of units

A repetition of a pattern of one unit takes the first run of units that is long enough, and of that
run as many units as it may (`repetition_takes_run`). A run is counted with what the pattern itself
answers about each unit alone. Bodies of more than one unit are not considered: there a round may have
several ends, and the preferred one need not lead furthest.
-/

namespace PatternAlgebra

/-! ## Runs -/

/-- How many units in a row are accepted from a position on. -/
def Text.runLength (t : Text) (accepts : CodeUnit → Bool) (i : Nat) : Nat :=
  ((t.drop i).takeWhile accepts).length

theorem Text.runLength_le (t : Text) (accepts : CodeUnit → Bool) (i : Nat) :
    t.runLength accepts i ≤ t.length - i := by
  rw [← List.length_drop]
  exact (List.takeWhile_sublist accepts).length_le

/-- A run goes on as long as its next unit is accepted. -/
theorem Text.runLength_eq (t : Text) (accepts : CodeUnit → Bool) (i : Nat) :
    t.runLength accepts i = if (t[i]?).any accepts then t.runLength accepts (i + 1) + 1 else 0 := by
  rw [runLength, List.drop_eq_getElem?_toList_append]
  cases hu : t[i]? with
  | none =>
    have hnext : t.drop (i + 1) = [] :=
      List.drop_eq_nil_of_le (Nat.le_succ_of_le (List.getElem?_eq_none_iff.1 hu))
    rw [hnext]
    rfl
  | some u =>
    show ((u :: t.drop (i + 1)).takeWhile accepts).length = if accepts u then _ else 0
    rw [List.takeWhile_cons]
    split <;> rfl

/-- What is left of a run that long. -/
theorem Text.runLength_add {t : Text} {accepts : CodeUnit → Bool} {i n : Nat}
    (h : n ≤ t.runLength accepts i) : t.runLength accepts (i + n) = t.runLength accepts i - n := by
  induction n generalizing i with
  | zero => rfl
  | succ n ih =>
    have hrun := t.runLength_eq accepts i
    split at hrun
    · rw [show i + (n + 1) = i + 1 + n by omega, ih (by omega), hrun]
      omega
    · omega

/-- So many units, cut down to the greatest number if there is one. -/
def capped (most : Option Nat) (n : Nat) : Nat := most.elim n (min · n)

/-! ## Rounds of one unit -/

/-- So many units further. -/
def State.onward (st : State) (n : Nat) : State := { st with position := st.position + n }

theorem State.onward_advance (st : State) (n : Nat) : st.advance.onward n = st.onward (n + 1) := by
  simp only [onward, advance]
  congr 1
  omega

section Rounds

variable {input : Text} {accepts : CodeUnit → Bool} {round : State → List State}

/-- So many rounds of one unit lead so many units further, if the run is that long. -/
theorem mandatoryOutcomes_run
    (hround : ∀ st, round st = if (input[st.position]?).any accepts then [st.advance] else [])
    (n : Nat) (st : State) :
    mandatoryOutcomes round n st =
      if n ≤ input.runLength accepts st.position then [st.onward n] else [] := by
  induction n generalizing st with
  | zero => rfl
  | succ n ih =>
    rw [mandatoryOutcomes, hround, Text.runLength_eq]
    split
    next h =>
      rw [List.flatMap_singleton, ih, st.onward_advance]
      simp only [Nat.add_le_add_iff_right]
      rfl
    next h => rfl

/-- The preferred outcome is as far along the run as the rounds can lead. -/
theorem head?_optionalOutcomes_run
    (hround : ∀ st, round st = if (input[st.position]?).any accepts then [st.advance] else [])
    (n : Nat) (st : State) :
    (optionalOutcomes round n st).head? =
      some (st.onward (min n (input.runLength accepts st.position))) := by
  induction n generalizing st with
  | zero =>
    rw [Nat.zero_min]
    rfl
  | succ n ih =>
    rw [optionalOutcomes, hround, Text.runLength_eq]
    split
    next h =>
      have hmoved : [st.advance].filter (fun next => next.position != st.position) =
          [st.advance] := by
        apply List.filter_eq_self.2
        simp [State.advance]
      rw [hmoved, List.flatMap_singleton, List.head?_append, ih, st.onward_advance,
        Nat.add_min_add_right]
      rfl
    next h => rfl

end Rounds

/-! ## Loops around one unit -/

namespace Regex

variable {set : UnitSet} {input : Text} {options : MatchOptions}

theorem outcomes_one (set : UnitSet) (input : Text) (options : MatchOptions) (st : State) :
    (one set).outcomes (.ofText input options) st =
      if (input[st.position]?).any (set.accepts options.ignoreCase) then [st.advance] else [] := by
  have hunit : (Subject.ofText input options).units[st.position]? = input[st.position]? :=
    List.getElem?_toArray
  rw [outcomes, UnitSet.acceptsAt, hunit]
  cases input[st.position]? <;> rfl

/-- From a position a loop around one unit takes as much of the run as it may, if the run is long
enough. -/
theorem matchAt?_loop_one {least : Nat} {most : Option Nat} (hle : ∀ n, most = some n → least ≤ n)
    (i : Nat) :
    (loop (one set) least most).matchAt? (.ofText input options) i =
      if least ≤ input.runLength (set.accepts options.ignoreCase) i then
        some (⟨i, i + capped most (input.runLength (set.accepts options.ignoreCase) i)⟩,
          fun _ => none)
      else none := by
  have hround := outcomes_one set input options
  have hmandatory := mandatoryOutcomes_run hround least (.start i)
  have hlength := input.runLength_le (set.accepts options.ignoreCase) i
  have hrest := @Text.runLength_add input (set.accepts options.ignoreCase) i least
  change _ = if least ≤ input.runLength (set.accepts options.ignoreCase) i then _ else _
    at hmandatory
  generalize input.runLength (set.accepts options.ignoreCase) i = run at *
  rw [matchAt?]
  show Option.map _ (List.head? ((mandatoryOutcomes ((one set).outcomes (.ofText input options))
    least (.start i)).flatMap (fun next => optionalOutcomes
      ((one set).outcomes (.ofText input options)) _ next))) = _
  by_cases h : least ≤ run
  · rw [if_pos h] at hmandatory ⊢
    rw [hmandatory, List.flatMap_singleton, head?_optionalOutcomes_run hround]
    show some (Span.mk i (i + least + min _ (input.runLength _ (i + least))), _) = _
    rw [hrest h, Nat.add_assoc]
    cases most with
    | none =>
      have hreached : least + min (input.length - (i + least)) (run - least) = run := by omega
      exact congrArg (fun n => some (Span.mk i (i + n), fun _ => none)) hreached
    | some n =>
      have hn := hle n rfl
      have hreached : least + min (n - least) (run - least) = min n run := by omega
      exact congrArg (fun n => some (Span.mk i (i + n), fun _ => none)) hreached
  · rw [if_neg h] at hmandatory ⊢
    rw [hmandatory]
    rfl

end Regex

/-! ## Patterns of one unit -/

namespace Pattern

/-- A pattern that consumes one unit and asks for nothing else. -/
def isUnit : Pattern → Bool
  | anyUnit | shorthand _ | charClass _ _ | charRange _ | multiRange _ _ => true
  | literal _ | either _ _ | sequence _ _ | repeated _ _ | anchor _ | group _ | namedGroup _ _
  | backreference _ => false

/-- Whether a pattern accepts a unit: it spans the text of that unit alone. -/
def acceptsUnit (p : Pattern) (options : MatchOptions) (u : CodeUnit) : Bool :=
  p.spans (some [u]) options = .ok true

theorem bare_of_isUnit {p : Pattern} (hp : p.isUnit = true) : p.Bare := by
  cases p with
  | anyUnit | shorthand | charClass | charRange | multiRange => exact ⟨rfl, rfl, rfl⟩
  | literal | either | sequence | repeated | anchor | group | namedGroup | backreference =>
    contradiction

theorem readItems_of_isUnit {p : Pattern} (hp : p.isUnit = true) :
    ∃ set, p.readItems = [.one set] := by
  cases p with
  | anyUnit | shorthand | charClass | charRange | multiRange => exact ⟨_, rfl⟩
  | literal | either | sequence | repeated | anchor | group | namedGroup | backreference =>
    contradiction

theorem bracketsClass_of_isUnit {p : Pattern} (hp : p.isUnit = true) : p.BracketsClass := by
  intro hfirst _
  cases p with
  | charClass | charRange | multiRange => rfl
  | anyUnit => contradiction
  | shorthand s => cases s <;> contradiction
  | literal | either | sequence | repeated | anchor | group | namedGroup | backreference =>
    contradiction

/-- A pattern of one unit accepts the units of the set that it is read as. -/
theorem acceptsUnit_eq {p : Pattern} (hp : p.isUnit = true) {set : UnitSet}
    (hset : p.readItems = [.one set]) (options : MatchOptions) :
    p.acceptsUnit options = set.accepts options.ignoreCase := by
  funext u
  rw [Bool.eq_iff_iff, acceptsUnit, decide_eq_true_iff,
    (bare_of_isUnit hp).consistent.spans_iff_outcome]
  have hregex : p.program.regex = .one set := congrArg Regex.sequenceOf hset
  rw [hregex, Regex.outcomes_one]
  show (∃ next ∈ (if set.accepts options.ignoreCase u = true then _ else _), _) ↔ _
  constructor
  · intro h
    obtain ⟨next, hnext, -⟩ := h
    exact (List.mem_ite_nil_right.1 hnext).1
  · intro h
    rw [if_pos h]
    exact ⟨_, List.mem_singleton_self _, rfl⟩

/-- From a position a repetition of a pattern of one unit takes as much of the run as it may. -/
theorem matchAt?_repeated {p : Pattern} (hp : p.isUnit = true) {q : Quantifier}
    (hexact : ∀ n ∈ q.counts, n < 2 ^ 53) (input : Text) (options : MatchOptions) (i : Nat) :
    (repeated p q).program.regex.matchAt? (.ofText input options) i =
      if q.least ≤ input.runLength (p.acceptsUnit options) i then
        some (⟨i, i + capped q.most? (input.runLength (p.acceptsUnit options) i)⟩, fun _ => none)
      else none := by
  obtain ⟨set, hset⟩ := readItems_of_isUnit hp
  have hread := (bare_of_isUnit hp).consistent.readItems_repeated (bracketsClass_of_isUnit hp) hexact
  rw [hset] at hread
  have hregex : (repeated p q).program.regex = .loop (.one set) q.least q.most? :=
    congrArg Regex.sequenceOf hread
  rw [hregex, acceptsUnit_eq hp hset, Regex.matchAt?_loop_one (fun _ => q.least_le_most)]

/-- A repetition of a pattern of one unit is found where a run of units that the pattern accepts is as
long as the least count for the first time, and what is extracted is that run, cut down to the
greatest count if there is one. -/
theorem repetition_takes_run {p : Pattern} (hp : p.isUnit = true) {q : Quantifier}
    (hexact : ∀ n ∈ q.counts, n ≤ 2 ^ 53 - 1) (input : Text) (options : MatchOptions) :
    ((repeated p q).extract (some input) options = .ok none ↔
      ∀ i, i ≤ input.length → input.runLength (p.acceptsUnit options) i < q.least) ∧
    ∀ i, i ≤ input.length → q.least ≤ input.runLength (p.acceptsUnit options) i →
      (∀ j, j < i → input.runLength (p.acceptsUnit options) j < q.least) →
      (repeated p q).extract (some input) options =
        .ok (some (.ofWhole ((input.drop i).take
          (capped q.most? (input.runLength (p.acceptsUnit options) i))))) := by
  have hbare := bare_of_isUnit hp
  have hextract := (hbare.consistent.repeated q).extract_of_ungrouped hbare.ungrouped input options
  have hmatch := matchAt?_repeated hp
    (fun n hn => Nat.lt_of_le_of_lt (hexact n hn) (by decide)) input options
  have hnone : ∀ i, (repeated p q).program.regex.matchAt? (.ofText input options) i = none ↔
      input.runLength (p.acceptsUnit options) i < q.least := by
    intro i
    rw [hmatch, ← Nat.not_le]
    exact ite_eq_right_iff.trans (by simp)
  constructor
  · rw [hextract, Except.ok.injEq, Option.map_eq_none_iff, Program.firstMatch, Regex.search_eq_none]
    refine forall₂_congr (fun i _ => ?_)
    rw [← hnone, Regex.matchAt?_eq_none]
  · intro i hi hlong hearlier
    have hfound := Regex.search_of_matchAt? hi ((hmatch i).trans (if_pos hlong))
      (fun j hj => (hnone j).2 (hearlier j hj))
    rw [hextract, Program.firstMatch, hfound]
    show Except.ok (some (Record.ofWhole (Subject.slice _ _))) = _
    rw [Subject.slice_eq, Nat.add_sub_cancel_left]
    rfl

def fourToSix : Quantifier :=
  .between ⟨⟨⟨0x4010000000000000⟩, 4, by decide⟩, ⟨⟨0x4018000000000000⟩, 6, by decide⟩, by decide⟩

/-- Where case is ignored a run of units that are not a letter ends at either case of it. A line
terminator does not end it. -/
theorem excluded_takes_run :
    (charClass true (utf16 "b")).isUnit = true ∧ (∀ n ∈ fourToSix.counts, n ≤ 2 ^ 53 - 1) ∧
      (repeated (charClass true (utf16 "b")) fourToSix).extract (some (utf16 "aaaBaaa"))
        ⟨true, false⟩ = .ok none ∧
      (repeated (charClass true (utf16 "b")) fourToSix).extract (some (utf16 "aB\ncaaaaa"))
        ⟨true, false⟩ = .ok (some (.ofWhole (utf16 "\ncaaaa"))) := by
  have hunit : (charClass true (utf16 "b")).isUnit = true := rfl
  have hcounts : ∀ n ∈ fourToSix.counts, n ≤ 2 ^ 53 - 1 := by decide
  have hshort := (repetition_takes_run hunit hcounts (utf16 "aaaBaaa") ⟨true, false⟩).1
  have hlong := (repetition_takes_run hunit hcounts (utf16 "aB\ncaaaaa") ⟨true, false⟩).2
  have hfound := hlong 2 (by decide) (by decide +kernel) (by decide +kernel)
  have htaken : capped fourToSix.most? ((utf16 "aB\ncaaaaa").runLength
      ((charClass true (utf16 "b")).acceptsUnit ⟨true, false⟩) 2) = 6 := by decide +kernel
  rw [htaken] at hfound
  exact ⟨hunit, hcounts, hshort.2 (by decide +kernel), hfound⟩

end Pattern

end PatternAlgebra
