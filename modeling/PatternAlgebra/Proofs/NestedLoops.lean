import PatternAlgebra.Proofs.Repetition

/-!
# Loops around loops

To repeat any number of times what is itself optional, or itself repeated any number of times, gives
the same answers as to repeat it once (`nested_loops_collapse`). A round that consumes nothing is
rejected wherever it occurs, so an outer loop only tries again what an inner one has tried in vain:
outcomes are listed more often, but the first answer among them does not change. Nothing of the kind
is claimed for other counts, nor that the lists of outcomes are the same.
-/

namespace PatternAlgebra

/-! ## Further rounds -/

/-- The outcomes of a round that has consumed something. -/
def further (round : State → List State) (st : State) : List State :=
  (round st).filter (fun next => next.position != st.position)

/-- Of the rounds of a loop only those that consume something matter. -/
theorem optionalOutcomes_of_further {round round' : State → List State}
    (h : ∀ st, further round st = further round' st) (n : Nat) (st : State) :
    optionalOutcomes round n st = optionalOutcomes round' n st := by
  induction n generalizing st with
  | zero => rfl
  | succ n ih =>
    show (further round st).flatMap (optionalOutcomes round n) ++ [st] =
      (further round' st).flatMap (optionalOutcomes round' n) ++ [st]
    rw [h, funext ih]

/-- The outcomes of as many further rounds as there can be. -/
def Subject.rounds (s : Subject) (round : State → List State) (st : State) : List State :=
  optionalOutcomes round (s.length - st.position) st

section Rounds

variable {s : Subject} {g : List Nat} {round round' : State → List State}

theorem further_spec (hround : ∀ st, ∀ next ∈ round st, s.Reaches g st next) {st next : State}
    (h : next ∈ further round st) : st.position < next.position ∧ next.position ≤ s.length := by
  obtain ⟨hnext, hmoved⟩ := List.mem_filter.1 h
  have hne : next.position ≠ st.position := by simpa using hmoved
  exact (hround st next hnext).1.resolve_left hne

theorem further_eq_nil (hround : ∀ st, ∀ next ∈ round st, s.Reaches g st next) {st : State}
    (h : s.length ≤ st.position) : further round st = [] := by
  rw [List.eq_nil_iff_forall_not_mem]
  intro next hnext
  have hspec := further_spec hround hnext
  omega

/-- A round that would stay comes last, and does not count. -/
theorem further_of_append {l : List State} {st stay : State} (hround : round st = l ++ [stay])
    (hl : ∀ next ∈ l, st.position < next.position) (hstay : stay.position = st.position) :
    further round st = l := by
  have hmoved : l.filter (fun next => next.position != st.position) = l := by
    apply List.filter_eq_self.2
    intro next hnext
    have hlt := hl next hnext
    have hne : next.position ≠ st.position := by omega
    simpa using hne
  rw [further, hround, List.filter_append, hmoved, List.filter_cons_of_neg (by simp [hstay])]
  exact List.append_nil l

/-- More rounds than there are units left change nothing. -/
theorem optionalOutcomes_stable (hround : ∀ st, ∀ next ∈ round st, s.Reaches g st next) {m n : Nat}
    {st : State} (hm : s.length - st.position ≤ m) (hn : s.length - st.position ≤ n) :
    optionalOutcomes round m st = optionalOutcomes round n st := by
  induction m generalizing n st with
  | zero =>
    cases n with
    | zero => rfl
    | succ n =>
      show [st] = (further round st).flatMap (optionalOutcomes round n) ++ [st]
      rw [further_eq_nil hround (by omega)]
      rfl
  | succ m ih =>
    cases n with
    | zero =>
      show (further round st).flatMap (optionalOutcomes round m) ++ [st] = [st]
      rw [further_eq_nil hround (by omega)]
      rfl
    | succ n =>
      show (further round st).flatMap (optionalOutcomes round m) ++ [st] =
        (further round st).flatMap (optionalOutcomes round n) ++ [st]
      apply congrArg (· ++ [st])
      apply List.flatMap_congr
      intro next hnext
      have hspec := further_spec hround hnext
      apply ih
      · omega
      · omega

/-- A loop makes one further round and goes on, or else stops. -/
theorem Subject.rounds_eq (hround : ∀ st, ∀ next ∈ round st, s.Reaches g st next) (st : State) :
    s.rounds round st = (further round st).flatMap (s.rounds round) ++ [st] := by
  have hmore : s.rounds round st = optionalOutcomes round (s.length - st.position + 1) st :=
    optionalOutcomes_stable hround (Nat.le_refl _) (Nat.le_succ _)
  rw [hmore]
  apply congrArg (· ++ [st])
  apply List.flatMap_congr
  intro next hnext
  have hspec := further_spec hround hnext
  apply optionalOutcomes_stable hround
  · omega
  · exact Nat.le_refl _

/-- A further round consumes something, however many rounds follow it. -/
theorem rounds_spec (hround : ∀ st, ∀ next ∈ round st, s.Reaches g st next) {st mid next : State}
    (hmid : mid ∈ further round st) (h : next ∈ s.rounds round mid) :
    st.position < next.position ∧ next.position ≤ s.length := by
  obtain ⟨hlt, hle⟩ := further_spec hround hmid
  have hlater := (reaches_of_mem_optionalOutcomes hround _ mid next h).1
  exact ⟨Nat.lt_of_lt_of_le hlt hlater.le, hlater.le_length hle⟩

/-- To make the rounds of a loop twice gives the same first answers as to make them once. -/
theorem Subject.rounds_twice (hround : ∀ st, ∀ next ∈ round st, s.Reaches g st next) (st : State) :
    SameFirst ((s.rounds round st).flatMap (s.rounds round)) (s.rounds round st) := by
  generalize hleft : s.length - st.position = left
  induction left using Nat.strongRecOn generalizing st with
  | ind left ih =>
    have honce := s.rounds_eq hround st
    have htwice : (s.rounds round st).flatMap (s.rounds round) =
        (further round st).flatMap (fun next => (s.rounds round next).flatMap (s.rounds round)) ++
          s.rounds round st := by
      conv_lhs => rw [honce, List.flatMap_append, List.flatMap_assoc, List.flatMap_singleton]
    have hfurther : SameFirst
        ((further round st).flatMap (fun next => (s.rounds round next).flatMap (s.rounds round)))
        ((further round st).flatMap (s.rounds round)) := by
      apply SameFirst.flatMap (.refl _)
      intro next hnext
      have hspec := further_spec hround hnext
      exact ih (s.length - next.position) (by omega) next rfl
    rw [htwice]
    apply (hfurther.append (.refl _)).trans
    rw [honce]
    exact .append_again _ _

/-- A loop around a loop gives the same first answers as the inner one. -/
theorem Subject.rounds_of_rounds (hround : ∀ st, ∀ next ∈ round st, s.Reaches g st next)
    (hround' : ∀ st, ∀ next ∈ round' st, s.Reaches g st next)
    (hfurther : ∀ st, further round' st = (further round st).flatMap (s.rounds round))
    (st : State) : SameFirst (s.rounds round' st) (s.rounds round st) := by
  generalize hleft : s.length - st.position = left
  induction left using Nat.strongRecOn generalizing st with
  | ind left ih =>
    rw [s.rounds_eq hround' st, s.rounds_eq hround st, hfurther, List.flatMap_assoc]
    refine SameFirst.append (SameFirst.flatMap (.refl _) ?_) (.refl _)
    intro mid hmid
    have hinner : SameFirst ((s.rounds round mid).flatMap (s.rounds round'))
        ((s.rounds round mid).flatMap (s.rounds round)) := by
      apply SameFirst.flatMap (.refl _)
      intro next hnext
      have hspec := rounds_spec hround hmid hnext
      exact ih (s.length - next.position) (by omega) next rfl
    exact hinner.trans (s.rounds_twice hround mid)

end Rounds

/-! ## Loops -/

namespace Regex

variable {s : Subject}

theorem outcomes_loop_eq (body : Regex) :
    (loop body 0 none).outcomes s = s.rounds (body.round s) := by
  funext st
  exact List.flatMap_singleton _ _

/-- A round forgets what its groups captured; to forget that before makes no difference. -/
theorem further_forget (body : Regex) (st : State) :
    further (body.round s) (st.forget body.groups) = further (body.round s) st := by
  have hforget : (st.forget body.groups).forget body.groups = st.forget body.groups :=
    State.forget_congr (st.position_forget _)
      (fun i hi => (st.sameOutside_forget body.groups i hi).symm)
  rw [further, further, round, round, hforget, State.position_forget]

/-- An optional round, as a round of a loop, is the round that is optional. -/
theorem further_optional (body : Regex) (st : State) :
    further ((loop body 0 (some 1)).round s) st = further (body.round s) st := by
  have hround : (loop body 0 (some 1)).round s st =
      further (body.round s) (st.forget body.groups) ++ [st.forget body.groups] := by
    have hone := List.flatMap_singleton' (further (body.round s) (st.forget body.groups))
    exact (List.flatMap_singleton _ _).trans (congrArg (· ++ [st.forget body.groups]) hone)
  rw [further_forget] at hround
  apply further_of_append hround
  · intro next hnext
    exact (further_spec body.round_spec hnext).1
  · exact st.position_forget _

/-- A loop, as a round of another one, is a further round with others behind it. -/
theorem further_loop (body : Regex) (st : State) :
    further ((loop body 0 none).round s) st =
      (further (body.round s) st).flatMap (s.rounds (body.round s)) := by
  have hround : (loop body 0 none).round s st =
      (further (body.round s) (st.forget body.groups)).flatMap (s.rounds (body.round s)) ++
        [st.forget body.groups] := by
    rw [round, outcomes_loop_eq]
    exact s.rounds_eq body.round_spec _
  rw [further_forget] at hround
  apply further_of_append hround
  · intro next hnext
    obtain ⟨mid, hmid, hrest⟩ := List.mem_flatMap.1 hnext
    exact (rounds_spec body.round_spec hmid hrest).1
  · exact st.position_forget _

/-- A loop around an optional expression has the outcomes of a loop around the expression. -/
theorem outcomes_loop_optional (s : Subject) (body : Regex) :
    (loop (loop body 0 (some 1)) 0 none).outcomes s = (loop body 0 none).outcomes s := by
  rw [outcomes_loop_eq, outcomes_loop_eq]
  funext st
  exact optionalOutcomes_of_further body.further_optional _ st

/-- A loop around a loop has the first answers of the inner loop. -/
theorem outcomes_loop_loop (s : Subject) (body : Regex) (st : State) :
    SameFirst ((loop (loop body 0 none) 0 none).outcomes s st)
      ((loop body 0 none).outcomes s st) := by
  rw [outcomes_loop_eq, outcomes_loop_eq]
  exact s.rounds_of_rounds body.round_spec (loop body 0 none).round_spec body.further_loop st

end Regex

/-! ## Patterns -/

namespace Pattern

variable {p : Pattern}

/-- To repeat any number of times what is repeated any number of times, or what is optional, gives the
same answers as to repeat it any number of times. -/
theorem nested_loops_collapse (hp : p.Consistent) :
    SameAnswers p.zeroOrMore.zeroOrMore p.zeroOrMore ∧
      SameAnswers p.optional.zeroOrMore p.zeroOrMore := by
  have honce := hp.repeated .zeroOrMore
  constructor
  · refine (honce.repeated .zeroOrMore).sameAnswers_of_sameFirst honce (fun s st => ?_) rfl rfl
    exact Regex.outcomes_loop_loop s _ st
  · refine ((hp.repeated .optional).repeated .zeroOrMore).sameAnswers_of_outcomes honce
      (fun s => ?_) rfl rfl
    exact Regex.outcomes_loop_optional s _

/-- A captured text that is empty if it may be, and that text once more. -/
def reluctant : Pattern :=
  sequence (namedGroup ⟨utf16 "part", by decide⟩ (either [] [utf16 "a", utf16 "ab"]))
    [backreference ⟨utf16 "part", by decide⟩]

theorem reluctant_loops_collapse :
    reluctant.Consistent ∧ reluctant.spans (some []) {} = .ok true ∧
      SameAnswers reluctant.zeroOrMore.zeroOrMore reluctant.zeroOrMore ∧
      SameAnswers reluctant.optional.zeroOrMore reluctant.zeroOrMore := by
  have hp : reluctant.Consistent := ⟨by decide, by decide⟩
  have hempty : reluctant.spans (some []) {} = .ok true := by decide +kernel
  exact ⟨hp, hempty, nested_loops_collapse hp⟩

end Pattern

end PatternAlgebra
