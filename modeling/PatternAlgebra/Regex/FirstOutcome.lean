import PatternAlgebra.Regex.Matcher
import PatternAlgebra.Regex.Outcomes

/-!
# The first outcome

Running an expression gives the first answer among its outcomes (`run_eq_findSome?`). The bound on
mandatory rounds is harmless: an expression never moves backwards and leaves the groups outside it
alone, so a round that starts where the one before started has the same outcomes.
-/

namespace PatternAlgebra

/-! ## What an outcome keeps -/

/-- A later state: at the same position, or at a later one within the subject. -/
def Subject.Later (s : Subject) (st next : State) : Prop :=
  next.position = st.position ∨ (st.position < next.position ∧ next.position ≤ s.length)

theorem Subject.Later.refl (s : Subject) (st : State) : s.Later st st := .inl rfl

theorem Subject.Later.trans {s : Subject} {a b c : State} (hab : s.Later a b) (hbc : s.Later b c) :
    s.Later a c := by
  unfold Subject.Later at *
  omega

theorem Subject.Later.le {s : Subject} {st next : State} (h : s.Later st next) :
    st.position ≤ next.position := by
  unfold Subject.Later at h
  omega

theorem Subject.Later.le_length {s : Subject} {st next : State} (h : s.Later st next)
    (hst : st.position ≤ s.length) : next.position ≤ s.length := by
  unfold Subject.Later at h
  omega

/-- Two states that differ at most in what the groups of a list captured. -/
def State.SameOutside (groups : List Nat) (a b : State) : Prop :=
  ∀ i, i ∉ groups → a.captures i = b.captures i

theorem State.SameOutside.mono {g h : List Nat} {a b : State} (hab : a.SameOutside g b)
    (hgh : ∀ i ∈ g, i ∈ h) : a.SameOutside h b :=
  fun i hi => hab i (fun hg => hi (hgh i hg))

theorem State.SameOutside.trans {g : List Nat} {a b c : State} (hab : a.SameOutside g b)
    (hbc : b.SameOutside g c) : a.SameOutside g c :=
  fun i hi => (hab i hi).trans (hbc i hi)

theorem State.sameOutside_forget (st : State) (groups : List Nat) :
    st.SameOutside groups (st.forget groups) := by
  intro i hi
  simp [hi]

theorem State.forget_congr {groups : List Nat} {a b : State} (hp : a.position = b.position)
    (hab : a.SameOutside groups b) : a.forget groups = b.forget groups := by
  have hc : (a.forget groups).captures = (b.forget groups).captures := by
    funext i
    rw [captures_forget, captures_forget]
    split
    · rfl
    next hi => exact hab i (by simpa using hi)
  calc a.forget groups = ⟨(a.forget groups).position, (a.forget groups).captures⟩ := rfl
    _ = ⟨(b.forget groups).position, (b.forget groups).captures⟩ := by
      rw [hc, position_forget, position_forget, hp]
    _ = b.forget groups := rfl

/-- What holds between a state and an outcome of an expression with these groups. -/
def Subject.Reaches (s : Subject) (groups : List Nat) (st next : State) : Prop :=
  s.Later st next ∧ st.SameOutside groups next

namespace Subject.Reaches

theorem refl (s : Subject) (groups : List Nat) (st : State) : s.Reaches groups st st :=
  ⟨.refl s st, fun _ _ => rfl⟩

theorem trans {s : Subject} {g : List Nat} {a b c : State} (hab : s.Reaches g a b)
    (hbc : s.Reaches g b c) : s.Reaches g a c :=
  ⟨hab.1.trans hbc.1, hab.2.trans hbc.2⟩

theorem mono {s : Subject} {g h : List Nat} {a b : State} (hab : s.Reaches g a b)
    (hgh : ∀ i ∈ g, i ∈ h) : s.Reaches h a b :=
  ⟨hab.1, hab.2.mono hgh⟩

/-- To forget captures of the groups first makes no difference. -/
theorem of_forget {s : Subject} {g : List Nat} {a b : State} (hab : s.Reaches g (a.forget g) b) :
    s.Reaches g a b := by
  obtain ⟨hlater, hsame⟩ := hab
  refine ⟨?_, (a.sameOutside_forget g).trans hsame⟩
  unfold Subject.Later at *
  rwa [State.position_forget] at hlater

end Subject.Reaches

theorem reaches_of_mem_mandatoryOutcomes {s : Subject} {g : List Nat} {round : State → List State}
    (hround : ∀ st, ∀ next ∈ round st, s.Reaches g st next) (n : Nat) (st next : State)
    (h : next ∈ mandatoryOutcomes round n st) : s.Reaches g st next := by
  induction n generalizing st with
  | zero =>
    obtain rfl : next = st := by simpa [mandatoryOutcomes] using h
    exact .refl s g next
  | succ n ih =>
    obtain ⟨mid, hmid, hnext⟩ := List.mem_flatMap.1 h
    exact (hround st mid hmid).trans (ih mid hnext)

theorem reaches_of_mem_optionalOutcomes {s : Subject} {g : List Nat} {round : State → List State}
    (hround : ∀ st, ∀ next ∈ round st, s.Reaches g st next) (n : Nat) (st next : State)
    (h : next ∈ optionalOutcomes round n st) : s.Reaches g st next := by
  induction n generalizing st with
  | zero =>
    obtain rfl : next = st := by simpa [optionalOutcomes] using h
    exact .refl s g next
  | succ n ih =>
    rcases List.mem_append.1 h with h | h
    · obtain ⟨mid, hmid, hnext⟩ := List.mem_flatMap.1 h
      exact (hround st mid (List.mem_filter.1 hmid).1).trans (ih mid hnext)
    · obtain rfl : next = st := by simpa using h
      exact .refl s g next

theorem Subject.reaches_afterReference {s : Subject} {index : Nat} {st next : State}
    (h : s.afterReference? index st = some next) : s.Reaches [] st next := by
  unfold Subject.afterReference? at h
  split at h
  · obtain rfl := Option.some.inj h
    exact .refl s [] _
  next span _ =>
    split at h
    next hstands =>
      obtain rfl := Option.some.inj h
      refine ⟨?_, fun _ _ => rfl⟩
      by_cases hp : s.slice span = []
      · exact .inl (by simp [hp])
      · have := length_le_of_standsAt hstands hp
        have : 0 < (s.slice span).length := List.length_pos_iff.2 hp
        exact .inr ⟨by simpa using this, by assumption⟩
    · contradiction

namespace Regex

/-- An outcome is never behind the state it comes from, and differs from it only in the captures of
the expression's own groups. -/
theorem reaches_of_mem_outcomes (s : Subject) (r : Regex) (st next : State)
    (h : next ∈ r.outcomes s st) : s.Reaches r.groups st next := by
  induction r generalizing st next with
  | empty =>
    obtain rfl := mem_outcomes_empty.1 h
    exact .refl s _ next
  | one units =>
    obtain ⟨haccept, rfl⟩ := mem_outcomes_one.1 h
    refine ⟨.inr ⟨Nat.lt_succ_self _, ?_⟩, fun _ _ => rfl⟩
    unfold UnitSet.acceptsAt at haccept
    split at haccept
    next hu => exact (Array.getElem?_eq_some_iff.1 hu).1
    · contradiction
  | assertion anchor =>
    obtain ⟨-, rfl⟩ := mem_outcomes_assertion.1 h
    exact .refl s _ next
  | sequence a b iha ihb =>
    obtain ⟨mid, hmid, hnext⟩ := mem_outcomes_sequence.1 h
    have h1 := iha st mid hmid
    have h2 := ihb mid next hnext
    exact (h1.mono (by simp +contextual)).trans (h2.mono (by simp +contextual))
  | choice a b iha ihb =>
    rcases mem_outcomes_choice.1 h with h | h
    · exact (iha st next h).mono (by simp +contextual)
    · exact (ihb st next h).mono (by simp +contextual)
  | capture index body ih =>
    obtain ⟨mid, hmid, rfl⟩ := mem_outcomes_capture.1 h
    have hbody := ih st mid hmid
    refine ⟨hbody.1, fun i hi => ?_⟩
    simp only [groups, List.mem_cons, not_or] at hi
    simpa [State.capture, hi.1] using hbody.2 i hi.2
  | loop body least most ih =>
    obtain ⟨mid, hmid, hnext⟩ := List.mem_flatMap.1 h
    have hround : ∀ st : State, ∀ next ∈ body.outcomes s (st.forget body.groups),
        s.Reaches body.groups st next :=
      fun _ next hnext => (ih _ next hnext).of_forget
    exact (reaches_of_mem_mandatoryOutcomes hround _ _ _ hmid).trans
      (reaches_of_mem_optionalOutcomes hround _ _ _ hnext)
  | reference index => exact (s.reaches_afterReference (mem_outcomes_reference.1 h)).mono (by simp)

/-- A round of a loop forgets what the groups of the body captured. -/
theorem reaches_of_mem_round {s : Subject} {body : Regex} {st next : State}
    (h : next ∈ body.outcomes s (st.forget body.groups)) : s.Reaches body.groups st next :=
  (reaches_of_mem_outcomes s body _ next h).of_forget

/-- The outcomes of one round of a loop around an expression. -/
def round (s : Subject) (body : Regex) (st : State) : List State :=
  body.outcomes s (st.forget body.groups)

theorem round_spec {s : Subject} (body : Regex) (st next : State) (h : next ∈ body.round s st) :
    s.Reaches body.groups st next :=
  reaches_of_mem_round h

end Regex

/-! ## First answers -/

theorem findSome?_flatMap_eq {α β γ : Type} (l : List α) (f : α → List β) (k : β → Option γ) :
    (l.flatMap f).findSome? k = l.findSome? (fun a => (f a).findSome? k) := by
  induction l with
  | nil => rfl
  | cons a l ih =>
    rw [List.flatMap_cons, List.findSome?_append, List.findSome?_cons, ih]
    cases (f a).findSome? k <;> rfl

theorem findSome?_filter_eq {α β : Type} (p : α → Bool) (f : α → Option β) (l : List α) :
    (l.filter p).findSome? f = l.findSome? (fun a => if p a = true then f a else none) := by
  induction l with
  | nil => rfl
  | cons a l ih => by_cases h : p a = true <;> simp [List.findSome?_cons, h, ih]

/-! ## Rounds -/

theorem mandatoryRounds_eq {α : Type} {run : State → Continuation α → Option α}
    {round : State → List State} (hrun : ∀ st k, run st k = (round st).findSome? k)
    (n : Nat) (st : State) (k : Continuation α) :
    mandatoryRounds run n st k = (mandatoryOutcomes round n st).findSome? k := by
  induction n generalizing st with
  | zero => simp [mandatoryRounds, mandatoryOutcomes]
  | succ n ih =>
    rw [mandatoryRounds, mandatoryOutcomes, hrun, findSome?_flatMap_eq]
    simp only [ih]

theorem optionalRounds_eq {α : Type} {run : State → Continuation α → Option α}
    {round : State → List State} (hrun : ∀ st k, run st k = (round st).findSome? k)
    (n : Nat) (st : State) (k : Continuation α) :
    optionalRounds run n st k = (optionalOutcomes round n st).findSome? k := by
  induction n generalizing st with
  | zero => simp [optionalRounds, optionalOutcomes]
  | succ n ih =>
    have hstep : run st (fun next =>
          if next.position = st.position then none else optionalRounds run n next k) =
        (((round st).filter (fun next => next.position != st.position)).flatMap
          (optionalOutcomes round n)).findSome? k := by
      rw [hrun, findSome?_flatMap_eq, findSome?_filter_eq]
      congr 1
      funext next
      by_cases hp : next.position = st.position <;> simp [hp, ih]
    simp only [optionalRounds, optionalOutcomes, hstep, List.findSome?_append]
    cases (((round st).filter (fun next => next.position != st.position)).flatMap
      (optionalOutcomes round n)).findSome? k <;> simp

/-! ## The bound on mandatory rounds -/

/-- Replacing some answers by the first answer of all does not change the first answer. -/
theorem findSome?_eq_of_self {α β : Type} {l : List α} {f g : α → Option β}
    (h : ∀ a ∈ l, g a = f a ∨ g a = l.findSome? f) : l.findSome? g = l.findSome? f := by
  cases hv : l.findSome? f with
  | none =>
    rw [List.findSome?_eq_none_iff] at hv ⊢
    intro a ha
    rcases h a ha with hg | hg
    · rw [hg, hv a ha]
    · rw [hg, List.findSome?_eq_none_iff]
      exact hv
  | some x =>
    rw [hv] at h
    induction l with
    | nil => simp at hv
    | cons a l ih =>
      rw [List.findSome?_cons] at hv ⊢
      cases hfa : f a with
      | some y =>
        rw [hfa] at hv
        rcases h a (by simp) with hg | hg
        · rw [hg, hfa]
          exact hv
        · rw [hg]
      | none =>
        rw [hfa] at hv
        rcases h a (by simp) with hg | hg
        · rw [hg, hfa]
          exact ih (fun b hb => h b (by simp [hb])) hv
        · rw [hg]

/-- One round more changes nothing once there are more rounds than units left. -/
theorem mandatoryOutcomes_succ {β : Type} {s : Subject} {round : State → List State}
    (hlater : ∀ st, ∀ next ∈ round st, s.Later st next)
    (hsame : ∀ st, ∀ next ∈ round st, next.position = st.position → round next = round st)
    (k : State → Option β) (n : Nat) (st : State) (hn : s.length - st.position ≤ n) :
    (mandatoryOutcomes round (n + 2) st).findSome? k =
      (mandatoryOutcomes round (n + 1) st).findSome? k := by
  induction n generalizing st with
  | zero =>
    rw [mandatoryOutcomes, findSome?_flatMap_eq, mandatoryOutcomes, findSome?_flatMap_eq]
    refine findSome?_eq_of_self (fun a ha => .inr ?_)
    have hpos : a.position = st.position := by
      have := hlater st a ha
      unfold Subject.Later at this
      omega
    rw [mandatoryOutcomes, findSome?_flatMap_eq, hsame st a ha hpos]
  | succ n ih =>
    rw [mandatoryOutcomes, findSome?_flatMap_eq, mandatoryOutcomes, findSome?_flatMap_eq]
    refine findSome?_eq_of_self (fun a ha => ?_)
    by_cases hpos : a.position = st.position
    · refine .inr ?_
      rw [mandatoryOutcomes, findSome?_flatMap_eq, hsame st a ha hpos]
    · refine .inl (ih a ?_)
      have := hlater st a ha
      unfold Subject.Later at this
      omega

theorem mandatoryOutcomes_min {β : Type} {s : Subject} {round : State → List State}
    (hlater : ∀ st, ∀ next ∈ round st, s.Later st next)
    (hsame : ∀ st, ∀ next ∈ round st, next.position = st.position → round next = round st)
    (k : State → Option β) (least : Nat) (st : State) :
    (mandatoryOutcomes round (min least (s.length - st.position + 1)) st).findSome? k =
      (mandatoryOutcomes round least st).findSome? k := by
  by_cases h : least ≤ s.length - st.position + 1
  · rw [Nat.min_eq_left h]
  · rw [Nat.min_eq_right (by omega)]
    obtain ⟨d, rfl⟩ : ∃ d, least = s.length - st.position + 1 + d :=
      ⟨least - (s.length - st.position + 1), by omega⟩
    clear h
    induction d with
    | zero => rfl
    | succ d ih =>
      have hsucc := mandatoryOutcomes_succ hlater hsame k (s.length - st.position + d) st (by omega)
      rw [ih, show s.length - st.position + 1 + (d + 1) = s.length - st.position + d + 2 by omega,
        hsucc, show s.length - st.position + 1 + d = s.length - st.position + d + 1 by omega]

/-! ## The matcher -/

namespace Regex

/-- Running an expression gives the first answer among its outcomes. -/
theorem run_eq_findSome? {α : Type} (s : Subject) (r : Regex) (st : State) (k : Continuation α) :
    r.run s st k = (r.outcomes s st).findSome? k := by
  induction r generalizing st k with
  | empty => simp [run, outcomes]
  | one units => by_cases h : units.acceptsAt s st.position = true <;> simp [run, outcomes, h]
  | assertion anchor =>
    by_cases h : anchor.holds s.units s.options.multiline st.position = true <;>
      simp [run, outcomes, h]
  | sequence a b iha ihb => simp [run, outcomes, iha, ihb, findSome?_flatMap_eq]
  | choice a b iha ihb =>
    simp only [run, outcomes, iha, ihb, List.findSome?_append]
    cases (a.outcomes s st).findSome? k <;> simp
  | capture index body ih => simp [run, outcomes, ih, List.findSome?_map, Function.comp_def]
  | reference index =>
    simp only [run, outcomes]
    cases s.afterReference? index st <;> simp
  | loop body least most ih =>
    have hrun : ∀ (st : State) (k : Continuation α), body.run s (st.forget body.groups) k =
        (body.outcomes s (st.forget body.groups)).findSome? k := fun st k => ih _ k
    simp only [run, outcomes]
    rw [mandatoryRounds_eq hrun,
      mandatoryOutcomes_min (fun st next h => (reaches_of_mem_round h).1)
        (fun st next h hp => by
          show body.outcomes s _ = body.outcomes s _
          rw [State.forget_congr hp (fun i hi => ((reaches_of_mem_round h).2 i hi).symm)]),
      findSome?_flatMap_eq]
    congr 1
    funext next
    exact optionalRounds_eq hrun _ next k

/-- The preferred match that begins at a position. -/
def matchAt? (s : Subject) (r : Regex) (start : Nat) : Option (Span × Captures) :=
  (r.outcomes s (.start start)).head?.map (fun st => (⟨start, st.position⟩, st.captures))

theorem searchFrom_eq_findSome? (s : Subject) (r : Regex) (count start : Nat) :
    r.searchFrom s count start = (List.range' start count).findSome? (r.matchAt? s) := by
  induction count generalizing start with
  | zero => rfl
  | succ count ih =>
    have hhead : ∀ l : List State,
        l.findSome? (fun st => some (Span.mk start st.position, st.captures)) =
          l.head?.map (fun st => (Span.mk start st.position, st.captures)) := by
      intro l
      cases l <;> rfl
    rw [searchFrom, run_eq_findSome?, hhead, List.range'_succ, List.findSome?_cons, ih, matchAt?]
    cases (r.outcomes s (.start start)).head? <;> rfl

/-- A search gives the preferred match at the first position that has one. -/
theorem search_eq_findSome? (s : Subject) (r : Regex) :
    r.search s = (List.range (s.length + 1)).findSome? (r.matchAt? s) := by
  rw [search, searchFrom_eq_findSome?, List.range_eq_range']

end Regex

end PatternAlgebra
