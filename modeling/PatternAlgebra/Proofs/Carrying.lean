import PatternAlgebra.Proofs.Captured

/-!
# Outcomes carried over

An expression may be compared with another one, or with itself on another subject: what the one can
reach from a state the other can reach from a related state. Whatever expressions are built with
keeps this up, loops included (`Carries.loop`), so it is left to show for units and references. Only
outcomes of some kind may be asked for, such as those that end within a piece of the subject. In
which order outcomes are listed is not compared.
-/

namespace PatternAlgebra

/-- What `F` reaches from a state `F'` reaches from a related state, as far as it is asked for. -/
def Carries (R : State → State → Prop) (asked : State → Prop) (F F' : State → List State) : Prop :=
  ∀ st u, R st u → ∀ next ∈ F st, asked next → ∃ v ∈ F' u, R next v

/-- A relation between states under which it can be told whether a round has consumed something, and
states that are asked for whenever a later one is. -/
structure Tracks (R : State → State → Prop) (asked : State → Prop) : Prop where
  moved : ∀ {st u next v}, R st u → R next v →
    (next.position = st.position ↔ v.position = u.position)
  before : ∀ {st next : State}, st.position ≤ next.position → asked next → asked st

namespace Carries

variable {R : State → State → Prop} {asked : State → Prop} {F F' K K' : State → List State}

theorem pure : Carries R asked (fun st => [st]) (fun u => [u]) := by
  intro st u h next hnext _
  obtain rfl := List.mem_singleton.1 hnext
  exact ⟨u, List.mem_singleton_self u, h⟩

/-- What follows must not lead backwards, as what comes before has to be asked for as well. -/
theorem comp (ht : Tracks R asked) (hF : Carries R asked F F') (hK : Carries R asked K K')
    (hle : ∀ mid, ∀ next ∈ K mid, mid.position ≤ next.position) :
    Carries R asked (fun st => (F st).flatMap K) (fun u => (F' u).flatMap K') := by
  intro st u h next hnext hasked
  obtain ⟨mid, hmid, hnext⟩ := List.mem_flatMap.1 hnext
  obtain ⟨w, hw, hmidw⟩ := hF st u h mid hmid (ht.before (hle mid next hnext) hasked)
  obtain ⟨v, hv, hnextv⟩ := hK mid w hmidw next hnext hasked
  exact ⟨v, List.mem_flatMap.2 ⟨w, hw, hv⟩, hnextv⟩

theorem or (hF : Carries R asked F F') (hK : Carries R asked K K') :
    Carries R asked (fun st => F st ++ K st) (fun u => F' u ++ K' u) := by
  intro st u h next hnext hasked
  rcases List.mem_append.1 hnext with hnext | hnext
  · obtain ⟨v, hv, hnextv⟩ := hF st u h next hnext hasked
    exact ⟨v, List.mem_append_left _ hv, hnextv⟩
  · obtain ⟨v, hv, hnextv⟩ := hK st u h next hnext hasked
    exact ⟨v, List.mem_append_right _ hv, hnextv⟩

theorem filter (ht : Tracks R asked) (hF : Carries R asked F F') :
    Carries R asked (fun st => (F st).filter (fun next => next.position != st.position))
      (fun u => (F' u).filter (fun next => next.position != u.position)) := by
  intro st u h next hnext hasked
  obtain ⟨hnext, hne⟩ := List.mem_filter.1 hnext
  obtain ⟨v, hv, hnextv⟩ := hF st u h next hnext hasked
  refine ⟨v, List.mem_filter.2 ⟨hv, ?_⟩, hnextv⟩
  have hmoved := ht.moved h hnextv
  simp only [bne_iff_ne] at hne ⊢
  exact fun heq => hne (hmoved.2 heq)

section Rounds

variable {s : Subject}

theorem mandatory (ht : Tracks R asked) (hF : Carries R asked F F')
    (hlater : ∀ st, ∀ next ∈ F st, s.Later st next) (n : Nat) :
    Carries R asked (mandatoryOutcomes F n) (mandatoryOutcomes F' n) := by
  induction n with
  | zero => exact pure
  | succ n ih =>
    apply hF.comp ht ih
    intro mid next hnext
    exact (endsInRound_of_mem_mandatoryOutcomes hlater hnext).le hlater

/-- Rounds that each consume something are no more than the units consumed. -/
theorem optional (ht : Tracks R asked) (hF : Carries R asked F F')
    (hlater : ∀ st, ∀ next ∈ F st, s.Later st next) (n m : Nat) {st u next : State} (h : R st u)
    (hfuel : min n (next.position - st.position) ≤ m) (hnext : next ∈ optionalOutcomes F n st)
    (hasked : asked next) : ∃ v ∈ optionalOutcomes F' m u, R next v := by
  have hstop : ∀ {m : Nat} {u : State}, u ∈ optionalOutcomes F' m u := by
    intro m u
    cases m with
    | zero => exact List.mem_singleton_self u
    | succ m => exact List.mem_append_right _ (List.mem_singleton_self u)
  induction n generalizing m st u with
  | zero =>
    obtain rfl := List.mem_singleton.1 hnext
    exact ⟨u, hstop, h⟩
  | succ n ih =>
    rcases List.mem_append.1 hnext with hnext | hnext
    · obtain ⟨mid, hmid, hnext⟩ := List.mem_flatMap.1 hnext
      have hle : mid.position ≤ next.position :=
        (endsInRound_of_mem_optionalOutcomes hlater hnext).le hlater
      obtain ⟨w, hw, hmidw⟩ := hF.filter ht st u h mid hmid (ht.before hle hasked)
      obtain ⟨hmid, hne⟩ := List.mem_filter.1 hmid
      have hstep := (hlater st mid hmid).le
      have hne : mid.position ≠ st.position := by simpa using hne
      obtain ⟨m, rfl⟩ : ∃ k, m = k + 1 := ⟨m - 1, by omega⟩
      obtain ⟨v, hv, hnextv⟩ := ih m hmidw (by omega) hnext
      exact ⟨v, List.mem_append_left _ (List.mem_flatMap.2 ⟨w, hw, hv⟩), hnextv⟩
    · obtain rfl := List.mem_singleton.1 hnext
      exact ⟨u, hstop, h⟩

/-- A loop is carried over with its rounds, where there is room for as many of them as before. -/
theorem loop {s' : Subject} {body body' : Regex} (ht : Tracks R asked)
    (hround : Carries R asked (body.round s) (body'.round s'))
    (hroom : ∀ st u next, R st u → asked next →
      min (s.length - st.position) (next.position - st.position) ≤ s'.length - u.position)
    (least : Nat) (most : Option Nat) :
    Carries R asked ((Regex.loop body least most).outcomes s)
      ((Regex.loop body' least most).outcomes s') := by
  have hlater : ∀ st, ∀ next ∈ body.round s st, s.Later st next :=
    fun st next hnext => (body.round_spec st next hnext).1
  refine (hround.mandatory ht hlater least).comp ht (fun mid w h next hnext hasked => ?_)
    (fun _ _ hnext => (endsInRound_of_mem_optionalOutcomes hlater hnext).le hlater)
  refine hround.optional ht hlater _ _ h ?_ hnext hasked
  cases most with
  | none => exact hroom mid w next h hasked
  | some n => exact Nat.min_le_left _ _

end Rounds

end Carries

end PatternAlgebra
