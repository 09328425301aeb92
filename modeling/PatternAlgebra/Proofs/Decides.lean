import Mathlib.Logic.Relation
import PatternAlgebra.Regex.FirstOutcome

/-!
# Expressions that decide relations of positions

An expression decides a relation if its outcomes end exactly at the positions that the relation
gives, whatever has been captured before. A loop decides that so many rounds of its body lead from one
position to another (`Decides.loop`): the rounds that it refuses because they are empty are never
needed, and it never runs out of rounds. References are not covered, as they depend on captures.
-/

namespace PatternAlgebra

/-! ## Rounds -/

/-- So many steps of a relation, one after another. -/
def Rounds (R : Nat → Nat → Prop) : Nat → Nat → Nat → Prop
  | 0 => Eq
  | n + 1 => Relation.Comp R (Rounds R n)

namespace Rounds

variable {R : Nat → Nat → Prop} {m n i j k : Nat}

theorem trans (hm : Rounds R m i j) (hn : Rounds R n j k) : Rounds R (m + n) i k := by
  induction m generalizing i with
  | zero =>
    obtain rfl : i = j := hm
    rwa [Nat.zero_add]
  | succ m ih =>
    obtain ⟨mid, hstep, hrest⟩ := hm
    rw [Nat.succ_add]
    exact ⟨mid, hstep, ih hrest⟩

theorem split (h : Rounds R (m + n) i k) : ∃ j, Rounds R m i j ∧ Rounds R n j k := by
  induction m generalizing i with
  | zero =>
    rw [Nat.zero_add] at h
    exact ⟨i, rfl, h⟩
  | succ m ih =>
    rw [Nat.succ_add] at h
    obtain ⟨mid, hstep, hrest⟩ := h
    obtain ⟨j, hm, hn⟩ := ih hrest
    exact ⟨j, ⟨mid, hstep, hm⟩, hn⟩

theorem mono {S : Nat → Nat → Prop} (hRS : ∀ a b, R a b → S a b) (h : Rounds R n i j) :
    Rounds S n i j := by
  induction n generalizing i with
  | zero => exact h
  | succ n ih =>
    obtain ⟨mid, hstep, hrest⟩ := h
    exact ⟨mid, hRS i mid hstep, ih hrest⟩

theorem one_iff : Rounds R 1 i j ↔ R i j := by
  constructor
  · rintro ⟨mid, hstep, rfl⟩
    exact hstep
  · exact fun h => ⟨j, h, rfl⟩

/-- Rounds that lead nowhere can be left out. -/
theorem consuming (h : Rounds R n i j) :
    ∃ m, m ≤ n ∧ Rounds (fun a b => R a b ∧ b ≠ a) m i j := by
  induction n generalizing i with
  | zero => exact ⟨0, Nat.le_refl 0, h⟩
  | succ n ih =>
    obtain ⟨mid, hstep, hrest⟩ := h
    obtain ⟨m, hm, hrounds⟩ := ih hrest
    by_cases hmid : mid = i
    · subst hmid
      exact ⟨m, Nat.le_succ_of_le hm, hrounds⟩
    · exact ⟨m + 1, Nat.succ_le_succ hm, ⟨mid, ⟨hstep, hmid⟩, hrounds⟩⟩

/-- Rounds that all lead forwards are no more than the distance to the end. -/
theorem le_of_forwards {length : Nat} (hR : ∀ a b, R a b → a < b ∧ b ≤ length)
    (h : Rounds R n i j) : n ≤ length - i := by
  induction n generalizing i with
  | zero => exact Nat.zero_le _
  | succ n ih =>
    obtain ⟨mid, hstep, hrest⟩ := h
    have hmid := hR i mid hstep
    have hle := ih hrest
    omega

theorem exists_iff_reflTransGen : (∃ n, Rounds R n i j) ↔ Relation.ReflTransGen R i j := by
  constructor
  · rintro ⟨n, h⟩
    induction n generalizing i with
    | zero =>
      obtain rfl : i = j := h
      exact .refl
    | succ n ih =>
      obtain ⟨mid, hstep, hrest⟩ := h
      exact .head hstep (ih hrest)
  · intro h
    induction h using Relation.ReflTransGen.head_induction_on with
    | refl => exact ⟨0, rfl⟩
    | head hstep _ ih =>
      obtain ⟨n, hrounds⟩ := ih
      exact ⟨n + 1, ⟨_, hstep, hrounds⟩⟩

theorem exists_pos_iff_transGen : (∃ n, 1 ≤ n ∧ Rounds R n i j) ↔ Relation.TransGen R i j := by
  rw [Relation.TransGen.head'_iff]
  constructor
  · rintro ⟨n, hn, h⟩
    obtain ⟨m, rfl⟩ : ∃ m, n = m + 1 := ⟨n - 1, by omega⟩
    obtain ⟨mid, hstep, hrest⟩ := h
    exact ⟨mid, hstep, exists_iff_reflTransGen.1 ⟨m, hrest⟩⟩
  · rintro ⟨mid, hstep, hrest⟩
    obtain ⟨m, hrounds⟩ := exists_iff_reflTransGen.2 hrest
    exact ⟨m + 1, Nat.le_add_left 1 m, ⟨mid, hstep, hrounds⟩⟩

end Rounds

/-! ## Deciding a relation -/

/-- The outcomes from a state end exactly at the positions that the relation gives. -/
def Decides (outcomes : State → List State) (R : Nat → Nat → Prop) : Prop :=
  ∀ st j, (∃ next ∈ outcomes st, next.position = j) ↔ R st.position j

namespace Decides

variable {f g : State → List State} {R S : Nat → Nat → Prop}

theorem congr (h : Decides f R) (hRS : ∀ i j, R i j ↔ S i j) : Decides f S :=
  fun st j => (h st j).trans (hRS st.position j)

theorem pure : Decides (fun st => [st]) Eq := by
  intro st j
  simp

theorem comp (hf : Decides f R) (hg : Decides g S) :
    Decides (fun st => (f st).flatMap g) (Relation.Comp R S) := by
  intro st j
  constructor
  · rintro ⟨next, hnext, rfl⟩
    obtain ⟨mid, hmid, hnext⟩ := List.mem_flatMap.1 hnext
    exact ⟨mid.position, (hf st _).1 ⟨mid, hmid, rfl⟩, (hg mid _).1 ⟨next, hnext, rfl⟩⟩
  · rintro ⟨i, hR, hS⟩
    obtain ⟨mid, hmid, rfl⟩ := (hf st i).2 hR
    obtain ⟨next, hnext, hj⟩ := (hg mid j).2 hS
    exact ⟨next, List.mem_flatMap.2 ⟨mid, hmid, hnext⟩, hj⟩

theorem or (hf : Decides f R) (hg : Decides g S) :
    Decides (fun st => f st ++ g st) (fun i j => R i j ∨ S i j) := by
  intro st j
  show _ ↔ R st.position j ∨ S st.position j
  rw [← hf st j, ← hg st j]
  constructor
  · rintro ⟨next, hnext, hj⟩
    rcases List.mem_append.1 hnext with hnext | hnext
    · exact .inl ⟨next, hnext, hj⟩
    · exact .inr ⟨next, hnext, hj⟩
  · rintro (⟨next, hnext, hj⟩ | ⟨next, hnext, hj⟩)
    · exact ⟨next, List.mem_append_left _ hnext, hj⟩
    · exact ⟨next, List.mem_append_right _ hnext, hj⟩

theorem filter (hf : Decides f R) :
    Decides (fun st => (f st).filter (fun next => next.position != st.position))
      (fun i j => R i j ∧ j ≠ i) := by
  intro st j
  show _ ↔ R st.position j ∧ j ≠ st.position
  rw [← hf st j]
  constructor
  · rintro ⟨next, hnext, rfl⟩
    obtain ⟨hnext, hne⟩ := List.mem_filter.1 hnext
    exact ⟨⟨next, hnext, rfl⟩, by simpa using hne⟩
  · rintro ⟨⟨next, hnext, rfl⟩, hne⟩
    exact ⟨next, List.mem_filter.2 ⟨hnext, by simpa using hne⟩, rfl⟩

theorem mandatory (hf : Decides f R) (n : Nat) : Decides (mandatoryOutcomes f n) (Rounds R n) := by
  induction n with
  | zero => exact pure
  | succ n ih => exact hf.comp ih

theorem optional (hf : Decides f R) (n : Nat) :
    Decides (optionalOutcomes f n)
      (fun i j => ∃ k, k ≤ n ∧ Rounds (fun a b => R a b ∧ b ≠ a) k i j) := by
  induction n with
  | zero =>
    refine pure.congr (fun i j => ?_)
    constructor
    · exact fun h => ⟨0, Nat.le_refl 0, h⟩
    · rintro ⟨k, hk, h⟩
      obtain rfl := Nat.le_zero.1 hk
      exact h
  | succ n ih =>
    refine ((hf.filter.comp ih).or pure).congr (fun i j => ?_)
    constructor
    · rintro (⟨mid, hstep, k, hk, hrest⟩ | h)
      · exact ⟨k + 1, Nat.succ_le_succ hk, ⟨mid, hstep, hrest⟩⟩
      · exact ⟨0, Nat.zero_le _, h⟩
    · rintro ⟨k, hk, h⟩
      cases k with
      | zero => exact .inr h
      | succ k =>
        obtain ⟨mid, hstep, hrest⟩ := h
        exact .inl ⟨mid, hstep, k, Nat.le_of_succ_le_succ hk, hrest⟩

/-- A relation that an expression decides leads to later positions within the subject. -/
theorem forwards {s : Subject} {r : Regex} (h : Decides (r.outcomes s) R) {i j : Nat}
    (hij : R i j) :
    j = i ∨ (i < j ∧ j ≤ s.length) := by
  obtain ⟨next, hnext, rfl⟩ := (h (.start i) j).2 hij
  exact (r.reaches_of_mem_outcomes s (.start i) next hnext).1

/-- A loop decides that some permitted number of rounds leads from one position to the other. -/
theorem loop {s : Subject} {body : Regex} (h : Decides (body.outcomes s) R) {least : Nat}
    {most : Option Nat} (hmost : ∀ n, most = some n → least ≤ n) :
    Decides ((Regex.loop body least most).outcomes s)
      (fun i j => ∃ k, least ≤ k ∧ (∀ n, most = some n → k ≤ n) ∧ Rounds R k i j) := by
  have hround : Decides (fun st : State => body.outcomes s (st.forget body.groups)) R := by
    intro st j
    rw [← State.position_forget st body.groups]
    exact h _ j
  intro st j
  constructor
  · rintro ⟨next, hnext, rfl⟩
    obtain ⟨mid, hmid, hnext⟩ := List.mem_flatMap.1 hnext
    have hmandatory := (hround.mandatory least st _).1 ⟨mid, hmid, rfl⟩
    obtain ⟨k, hk, hoptional⟩ := (hround.optional _ mid _).1 ⟨next, hnext, rfl⟩
    refine ⟨least + k, Nat.le_add_right least k, ?_,
      hmandatory.trans (hoptional.mono (fun _ _ hstep => hstep.1))⟩
    rintro n rfl
    have hle := hmost n rfl
    have hk : k ≤ n - least := hk
    omega
  · rintro ⟨k, hleast, hbound, hrounds⟩
    obtain ⟨extra, rfl⟩ : ∃ extra, k = least + extra := ⟨k - least, by omega⟩
    obtain ⟨i, hmandatory, hrest⟩ := hrounds.split
    obtain ⟨mid, hmid, rfl⟩ := (hround.mandatory least st i).2 hmandatory
    obtain ⟨m, hm, hconsuming⟩ := hrest.consuming
    have hlength : m ≤ s.length - mid.position := by
      refine hconsuming.le_of_forwards (fun a b hab => ?_)
      rcases h.forwards hab.1 with heq | hforwards
      · exact absurd heq hab.2
      · exact hforwards
    have hfinish : ∀ fuel, m ≤ fuel →
        ∃ next ∈ optionalOutcomes (fun st => body.outcomes s (st.forget body.groups)) fuel mid,
          next.position = j :=
      fun fuel hfuel => (hround.optional fuel mid j).2 ⟨m, hfuel, hconsuming⟩
    cases most with
    | none =>
      obtain ⟨next, hnext, hj⟩ := hfinish (s.length - mid.position) hlength
      exact ⟨next, List.mem_flatMap.2 ⟨mid, hmid, hnext⟩, hj⟩
    | some n =>
      have hn := hbound n rfl
      obtain ⟨next, hnext, hj⟩ := hfinish (n - least) (by omega)
      exact ⟨next, List.mem_flatMap.2 ⟨mid, hmid, hnext⟩, hj⟩

end Decides

end PatternAlgebra
