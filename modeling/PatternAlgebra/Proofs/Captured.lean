import PatternAlgebra.Proofs.Captures
import PatternAlgebra.Regex.FirstOutcome

/-!
# What a group has captured

What a group holds after a match is what its body matched when it was entered last, within the match
(`captured_of_mem_outcomes`). A body is entered with all of its own groups empty: they are empty
before the first round of every loop around it, and each round of such a loop empties them.
-/

namespace PatternAlgebra

/-- A group holds a text that its body has matched, from a state in which the body's own groups are
empty and that lies within these positions. -/
def Captured (s : Subject) (body : Regex) (span : Span) (start stop : Nat) : Prop :=
  ∃ entry leaving, leaving ∈ body.outcomes s entry ∧ entry.position = span.start ∧
    leaving.position = span.stop ∧ (∀ i ∈ body.groups, entry.captures i = none) ∧
    start ≤ span.start ∧ span.stop ≤ stop

theorem Captured.widen {s : Subject} {body : Regex} {span : Span} {start stop start' stop' : Nat}
    (h : Captured s body span start stop) (hstart : start' ≤ start) (hstop : stop ≤ stop') :
    Captured s body span start' stop' := by
  obtain ⟨entry, leaving, hmem, hentry, hleaving, hempty, hle, hge⟩ := h
  exact ⟨entry, leaving, hmem, hentry, hleaving, hempty, Nat.le_trans hstart hle,
    Nat.le_trans hge hstop⟩

theorem Captured.within {s : Subject} {body : Regex} {span : Span} {start stop : Nat}
    (h : Captured s body span start stop) :
    start ≤ span.start ∧ span.start ≤ span.stop ∧ span.stop ≤ stop := by
  obtain ⟨entry, leaving, hmem, hentry, hleaving, -, hstart, hstop⟩ := h
  have hforwards := (Regex.reaches_of_mem_outcomes s body entry leaving hmem).1.le
  omega

/-! ## The last round -/

/-- Rounds end where they began or with a round. -/
def EndsInRound (s : Subject) (round : State → List State) (st next : State) : Prop :=
  next = st ∨ ∃ before, s.Later st before ∧ next ∈ round before

section Rounds

variable {s : Subject} {round : State → List State}

theorem EndsInRound.after {st mid next : State} (hmid : s.Later st mid) (h : mid ∈ round st)
    (hnext : EndsInRound s round mid next) : EndsInRound s round st next := by
  rcases hnext with rfl | ⟨before, hbefore, hmem⟩
  · exact .inr ⟨st, .refl s st, h⟩
  · exact .inr ⟨before, hmid.trans hbefore, hmem⟩

theorem EndsInRound.le (hround : ∀ st, ∀ next ∈ round st, s.Later st next) {st next : State}
    (h : EndsInRound s round st next) : st.position ≤ next.position := by
  rcases h with rfl | ⟨before, hbefore, hmem⟩
  · exact Nat.le_refl _
  · exact Nat.le_trans hbefore.le (hround before next hmem).le

theorem endsInRound_of_mem_mandatoryOutcomes (hround : ∀ st, ∀ next ∈ round st, s.Later st next)
    {n : Nat} {st next : State} (h : next ∈ mandatoryOutcomes round n st) :
    EndsInRound s round st next := by
  induction n generalizing st with
  | zero => exact .inl (List.mem_singleton.1 h)
  | succ n ih =>
    obtain ⟨mid, hmid, hnext⟩ := List.mem_flatMap.1 h
    exact (ih hnext).after (hround st mid hmid) hmid

theorem endsInRound_of_mem_optionalOutcomes (hround : ∀ st, ∀ next ∈ round st, s.Later st next)
    {n : Nat} {st next : State} (h : next ∈ optionalOutcomes round n st) :
    EndsInRound s round st next := by
  induction n generalizing st with
  | zero => exact .inl (List.mem_singleton.1 h)
  | succ n ih =>
    rcases List.mem_append.1 h with h | h
    · obtain ⟨mid, hmid, hnext⟩ := List.mem_flatMap.1 h
      have hmid := (List.mem_filter.1 hmid).1
      exact (ih hnext).after (hround st mid hmid) hmid
    · exact .inl (List.mem_singleton.1 h)

end Rounds

namespace Regex

/-- The outcome of a loop is the state before it or the outcome of a round. -/
theorem endsInRound_of_mem_loop {s : Subject} {body : Regex} {least : Nat} {most : Option Nat}
    {st next : State} (h : next ∈ (loop body least most).outcomes s st) :
    EndsInRound s (body.round s) st next := by
  have hround : ∀ st, ∀ next ∈ body.round s st, s.Later st next :=
    fun st next hnext => (body.round_spec st next hnext).1
  obtain ⟨mid, hmid, hnext⟩ := List.mem_flatMap.1 h
  rcases endsInRound_of_mem_optionalOutcomes hround hnext with rfl | ⟨before, hbefore, hmem⟩
  · exact endsInRound_of_mem_mandatoryOutcomes hround hmid
  · have hreaches : s.Reaches body.groups st mid :=
      reaches_of_mem_mandatoryOutcomes body.round_spec least st mid hmid
    exact .inr ⟨before, hreaches.1.trans hbefore, hmem⟩

theorem mem_groups_of_mem_captures {r : Regex} {k : Nat} {body : Regex}
    (h : (k, body) ∈ r.captures) : k ∈ r.groups := by
  rw [groups_eq_map_captures]
  exact List.mem_map_of_mem h

theorem captures_of_not_mem_groups {s : Subject} {r : Regex} {st next : State}
    (h : next ∈ r.outcomes s st) {k : Nat} (hk : k ∉ r.groups) : next.captures k = st.captures k :=
  ((reaches_of_mem_outcomes s r st next h).2 k hk).symm

/-- What a group of an expression has captured after a match, if the expression's groups were empty
before it. -/
theorem captured_of_mem_outcomes {s : Subject} {r : Regex} (hr : r.groups.Nodup) {st next : State}
    (hst : ∀ i ∈ r.groups, st.captures i = none) (h : next ∈ r.outcomes s st) {k : Nat}
    {body : Regex} (hk : (k, body) ∈ r.captures) {span : Span}
    (hspan : next.captures k = some span) : Captured s body span st.position next.position := by
  induction r generalizing st next with
  | empty | one | assertion | reference => contradiction
  | sequence a b iha ihb =>
    obtain ⟨ha, hb, hdisjoint⟩ := List.nodup_append.1 hr
    obtain ⟨hleft, hright⟩ := List.forall_mem_append.1 hst
    obtain ⟨mid, hmid, hnext⟩ := mem_outcomes_sequence.1 h
    have hfirst := (reaches_of_mem_outcomes s a st mid hmid).1.le
    have hsecond := (reaches_of_mem_outcomes s b mid next hnext).1.le
    rcases List.mem_append.1 hk with hk | hk
    · have hkb : k ∉ b.groups := fun hkb => hdisjoint k (mem_groups_of_mem_captures hk) k hkb rfl
      rw [captures_of_not_mem_groups hnext hkb] at hspan
      exact (iha ha hleft hmid hk hspan).widen (Nat.le_refl _) hsecond
    · have hempty : ∀ i ∈ b.groups, mid.captures i = none := by
        intro i hib
        rw [captures_of_not_mem_groups hmid (fun hia => hdisjoint i hia i hib rfl), hright i hib]
      exact (ihb hb hempty hnext hk hspan).widen hfirst (Nat.le_refl _)
  | choice a b iha ihb =>
    obtain ⟨ha, hb, hdisjoint⟩ := List.nodup_append.1 hr
    obtain ⟨hleft, hright⟩ := List.forall_mem_append.1 hst
    -- A group of the branch that was not taken is still empty.
    rcases mem_outcomes_choice.1 h with h | h
    · rcases List.mem_append.1 hk with hk | hk
      · exact iha ha hleft h hk hspan
      · have hkb := mem_groups_of_mem_captures hk
        rw [captures_of_not_mem_groups h (fun hka => hdisjoint k hka k hkb rfl), hright k hkb] at hspan
        contradiction
    · rcases List.mem_append.1 hk with hk | hk
      · have hka := mem_groups_of_mem_captures hk
        rw [captures_of_not_mem_groups h (fun hkb => hdisjoint k hka k hkb rfl), hleft k hka] at hspan
        contradiction
      · exact ihb hb hright h hk hspan
  | capture index inner ih =>
    obtain ⟨hindex, hinner⟩ := List.nodup_cons.1 hr
    obtain ⟨mid, hmid, rfl⟩ := mem_outcomes_capture.1 h
    have hempty : ∀ i ∈ inner.groups, st.captures i = none :=
      fun i hi => hst i (List.mem_cons_of_mem _ hi)
    rcases List.mem_cons.1 hk with heq | hk
    · obtain ⟨rfl, rfl⟩ := Prod.mk.inj heq
      rw [State.captures_capture, if_pos rfl] at hspan
      obtain rfl := Option.some.inj hspan
      exact ⟨st, mid, hmid, rfl, rfl, hempty, Nat.le_refl _, Nat.le_refl _⟩
    · have hne : k ≠ index := fun heq => hindex (heq ▸ mem_groups_of_mem_captures hk)
      rw [State.captures_capture, if_neg hne] at hspan
      have hcaptured : Captured s body span st.position mid.position :=
        ih hinner hempty hmid hk hspan
      exact hcaptured
  | loop inner least most ih =>
    rcases endsInRound_of_mem_loop h with rfl | ⟨before, hbefore, hmem⟩
    · rw [hst k (mem_groups_of_mem_captures hk)] at hspan
      contradiction
    · have hempty : ∀ i ∈ inner.groups, (before.forget inner.groups).captures i = none := by
        intro i hi
        rw [State.captures_forget, if_pos (by simpa using hi)]
      refine (ih hr hempty hmem hk hspan).widen ?_ (Nat.le_refl _)
      rw [State.position_forget]
      exact hbefore.le

end Regex

end PatternAlgebra
