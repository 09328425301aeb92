import PatternAlgebra.Proofs.Groups

/-!
# Groups inside a group

The groups inside a group come right after it, so their numbers are those that they have in its body
alone, counted on from the number of the group (`groupNumber_inner`). This needs names that are
distinct in the whole pattern.
-/

namespace PatternAlgebra

theorem lookup_of_mem_of_nodup {names : List (Text × Nat)} {name : Text} {n : Nat}
    (hdistinct : (names.map Prod.fst).Nodup) (h : (name, n) ∈ names) :
    names.lookup name = some n := by
  obtain ⟨before, after, rfl⟩ := List.append_of_mem h
  rw [List.map_append, List.map_cons] at hdistinct
  obtain ⟨-, -, hdisjoint⟩ := List.nodup_append.1 hdistinct
  refine List.lookup_eq_some_iff.2 ⟨before, after, rfl, fun entry hentry => ?_⟩
  rw [bne_iff_ne]
  exact (hdisjoint entry.1 (List.mem_map_of_mem hentry) name List.mem_cons_self).symm

theorem mem_zipIdx_add {α : Type} {l : List α} {a : α} {i n : Nat} (h : (a, i) ∈ l.zipIdx n)
    (k : Nat) : (a, i + k) ∈ l.zipIdx (n + k) := by
  induction l generalizing n with
  | nil => contradiction
  | cons b l ih =>
    rw [List.zipIdx_cons] at h ⊢
    rcases List.mem_cons.1 h with heq | h
    · obtain ⟨rfl, rfl⟩ := Prod.mk.inj heq
      exact List.mem_cons_self
    · have hrest := ih h
      rw [Nat.add_right_comm] at hrest
      exact List.mem_cons_of_mem _ hrest

namespace Pattern

/-- The groups inside a group follow it. -/
theorem capturing_split {p : Pattern} {g : Capturing} {n k : Nat}
    (h : (g, k) ∈ p.capturing.zipIdx n) :
    ∃ before after, p.capturing = before ++ g :: (g.body.capturing ++ after) ∧
      n + before.length = k := by
  -- A group or one inside its body, which begins at the next number.
  have hgroup : ∀ (own : Capturing) (n : Nat),
      (∀ n, (g, k) ∈ own.body.capturing.zipIdx n → ∃ before after,
        own.body.capturing = before ++ g :: (g.body.capturing ++ after) ∧ n + before.length = k) →
      (g, k) ∈ (own :: own.body.capturing).zipIdx n → ∃ before after,
        own :: own.body.capturing = before ++ g :: (g.body.capturing ++ after) ∧
          n + before.length = k := by
    intro own n hbody h
    rcases List.mem_cons.1 h with heq | h
    · obtain ⟨rfl, rfl⟩ := Prod.mk.inj heq
      exact ⟨[], [], by simp, rfl⟩
    · obtain ⟨before, after, hsplit, hlength⟩ := hbody (n + 1) h
      refine ⟨own :: before, after, by rw [hsplit]; rfl, ?_⟩
      rw [List.length_cons]
      omega
  induction p using inductParts (Q := fun ps => ∀ n, (g, k) ∈ (capturingAll ps).zipIdx n →
      ∃ before after, capturingAll ps = before ++ g :: (g.body.capturing ++ after) ∧
        n + before.length = k) generalizing n with
  | sequence first others hparts => exact hparts n h
  | repeated body q hbody => exact hbody h
  | group body hbody => exact hgroup ⟨none, body⟩ n (fun n => hbody) h
  | namedGroup name body hbody => exact hgroup ⟨some name, body⟩ n (fun n => hbody) h
  | literal | either | anyUnit | shorthand | anchor | charClass | charRange | multiRange
  | backreference | nil => contradiction
  | cons q qs hq hqs n h =>
    rw [capturingAll, List.zipIdx_append] at h
    rcases List.mem_append.1 h with h | h
    · obtain ⟨before, after, hsplit, hlength⟩ := hq h
      exact ⟨before, after ++ capturingAll qs, by rw [capturingAll, hsplit]; simp, hlength⟩
    · obtain ⟨before, after, hsplit, hlength⟩ := hqs _ h
      refine ⟨q.capturing ++ before, after, by rw [capturingAll, hsplit]; simp, ?_⟩
      rw [List.length_append]
      omega

theorem namesFrom_subset {p : Pattern} {g : Capturing} {k : Nat}
    (h : (g, k) ∈ p.capturing.zipIdx 1) : g.body.namesFrom k ⊆ p.namesFrom 0 := by
  obtain ⟨before, after, hsplit, hlength⟩ := capturing_split h
  intro entry hentry
  obtain ⟨numbered, hnumbered, hname⟩ := List.mem_filterMap.1 hentry
  refine List.mem_filterMap.2 ⟨numbered, ?_, hname⟩
  rw [hsplit, List.zipIdx_append, List.zipIdx_cons, List.zipIdx_append, Nat.zero_add, hlength]
  exact List.mem_append_right _ (List.mem_cons_of_mem _ (List.mem_append_left _ hnumbered))

theorem groupNames_sublist {p : Pattern} {g : Capturing} {k : Nat}
    (h : (g, k) ∈ p.capturing.zipIdx 1) : g.body.groupNames.Sublist p.groupNames := by
  obtain ⟨before, after, hsplit, -⟩ := capturing_split h
  refine List.Sublist.filterMap _ ?_
  rw [hsplit]
  exact ((List.sublist_append_left _ after).cons g).trans (List.sublist_append_right before _)

theorem mem_namesFrom_add {p : Pattern} {n : Nat} {entry : Text × Nat} (h : entry ∈ p.namesFrom n)
    (k : Nat) : (entry.1, entry.2 + k) ∈ p.namesFrom (n + k) := by
  obtain ⟨⟨g, i⟩, hg, hname⟩ := List.mem_filterMap.1 h
  obtain ⟨given, hgiven, rfl⟩ := Option.map_eq_some_iff.1 hname
  refine List.mem_filterMap.2 ⟨(g, i + k), ?_, Option.map_eq_some_iff.2 ⟨given, hgiven, rfl⟩⟩
  rw [Nat.add_right_comm]
  exact mem_zipIdx_add hg k

/-- The number of a name inside a group is its number in the group's body, counted on from the
group's own. -/
theorem groupNumber_inner {p : Pattern} (hdistinct : p.groupNames.Nodup) {g : Capturing} {k : Nat}
    (h : (g, k) ∈ p.capturing.zipIdx 1) {name : Text} (hname : name ∈ g.body.groupNames) :
    p.groupNumber name = g.body.groupNumber name + k := by
  have hshifted := mem_namesFrom_add (mem_namesFrom_groupNumber hname) k
  rw [Nat.zero_add] at hshifted
  have hlookup : (p.namesFrom 0).lookup name = some (g.body.groupNumber name + k) := by
    refine lookup_of_mem_of_nodup ?_ (namesFrom_subset h hshifted)
    rw [map_fst_namesFrom]
    exact hdistinct
  rw [groupNumber, hlookup, Option.getD_some]

/-- A group that refers to its own groups only has a consistent body. -/
theorem Consistent.inner {p : Pattern} (hp : p.Consistent) {g : Capturing} {k : Nat}
    (h : (g, k) ∈ p.capturing.zipIdx 1)
    (hown : ∀ name ∈ g.body.references, name.text ∈ g.body.groupNames) : g.body.Consistent :=
  ⟨hp.distinct.sublist (groupNames_sublist h), hown⟩

end Pattern

end PatternAlgebra
