import PatternAlgebra.Regex.FirstOutcome

/-!
# What a search finds

A search finds an outcome from the first position that has one, and nothing if no position has one.
Of the outcomes from one position it takes the first.
-/

namespace PatternAlgebra

/-! ## Outcomes with the same first answers -/

/-- Two lists of outcomes with the same first answer, whatever is asked of an outcome. -/
def SameFirst (l l' : List State) : Prop :=
  ∀ (α : Type) (k : Continuation α), l.findSome? k = l'.findSome? k

namespace SameFirst

variable {l l' m m' : List State}

theorem refl (l : List State) : SameFirst l l := fun _ _ => rfl

theorem of_eq (h : l = l') : SameFirst l l' := h ▸ refl l

theorem trans (h : SameFirst l m) (h' : SameFirst m l') : SameFirst l l' :=
  fun α k => (h α k).trans (h' α k)

theorem append (hl : SameFirst l l') (hm : SameFirst m m') : SameFirst (l ++ m) (l' ++ m') := by
  intro α k
  rw [List.findSome?_append, List.findSome?_append, hl α k, hm α k]

/-- What has been tried in vain need not be tried again. -/
theorem append_again (l m : List State) : SameFirst (l ++ (l ++ m)) (l ++ m) := by
  intro α k
  rw [List.findSome?_append, List.findSome?_append]
  cases l.findSome? k <;> rfl

theorem flatMap {f f' : State → List State} (h : SameFirst l l')
    (hf : ∀ st ∈ l, SameFirst (f st) (f' st)) : SameFirst (l.flatMap f) (l'.flatMap f') := by
  intro α k
  rw [findSome?_flatMap_eq, findSome?_flatMap_eq, ← h α]
  apply findSome?_eq_of_self
  intro st hst
  exact .inl (hf st hst α k)

theorem head?_eq (h : SameFirst l l') : l.head? = l'.head? := by
  have hhead : ∀ l : List State, l.findSome? some = l.head? := by
    intro l
    cases l <;> rfl
  rw [← hhead, ← hhead, h]

end SameFirst

namespace Regex

theorem matchAt?_eq_none {s : Subject} {r : Regex} {i : Nat} :
    r.matchAt? s i = none ↔ r.outcomes s (.start i) = [] := by
  rw [matchAt?, Option.map_eq_none_iff, List.head?_eq_none_iff]

/-- What is found is the preferred match from some position, and no earlier position has an
outcome. -/
theorem exists_matchAt?_of_search {s : Subject} {r : Regex} {found : Span × Captures}
    (h : r.search s = some found) :
    ∃ i, i ≤ s.length ∧ r.matchAt? s i = some found ∧
      ∀ j, j < i → r.outcomes s (.start j) = [] := by
  rw [search_eq_findSome?, List.findSome?_eq_some_iff] at h
  obtain ⟨before, i, after, hrange, hmatch, hnone⟩ := h
  rw [List.range_eq_range', List.range'_eq_append_iff] at hrange
  obtain ⟨n, hn, rfl, hrest⟩ := hrange
  obtain ⟨rfl, hpos, -⟩ := List.range'_eq_cons_iff.1 hrest.symm
  refine ⟨_, by omega, hmatch, fun j hj => matchAt?_eq_none.1 (hnone j ?_)⟩
  rw [List.mem_range'_1]
  omega

/-- What is found is an outcome from the position at which it begins, and no earlier position has
one. -/
theorem search_eq_some {s : Subject} {r : Regex} {span : Span} {captures : Captures}
    (h : r.search s = some (span, captures)) :
    span.start ≤ s.length ∧ ⟨span.stop, captures⟩ ∈ r.outcomes s (.start span.start) ∧
      ∀ i, i < span.start → r.outcomes s (.start i) = [] := by
  obtain ⟨i, hi, hmatch, hearlier⟩ := exists_matchAt?_of_search h
  obtain ⟨next, hhead, hpair⟩ := Option.map_eq_some_iff.1 hmatch
  obtain ⟨rfl, rfl⟩ := Prod.mk.inj hpair
  exact ⟨hi, List.mem_of_head? hhead, hearlier⟩

theorem search_eq_none {s : Subject} {r : Regex} :
    r.search s = none ↔ ∀ i, i ≤ s.length → r.outcomes s (.start i) = [] := by
  rw [search_eq_findSome?, List.findSome?_eq_none_iff]
  constructor
  · intro h i hi
    exact matchAt?_eq_none.1 (h i (List.mem_range.2 (Nat.lt_succ_of_le hi)))
  · intro h i hi
    exact matchAt?_eq_none.2 (h i (Nat.le_of_lt_succ (List.mem_range.1 hi)))

/-- The preferred match from a position is found if no earlier position has a match. -/
theorem search_of_matchAt? {s : Subject} {r : Regex} {i : Nat} {found : Span × Captures}
    (hi : i ≤ s.length) (hmatch : r.matchAt? s i = some found)
    (hearlier : ∀ j, j < i → r.matchAt? s j = none) : r.search s = some found := by
  cases hsearch : r.search s with
  | none =>
    rw [matchAt?_eq_none.2 (search_eq_none.1 hsearch i hi)] at hmatch
    contradiction
  | some other =>
    obtain ⟨k, -, hother, hbefore⟩ := exists_matchAt?_of_search hsearch
    rcases Nat.lt_trichotomy i k with hlt | heq | hgt
    · rw [matchAt?_eq_none.2 (hbefore i hlt)] at hmatch
      contradiction
    · rw [← heq, hmatch] at hother
      exact hother.symm
    · rw [hearlier k hgt] at hother
      contradiction

/-- Something is found if some position has an outcome. -/
theorem search_isSome {s : Subject} {r : Regex} :
    (r.search s).isSome = true ↔ ∃ i, i ≤ s.length ∧ ∃ next, next ∈ r.outcomes s (.start i) := by
  constructor
  · intro hsome
    obtain ⟨⟨span, captures⟩, hsearch⟩ := Option.isSome_iff_exists.1 hsome
    obtain ⟨hstart, hmem, -⟩ := search_eq_some hsearch
    exact ⟨span.start, hstart, _, hmem⟩
  · rintro ⟨i, hi, next, hnext⟩
    cases hsearch : r.search s with
    | some found => rfl
    | none =>
      rw [search_eq_none.1 hsearch i hi] at hnext
      contradiction

/-- Expressions whose outcomes have the same first answers on subjects of one length are found at the
same places. -/
theorem search_of_sameFirst {s s' : Subject} {r r' : Regex} (hlength : s.length = s'.length)
    (h : ∀ st, SameFirst (r.outcomes s st) (r'.outcomes s' st)) : r.search s = r'.search s' := by
  have hmatch : r.matchAt? s = r'.matchAt? s' := by
    funext start
    rw [matchAt?, matchAt?, (h _).head?_eq]
  rw [search_eq_findSome?, search_eq_findSome?, hmatch, hlength]

/-- Expressions with the same outcomes on subjects of one length are found at the same places. -/
theorem search_congr {s s' : Subject} {r r' : Regex} (hlength : s.length = s'.length)
    (h : ∀ st, r.outcomes s st = r'.outcomes s' st) : r.search s = r'.search s' :=
  search_of_sameFirst hlength (fun st => .of_eq (h st))

end Regex

end PatternAlgebra
