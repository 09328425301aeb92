import PatternAlgebra.Proofs.Carrying
import PatternAlgebra.Proofs.Spanning

/-!
# Leaves of expressions

The leaves of an expression are its sets, assertions and references, from left to right. Reading
neither drops nor moves one: an expression has the leaves that its tokens name, in their order
(`Program.leaves_ofTokens`). And no other part of an expression looks at the subject: two subjects of
one length on which the leaves have the same outcomes are the same to the expression
(`Regex.outcomes_congr`), and if the leaves gain outcomes, so does the expression
(`Regex.outcomes_mono`). Which outcome is preferred may change when some are gained.
-/

namespace PatternAlgebra

/-- The sets, assertions and references of an expression, from left to right. -/
@[simp] def Regex.leaves : Regex → List Regex
  | empty => []
  | one units => [one units]
  | assertion anchor => [assertion anchor]
  | reference index => [reference index]
  | sequence a b | choice a b => a.leaves ++ b.leaves
  | capture _ body | loop body _ _ => body.leaves

theorem Regex.leaf_cases {r leaf : Regex} (h : leaf ∈ r.leaves) :
    (∃ units, leaf = one units) ∨ (∃ anchor, leaf = assertion anchor) ∨
      ∃ index, leaf = reference index := by
  induction r with
  | empty => contradiction
  | one units => exact .inl ⟨units, List.mem_singleton.1 h⟩
  | assertion anchor => exact .inr (.inl ⟨anchor, List.mem_singleton.1 h⟩)
  | reference index => exact .inr (.inr ⟨index, List.mem_singleton.1 h⟩)
  | sequence a b iha ihb | choice a b iha ihb => exact (List.mem_append.1 h).elim iha ihb
  | capture index body ih | loop body least most ih => exact ih h

/-- The leaf that a token names. -/
def Token.leaf? (resolve : Text → Option Nat) : Token → Option Regex
  | .one units => some (.one units)
  | .assertion anchor => some (.assertion anchor)
  | .reference name => (resolve name).map .reference
  | .opening _ | .closing | .bar | .quantifier _ _ => none

theorem Regex.leaves_sequenceOf (rs : List Regex) : (sequenceOf rs).leaves = rs.flatMap leaves := by
  induction rs with
  | nil => rfl
  | cons r rs ih =>
    cases rs with
    | nil => simp
    | cons r' rs => simp [ih]

/-! ## Levels -/

namespace Level

/-- The leaves between two brackets so far. -/
def leaves (l : Level) : List Regex :=
  l.branches.reverse.flatMap Regex.leaves ++ l.items.reverse.flatMap Regex.leaves

theorem leaves_branch (l : Level) : l.branch.leaves = l.items.reverse.flatMap Regex.leaves :=
  Regex.leaves_sequenceOf _

theorem leaves_push (l : Level) (item : Regex) (repeatable : Bool) :
    (l.push item repeatable).leaves = l.leaves ++ item.leaves := by
  show l.branches.reverse.flatMap Regex.leaves ++ (item :: l.items).reverse.flatMap Regex.leaves = _
  rw [List.reverse_cons, List.flatMap_append, List.flatMap_singleton, leaves, List.append_assoc]

theorem leaves_nextBranch (l : Level) : l.nextBranch.leaves = l.leaves := by
  show (l.branch :: l.branches).reverse.flatMap Regex.leaves ++ [] = _
  rw [List.append_nil, List.reverse_cons, List.flatMap_append, List.flatMap_singleton,
    leaves_branch, leaves]

theorem leaves_quantify {l next : Level} {least : Nat} {most : Option Nat}
    (h : l.quantify least most = .ok next) : next.leaves = l.leaves := by
  obtain ⟨branches, items, repeatable⟩ := l
  unfold quantify at h
  split at h
  next item others _ hitems =>
    obtain rfl : items = item :: others := hitems
    obtain rfl := Except.ok.inj h
    rw [leaves, leaves, List.reverse_cons, List.reverse_cons, List.flatMap_append,
      List.flatMap_append, List.flatMap_singleton, List.flatMap_singleton]
    rfl
  · contradiction

theorem leaves_close (l : Level) : l.close.leaves = l.leaves := by
  have hfold : ∀ (branches : List Regex) (others : Regex),
      (branches.foldl (fun others first => Regex.choice first others) others).leaves =
        branches.reverse.flatMap Regex.leaves ++ others.leaves := by
    intro branches
    induction branches with
    | nil => exact fun _ => rfl
    | cons first branches ih =>
      intro others
      rw [List.foldl_cons, ih, List.reverse_cons, List.flatMap_append, List.flatMap_singleton,
        List.append_assoc]
      rfl
  rw [close, hfold, leaves_branch, leaves]

end Level

/-! ## Readings -/

namespace Reading

variable {resolve : Text → Option Nat} {r next : Reading}

/-- The leaves read so far, those of the outermost level first. -/
def leaves (r : Reading) : List Regex :=
  r.outer.reverse.flatMap (fun around => around.2.leaves) ++ r.level.leaves

theorem leaves_push (r : Reading) (item : Regex) (repeatable : Bool) :
    (r.push item repeatable).leaves = r.leaves ++ item.leaves := by
  show r.outer.reverse.flatMap (fun around => around.2.leaves) ++
    (r.level.push item repeatable).leaves = _
  rw [Level.leaves_push, leaves, List.append_assoc]

theorem leaves_enter (r : Reading) (grouping : Grouping) : (r.enter grouping).leaves = r.leaves := by
  have haround : ∀ index opened, leaves ⟨{}, (index, r.level) :: r.outer, opened⟩ = r.leaves := by
    intro index opened
    show ((index, r.level) :: r.outer).reverse.flatMap _ ++ [] = _
    rw [List.append_nil, List.reverse_cons, List.flatMap_append, List.flatMap_singleton, leaves]
  cases grouping with
  | plain => exact haround _ _
  | captured name => exact haround _ _

theorem leaves_leave (h : r.leave = .ok next) : next.leaves = r.leaves := by
  obtain ⟨level, outer, opened⟩ := r
  unfold leave at h
  split at h
  · contradiction
  next index around outer houter =>
    obtain rfl : _ = (index, around) :: outer := houter
    obtain rfl := Except.ok.inj h
    rw [leaves, leaves, Level.leaves_push, List.reverse_cons, List.flatMap_append,
      List.flatMap_singleton, List.append_assoc]
    cases index with
    | none => rw [Level.leaves_close]
    | some i => rw [Regex.leaves, Level.leaves_close]

/-- A token that is read adds the leaf that it names, and none otherwise. -/
theorem leaves_step {t : Token} (h : r.step resolve t = .ok next) :
    next.leaves = r.leaves ++ (t.leaf? resolve).toList := by
  cases t with
  | one units | assertion anchor =>
    obtain rfl := Except.ok.inj h
    exact leaves_push _ _ _
  | reference name =>
    obtain ⟨index, hindex, rfl⟩ := step_reference_eq_ok.1 h
    rw [leaves_push, Token.leaf?, hindex]
    rfl
  | opening grouping =>
    obtain rfl := Except.ok.inj h
    rw [leaves_enter]
    exact (List.append_nil _).symm
  | closing =>
    rw [leaves_leave h]
    exact (List.append_nil _).symm
  | bar =>
    obtain rfl := Except.ok.inj h
    rw [leaves, Level.leaves_nextBranch]
    exact (List.append_nil _).symm
  | quantifier least most =>
    obtain ⟨level, hlevel, rfl⟩ := step_quantifier_eq_ok.1 h
    rw [leaves, Level.leaves_quantify hlevel]
    exact (List.append_nil _).symm

/-- Tokens that are read add the leaves that they name. -/
theorem leaves_run {ts : List Token} (h : r.run resolve ts = .ok next) :
    next.leaves = r.leaves ++ ts.filterMap (Token.leaf? resolve) := by
  induction ts generalizing r with
  | nil =>
    obtain rfl := Except.ok.inj h
    exact (List.append_nil _).symm
  | cons t ts ih =>
    obtain ⟨mid, hstep, hrest⟩ := run_cons_eq_ok.1 h
    rw [ih hrest, leaves_step hstep, List.append_assoc, List.filterMap_cons]
    cases t.leaf? resolve <;> rfl

end Reading

namespace Program

/-- An expression has the leaves that its tokens name. -/
theorem leaves_ofTokens {ts : List Token} {p : Program} (h : ofTokens ts = .ok p) :
    p.regex.leaves = ts.filterMap (Token.leaf? (p.names.lookup ·)) := by
  obtain ⟨-, -, level, hrun, hclose⟩ := ofTokens_eq_ok.1 h
  rw [← hclose, Level.leaves_close]
  exact Reading.leaves_run hrun

/-- Each leaf of an expression is named by one of its tokens. -/
theorem exists_token_of_mem_leaves {ts : List Token} {p : Program} (h : ofTokens ts = .ok p)
    {leaf : Regex} (hleaf : leaf ∈ p.regex.leaves) :
    ∃ t ∈ ts, t.leaf? (p.names.lookup ·) = some leaf := by
  rw [leaves_ofTokens h] at hleaf
  exact List.mem_filterMap.1 hleaf

end Program

/-! ## Outcomes on two subjects -/

/-- From equal states more can be reached if each state has more outcomes. -/
theorem carries_of_subset {F F' : State → List State} (h : ∀ st, F st ⊆ F' st) :
    Carries Eq (fun _ => True) F F' := by
  intro st u hu next hnext _
  obtain rfl : st = u := hu
  exact ⟨next, h st hnext, rfl⟩

theorem Carries.subset {F F' : State → List State} (h : Carries Eq (fun _ => True) F F')
    (st : State) : F st ⊆ F' st := by
  intro next hnext
  obtain ⟨v, hv, rfl⟩ := h st st rfl next hnext trivial
  exact hv

theorem tracks_eq : Tracks Eq (fun _ => True) where
  moved := by
    intro st u next v hu hv
    rw [hu, hv]
  before := fun _ => id

namespace Regex

variable {s s' : Subject} {r : Regex}

/-- An expression has the same outcomes on two subjects of one length if its leaves have. -/
theorem outcomes_congr (hlength : s.length = s'.length)
    (h : ∀ leaf ∈ r.leaves, leaf.outcomes s = leaf.outcomes s') : r.outcomes s = r.outcomes s' := by
  induction r with
  | empty => rfl
  | one units | assertion anchor | reference index => exact h _ (List.mem_singleton_self _)
  | sequence a b iha ihb | choice a b iha ihb =>
    obtain ⟨ha, hb⟩ := List.forall_mem_append.1 h
    funext st
    rw [outcomes, outcomes, iha ha, ihb hb]
  | capture index body ih =>
    funext st
    rw [outcomes, outcomes, ih h]
  | loop body least most ih =>
    funext st
    simp only [outcomes, ih h, hlength]

/-- An expression has all its outcomes on another subject of the same length if its leaves have. -/
theorem outcomes_mono (hlength : s.length = s'.length)
    (h : ∀ leaf ∈ r.leaves, ∀ st, leaf.outcomes s st ⊆ leaf.outcomes s' st) (st : State) :
    r.outcomes s st ⊆ r.outcomes s' st := by
  have hcarries : Carries Eq (fun _ => True) (r.outcomes s) (r.outcomes s') := by
    induction r with
    | empty => exact .pure
    | one units => exact carries_of_subset (h _ (List.mem_singleton_self _))
    | assertion anchor => exact carries_of_subset (h _ (List.mem_singleton_self _))
    | reference index => exact carries_of_subset (h _ (List.mem_singleton_self _))
    | sequence a b iha ihb =>
      obtain ⟨ha, hb⟩ := List.forall_mem_append.1 h
      exact .comp tracks_eq (iha ha) (ihb hb)
        (fun mid next hnext => (reaches_of_mem_outcomes s b mid next hnext).1.le)
    | choice a b iha ihb =>
      obtain ⟨ha, hb⟩ := List.forall_mem_append.1 h
      exact .or (iha ha) (ihb hb)
    | capture index body ih =>
      exact carries_of_subset (fun st => List.map_subset _ ((ih h).subset st))
    | loop body least most ih =>
      have hround : ∀ st, body.round s st ⊆ body.round s' st := fun st => (ih h).subset _
      apply Carries.loop tracks_eq (carries_of_subset hround)
      intro st u next hu _
      rw [hu, hlength]
      exact Nat.min_le_left _ _
  exact hcarries.subset st

end Regex

end PatternAlgebra
