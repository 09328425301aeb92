import PatternAlgebra.Pattern.Basic

/-!
# Groups and names of a pattern

The capturing groups of a pattern in the order in which they open, and the names that it gives and
refers to. A pattern is consistent when no name is given twice and every name referred to is given
somewhere in it. Nothing here says that an expression text shows the same names.
-/

namespace PatternAlgebra

/-- A capturing group of a pattern: its name, if it has one, and what it captures. -/
structure Capturing where
  name : Option GroupName
  body : Pattern

namespace Pattern

mutual

/-- The capturing groups of a pattern, in the order in which they open. -/
@[simp] def capturing : Pattern → List Capturing
  | sequence first others => first.capturing ++ capturingAll others
  | repeated body _ => body.capturing
  | group body => ⟨none, body⟩ :: body.capturing
  | namedGroup name body => ⟨some name, body⟩ :: body.capturing
  | literal _ | either _ _ | anyUnit | shorthand _ | anchor _ | charClass _ _ | charRange _
  | multiRange _ _ | backreference _ => []

/-- The capturing groups of patterns, one after another. -/
def capturingAll : List Pattern → List Capturing
  | [] => []
  | p :: ps => p.capturing ++ capturingAll ps

end

mutual

/-- The names that a pattern refers to, in order. -/
@[simp] def references : Pattern → List ReferenceName
  | sequence first others => first.references ++ referencesAll others
  | repeated body _ | group body | namedGroup _ body => body.references
  | backreference name => [name]
  | literal _ | either _ _ | anyUnit | shorthand _ | anchor _ | charClass _ _ | charRange _
  | multiRange _ _ => []

/-- The names that patterns refer to, in order. -/
def referencesAll : List Pattern → List ReferenceName
  | [] => []
  | p :: ps => p.references ++ referencesAll ps

end

/-- The number of capturing groups. -/
def groupCount (p : Pattern) : Nat := p.capturing.length

/-- The name of a group with its number, if the group has a name. -/
def numberedName (entry : Capturing × Nat) : Option (Text × Nat) :=
  entry.1.name.map (fun name => (name.text, entry.2))

/-- The names that a pattern gives, with the numbers of their groups, when `n` groups open before
it. -/
def namesFrom (n : Nat) (p : Pattern) : List (Text × Nat) :=
  (p.capturing.zipIdx (n + 1)).filterMap numberedName

/-- The names that a pattern gives, in the order of its groups. -/
def groupNames (p : Pattern) : List Text := p.capturing.filterMap (fun g => g.name.map (·.text))

/-- The number of the group with a name; zero if there is none. -/
def groupNumber (p : Pattern) (name : Text) : Nat := ((p.namesFrom 0).lookup name).getD 0

/-- No name is given twice, and every name referred to is given. -/
structure Consistent (p : Pattern) : Prop where
  distinct : p.groupNames.Nodup
  declared : ∀ name ∈ p.references, name.text ∈ p.groupNames

/-- Every name that the pattern refers to is one that a group can have. -/
def RefersByGroupNames (p : Pattern) : Prop := ∀ name ∈ p.references, isGroupName name.text = true

@[simp] theorem capturingAll_eq_flatMap (ps : List Pattern) :
    capturingAll ps = ps.flatMap capturing := by
  induction ps with
  | nil => rfl
  | cons p ps ih => rw [capturingAll, ih, List.flatMap_cons]

@[simp] theorem referencesAll_eq_flatMap (ps : List Pattern) :
    referencesAll ps = ps.flatMap references := by
  induction ps with
  | nil => rfl
  | cons p ps ih => rw [referencesAll, ih, List.flatMap_cons]

/-- Names keep their order and number when groups are split after one of them. -/
theorem filterMap_zipIdx_append (gs hs : List Capturing) (n : Nat) :
    ((gs ++ hs).zipIdx n).filterMap numberedName =
      (gs.zipIdx n).filterMap numberedName ++
        (hs.zipIdx (n + gs.length)).filterMap numberedName := by
  rw [List.zipIdx_append, List.filterMap_append]

theorem map_fst_filterMap_numberedName (gs : List Capturing) (n : Nat) :
    ((gs.zipIdx n).filterMap numberedName).map Prod.fst =
      gs.filterMap (fun g => g.name.map (·.text)) := by
  induction gs generalizing n with
  | nil => rfl
  | cons g gs ih =>
    rw [List.zipIdx_cons, List.filterMap_cons, List.filterMap_cons]
    cases hname : g.name with
    | none =>
      simp only [numberedName, hname, Option.map_none]
      exact ih (n + 1)
    | some name =>
      simp only [numberedName, hname, Option.map_some, List.map_cons]
      rw [ih (n + 1)]

@[simp] theorem map_fst_namesFrom (n : Nat) (p : Pattern) :
    (p.namesFrom n).map Prod.fst = p.groupNames :=
  map_fst_filterMap_numberedName p.capturing (n + 1)

theorem isGroupName_of_mem_groupNames {p : Pattern} {name : Text} (h : name ∈ p.groupNames) :
    isGroupName name = true := by
  obtain ⟨g, _, hg⟩ := List.mem_filterMap.1 h
  obtain ⟨given, _, rfl⟩ := Option.map_eq_some_iff.1 hg
  exact given.wellFormed

theorem Consistent.refersByGroupNames {p : Pattern} (hp : p.Consistent) : p.RefersByGroupNames :=
  fun name hname => isGroupName_of_mem_groupNames (hp.declared name hname)

/-- A name that is given has a number. -/
theorem lookup_namesFrom {n : Nat} {p : Pattern} {name : Text} (h : name ∈ p.groupNames) :
    ∃ number, (p.namesFrom n).lookup name = some number := by
  rw [← map_fst_namesFrom n p] at h
  cases hl : (p.namesFrom n).lookup name with
  | some number => exact ⟨number, rfl⟩
  | none =>
    obtain ⟨entry, hentry, rfl⟩ := List.mem_map.1 h
    have hne := List.lookup_eq_none_iff.1 hl entry hentry
    simp at hne

theorem lookup_groupNumber {p : Pattern} {name : Text} (h : name ∈ p.groupNames) :
    (p.namesFrom 0).lookup name = some (p.groupNumber name) := by
  obtain ⟨number, hnumber⟩ := lookup_namesFrom (n := 0) h
  rw [groupNumber, hnumber, Option.getD_some]

theorem mem_namesFrom_groupNumber {p : Pattern} {name : Text} (h : name ∈ p.groupNames) :
    (name, p.groupNumber name) ∈ p.namesFrom 0 := by
  obtain ⟨before, after, hnames, -⟩ := List.lookup_eq_some_iff.1 (lookup_groupNumber h)
  rw [hnames]
  exact List.mem_append_right _ List.mem_cons_self

/-- The number of a name belongs to a group of that name. -/
theorem Consistent.groupNumber_spec {p : Pattern} (hp : p.Consistent) {name : ReferenceName}
    (hname : name ∈ p.references) :
    ∃ g given, (g, p.groupNumber name.text) ∈ p.capturing.zipIdx 1 ∧ g.name = some given ∧
      given.text = name.text := by
  have hmem := mem_namesFrom_groupNumber (hp.declared name hname)
  obtain ⟨⟨g, number⟩, hg, hentry⟩ := List.mem_filterMap.1 hmem
  obtain ⟨given, hgiven, hpair⟩ := Option.map_eq_some_iff.1 hentry
  obtain ⟨htext, hnumber⟩ := Prod.mk.inj hpair
  exact ⟨g, given, hnumber ▸ hg, hgiven, htext⟩

end Pattern

end PatternAlgebra
