import PatternAlgebra.Pattern.Parameter

/-!
# Names in expression text

The names that a text declares and refers to are found by scanning, without reading the expression:
a declaration inside a class counts as one. References are read behind unquoted backslashes only,
and a name goes up to the next `>`, whatever it holds.
-/

namespace PatternAlgebra.NameScan

/-- The name in a text that begins with the opening of a named group. -/
def declarationAt? : Text → Option Text
  | openParen :: questionMark :: lessThan :: rest =>
    let name := rest.takeWhile (fun u => Text.isLetter u || Text.isDigit u)
    if isGroupName name && rest[name.length]? == some greaterThan then some name else none
  | _ => none

/-- The names declared in a text, in order, with repetitions. -/
def declarations : Text → List Text
  | [] => []
  | u :: rest =>
    match declarationAt? (u :: rest) with
    | some name => name :: declarations rest
    | none => declarations rest

/-- The names declared in a text, in order of first appearance. -/
def declaredNames (t : Text) : List Text := Text.firstOccurrences (declarations t)

/-- The text up to the next `>`, and the text behind it. -/
def upToGreater? : Text → Option (Text × Text)
  | [] => none
  | u :: rest =>
    if u = greaterThan then some ([], rest)
    else (upToGreater? rest).map (fun r => (u :: r.1, r.2))

theorem length_upToGreater? {t name rest : Text} (h : upToGreater? t = some (name, rest)) :
    rest.length < t.length := by
  induction t generalizing name with
  | nil => contradiction
  | cons u t ih =>
    unfold upToGreater? at h
    split at h
    · obtain ⟨_, rfl⟩ := Prod.mk.inj (Option.some.inj h)
      simp
    · obtain ⟨r, hr, he⟩ := Option.map_eq_some_iff.1 h
      obtain ⟨_, rfl⟩ := Prod.mk.inj he
      exact Nat.lt_succ_of_lt (ih hr)

/-- Reads a reference behind its backslash: its name, and the text behind it. -/
def referenceTail? : Text → Option (Text × Text)
  | lowerK :: lessThan :: rest => upToGreater? rest
  | _ => none

theorem length_referenceTail? {t name rest : Text} (h : referenceTail? t = some (name, rest)) :
    rest.length < t.length := by
  unfold referenceTail? at h
  split at h
  · have := length_upToGreater? h
    simp only [List.length_cons]
    omega
  · contradiction

/-- The names referred to in a text, in order, with repetitions. -/
def references : Text → List Text
  | [] => []
  | u :: rest =>
    if u = backslash then
      match h : referenceTail? rest with
      | some (name, after) =>
        have := length_referenceTail? h
        name :: references after
      | none => references (rest.drop 1)
    else references rest
termination_by t => t.length
decreasing_by
  all_goals simp only [List.length_cons, List.length_drop]; omega

@[simp] theorem references_nil : references [] = [] := by
  rw [references]

@[simp] theorem references_unit {u : CodeUnit} (h : u ≠ backslash) (rest : Text) :
    references (u :: rest) = references rest := by
  rw [references, if_neg h]

theorem references_reference {t name rest : Text} (h : referenceTail? t = some (name, rest)) :
    references (backslash :: t) = name :: references rest := by
  rw [references, if_pos rfl]
  split
  next h' =>
    obtain ⟨rfl, rfl⟩ := Prod.mk.inj (Option.some.inj (h.symm.trans h'))
    rfl
  next h' => exact absurd (h.symm.trans h') (by simp)

theorem references_escape {t : Text} (h : referenceTail? t = none) :
    references (backslash :: t) = references (t.drop 1) := by
  rw [references, if_pos rfl]
  split
  next h' => exact absurd (h.symm.trans h') (by simp)
  · rfl

/-- The names referred to in a text, in order of first appearance. -/
def referencedNames (t : Text) : List Text := Text.firstOccurrences (references t)

end PatternAlgebra.NameScan
