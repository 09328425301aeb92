import PatternAlgebra.Proofs.Agreement
import PatternAlgebra.Proofs.Compilation
import PatternAlgebra.Proofs.Meaning
import PatternAlgebra.Proofs.PatternLeaves

/-!
# What ignoring case gains

To ignore case takes no match away from a pattern without negated classes: what occurs in an input or
spans it does so without regard to case as well (`case_widens`). The outcomes of an expression stay its
outcomes, with the same captures, so each reference compares the same texts, now less strictly. Others
may come before them, so what is extracted can change; of that nothing is said. A negated class excludes
more units when case is ignored, and such patterns are left out.
-/

namespace PatternAlgebra

/-! ## Units -/

theorem sameUnit_mono {u v : CodeUnit} (h : sameUnit false u v = true) : sameUnit true u v = true := by
  rw [sameUnit_iff] at h ⊢
  exact congrArg CaseFold.fold h

theorem ClassItem.accepts_mono {item : ClassItem} {u : CodeUnit}
    (h : item.accepts false u = true) : item.accepts true u = true := by
  obtain ⟨m, hcontains, hsame⟩ := accepts_iff.1 h
  exact accepts_iff.2 ⟨m, hcontains, sameUnit_mono hsame⟩

/-- A set that is no negated class accepts all its units without regard to case as well. -/
theorem UnitSet.accepts_mono {set : UnitSet} (hset : ∀ items, set ≠ .members true items)
    {u : CodeUnit} (h : set.accepts false u = true) : set.accepts true u = true := by
  cases set with
  | only c => exact sameUnit_mono h
  | anyOnLine => exact h
  | members negated items =>
    cases negated with
    | true => exact absurd rfl (hset items)
    | false =>
      have hany : ∀ folding, (members false items).accepts folding u =
          items.any (·.accepts folding u) := fun folding => Bool.bne_false _
      rw [hany, List.any_eq_true] at h ⊢
      obtain ⟨item, hitem, haccepts⟩ := h
      exact ⟨item, hitem, ClassItem.accepts_mono haccepts⟩

/-! ## Outcomes -/

section Subjects

variable {input : Text} {multiline : Bool}

theorem UnitSet.acceptsAt_mono {set : UnitSet} (hset : ∀ items, set ≠ .members true items)
    {position : Nat} (h : set.acceptsAt (.ofText input ⟨false, multiline⟩) position = true) :
    set.acceptsAt (.ofText input ⟨true, multiline⟩) position = true := by
  unfold acceptsAt at h ⊢
  simp only [Subject.ofText] at h ⊢
  split at h
  next u hu => exact accepts_mono hset h
  · contradiction

theorem Subject.standsAt_mono {t : Text} {position : Nat}
    (h : standsAt (.ofText input ⟨false, multiline⟩) t position = true) :
    standsAt (.ofText input ⟨true, multiline⟩) t position = true := by
  induction t generalizing position with
  | nil => rfl
  | cons u t ih =>
    rw [standsAt, Bool.and_eq_true, Option.any_eq_true] at h ⊢
    obtain ⟨⟨v, hv, hsame⟩, hrest⟩ := h
    exact ⟨⟨v, hv, sameUnit_mono hsame⟩, ih hrest⟩

theorem Subject.afterReference?_mono {index : Nat} {st next : State}
    (h : afterReference? (.ofText input ⟨false, multiline⟩) index st = some next) :
    afterReference? (.ofText input ⟨true, multiline⟩) index st = some next := by
  unfold afterReference? at h ⊢
  split at h
  · exact h
  next span _ =>
    split at h
    next hstands =>
      have hslice : slice (.ofText input ⟨true, multiline⟩) span =
        slice (.ofText input ⟨false, multiline⟩) span := rfl
      rw [hslice, if_pos (standsAt_mono hstands)]
      exact h
    · contradiction

/-- An expression without negated classes keeps its outcomes when case is ignored. -/
theorem Regex.outcomes_ignoreCase {r : Regex}
    (hclasses : ∀ items, .one (.members true items) ∉ r.leaves) (st : State) :
    r.outcomes (.ofText input ⟨false, multiline⟩) st ⊆
      r.outcomes (.ofText input ⟨true, multiline⟩) st := by
  have hleaves : ∀ leaf ∈ r.leaves, ∀ st : State,
      leaf.outcomes (.ofText input ⟨false, multiline⟩) st ⊆
        leaf.outcomes (.ofText input ⟨true, multiline⟩) st := by
    intro leaf hleaf st next hnext
    rcases leaf_cases hleaf with ⟨set, rfl⟩ | ⟨a, rfl⟩ | ⟨index, rfl⟩
    · have hset : ∀ items, set ≠ .members true items := by
        rintro items rfl
        exact hclasses items hleaf
      rw [mem_outcomes_one] at hnext ⊢
      exact ⟨UnitSet.acceptsAt_mono hset hnext.1, hnext.2⟩
    · exact hnext
    · rw [mem_outcomes_reference] at hnext ⊢
      exact Subject.afterReference?_mono hnext
  refine outcomes_mono ?_ hleaves st
  rfl

end Subjects

/-! ## Patterns -/

namespace Pattern

variable {p : Pattern}

/-- A consistent pattern without negated classes that occurs in an input or spans it does so without
regard to case as well. -/
theorem case_widens (hp : p.Consistent) (hclasses : ∀ members, charClass true members ∉ p.nodes)
    (input : Option Text) (multiline : Bool) :
    (∃ found widely, p.occursIn input ⟨false, multiline⟩ = .ok found ∧
      p.occursIn input ⟨true, multiline⟩ = .ok widely ∧ (found = true → widely = true)) ∧
    ∃ spanned widely, p.spans input ⟨false, multiline⟩ = .ok spanned ∧
      p.spans input ⟨true, multiline⟩ = .ok widely ∧ (spanned = true → widely = true) := by
  cases input with
  | none => exact ⟨⟨false, false, rfl, rfl, id⟩, ⟨false, false, rfl, rfl, id⟩⟩
  | some input =>
    have hleaves := not_negated_of_compile hp.refersByGroupNames hp.compile_anywhere hclasses
    refine ⟨⟨_, _, hp.occursIn_eq input _, hp.occursIn_eq input _, fun hfound => ?_⟩,
      ⟨_, _, hp.spans_eq input _, hp.spans_eq input _, fun hspanned => ?_⟩⟩
    · obtain ⟨i, hi, next, hnext⟩ := Regex.search_isSome.1 hfound
      exact Regex.search_isSome.2 ⟨i, hi, next, Regex.outcomes_ignoreCase hleaves _ hnext⟩
    · change (p.program.spanning.firstMatch _ _).isSome = true at hspanned
      obtain ⟨next, hnext, hend⟩ := Program.firstMatch_spanning.1 hspanned
      exact Program.firstMatch_spanning.2
        ⟨next, Regex.outcomes_ignoreCase hleaves _ hnext, hend⟩

/-- Without case a negated class excludes the other case of its members, too. -/
example : (charClass true (utf16 "a")).spans (some (utf16 "A")) ⟨false, false⟩ = .ok true ∧
    (charClass true (utf16 "a")).spans (some (utf16 "A")) ⟨true, false⟩ = .ok false := by
  decide +kernel

/-- A choice whose preferred text is another one when case is ignored, and a reference to it. -/
def preferring : Pattern :=
  sequence (namedGroup ⟨utf16 "taken", by decide⟩ (either (utf16 "AB") [utf16 "ab", utf16 "a"]))
    [repeated (charClass false (utf16 "-c")) .zeroOrMore,
      backreference ⟨utf16 "taken", by decide⟩]

theorem preferring_case_widens :
    preferring.Consistent ∧ (∀ members, charClass true members ∉ preferring.nodes) ∧
      preferring.spans (some (utf16 "ab-cab")) ⟨false, false⟩ = .ok true ∧
      preferring.spans (some (utf16 "ab-cab")) ⟨true, false⟩ = .ok true := by
  have hp : preferring.Consistent := ⟨by decide, by decide⟩
  have hclasses : ∀ members, charClass true members ∉ preferring.nodes := by
    intro members hnode
    simp [preferring, nodes, nodesAll] at hnode
  obtain ⟨-, spanned, widely, hspanned, hwidely, himplies⟩ :=
    case_widens hp hclasses (some (utf16 "ab-cab")) false
  have hspans : preferring.spans (some (utf16 "ab-cab")) ⟨false, false⟩ = .ok true := by
    rw [hp.spans_eq]
    decide
  obtain rfl : spanned = true := Except.ok.inj (hspanned.symm.trans hspans)
  refine ⟨hp, hclasses, hspans, ?_⟩
  rw [hwidely, himplies rfl]

end Pattern

end PatternAlgebra
