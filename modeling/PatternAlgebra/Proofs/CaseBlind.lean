import Mathlib.Data.List.Forall2
import PatternAlgebra.Proofs.Compilation
import PatternAlgebra.Proofs.Entries
import PatternAlgebra.Proofs.Leaves
import PatternAlgebra.Proofs.Meaning
import PatternAlgebra.Proofs.Search

/-!
# Inputs that differ in case

Where case is ignored, two inputs that fold to the same units get the same answers, and what is
extracted from them differs in case only (`case_blind`). The two runs stay in step: a set, an
assertion and a reference look at a unit through its folded form only, and a unit that ends a line
folds to no other. So every expression has the same outcomes on both inputs, negated classes among
its leaves or not. How an answer changes with the option is not said here.
-/

namespace PatternAlgebra

/-- Texts of one length that fold to the same, unit by unit. -/
def Text.SameLetters (t t' : Text) : Prop :=
  List.Forall₂ (fun u v => CaseFold.fold u = CaseFold.fold v) t t'

namespace Text.SameLetters

variable {t t' : Text}

theorem symm (h : t.SameLetters t') : t'.SameLetters t :=
  (List.Forall₂.imp (fun _ _ => Eq.symm) h).flip

/-- What does not tell units of the same letter apart says the same at each position. -/
theorem any_getElem? (h : t.SameLetters t') {P : CodeUnit → Bool}
    (hP : ∀ {u v}, CaseFold.fold u = CaseFold.fold v → P u = P v) (i : Nat) :
    (t[i]?).any P = (t'[i]?).any P := by
  induction h generalizing i with
  | nil => rfl
  | cons hfold _ ih =>
    cases i with
    | zero => exact hP hfold
    | succ i => exact ih i

end Text.SameLetters

/-! ## Units -/

theorem Text.isLineTerminator_congr {u v : CodeUnit} (h : CaseFold.fold u = CaseFold.fold v) :
    isLineTerminator u = isLineTerminator v := by
  rw [Bool.eq_iff_iff]
  constructor
  · intro hu
    rwa [eq_of_fold_eq hu h.symm]
  · intro hv
    rwa [eq_of_fold_eq hv h]

theorem sameUnit_congr {u u' v v' : CodeUnit} (hu : CaseFold.fold u = CaseFold.fold u')
    (hv : CaseFold.fold v = CaseFold.fold v') : sameUnit true u v = sameUnit true u' v' := by
  show (CaseFold.fold u == CaseFold.fold v) = (CaseFold.fold u' == CaseFold.fold v')
  rw [hu, hv]

/-- A set that ignores case does not tell units of the same letter apart. -/
theorem UnitSet.accepts_congr (set : UnitSet) {u v : CodeUnit}
    (h : CaseFold.fold u = CaseFold.fold v) : set.accepts true u = set.accepts true v := by
  cases set with
  | only c => exact sameUnit_congr rfl h
  | anyOnLine => rw [accepts, accepts, Text.isLineTerminator_congr h]
  | members negated items =>
    show (items.any (fun item => (CaseFold.peers (CaseFold.fold u)).any item.contains) != negated) =
      (items.any (fun item => (CaseFold.peers (CaseFold.fold v)).any item.contains) != negated)
    rw [h]

/-! ## Two subjects -/

section Subjects

variable {input input' : Text} (h : input.SameLetters input') (multiline : Bool)

include h

theorem UnitSet.acceptsAt_congr (set : UnitSet) (position : Nat) :
    set.acceptsAt (.ofText input ⟨true, multiline⟩) position =
      set.acceptsAt (.ofText input' ⟨true, multiline⟩) position := by
  have hany : ∀ text : Text, set.acceptsAt (.ofText text ⟨true, multiline⟩) position =
      (text[position]?).any (set.accepts true) := by
    intro text
    simp only [acceptsAt, Subject.ofText, List.getElem?_toArray]
    cases text[position]? <;> rfl
  rw [hany, hany]
  exact h.any_getElem? set.accepts_congr position

theorem Anchor.holds_congr (a : Anchor) (position : Nat) :
    a.holds input.toArray multiline position = a.holds input'.toArray multiline position := by
  have hsize : input.toArray.size = input'.toArray.size := h.length_eq
  have hline : ∀ i : Nat, (input.toArray[i]?).any Text.isLineTerminator =
      (input'.toArray[i]?).any Text.isLineTerminator := by
    intro i
    rw [List.getElem?_toArray, List.getElem?_toArray]
    exact h.any_getElem? Text.isLineTerminator_congr i
  cases a with
  | inputStart => rfl
  | inputEnd => rw [holds, holds, hsize]
  | lineStart => rw [holds, holds, hline]
  | lineEnd => rw [holds, holds, hsize, hline]

theorem Subject.standsAt_congr {t t' : Text} (ht : t.SameLetters t') (position : Nat) :
    standsAt (.ofText input ⟨true, multiline⟩) t position =
      standsAt (.ofText input' ⟨true, multiline⟩) t' position := by
  induction ht generalizing position with
  | nil => rfl
  | cons hfold _ ih =>
    rw [standsAt, standsAt, ih]
    simp only [ofText, List.getElem?_toArray]
    congr 1
    rw [h.any_getElem? (sameUnit_congr rfl)]
    congr 1
    funext v
    exact sameUnit_congr hfold rfl

theorem Subject.slice_sameLetters (options : MatchOptions) (span : Span) :
    ((ofText input options).slice span).SameLetters ((ofText input' options).slice span) := by
  obtain ⟨start, stop⟩ := span
  rw [slice_eq, slice_eq]
  exact List.forall₂_take _ (List.forall₂_drop _ h)

theorem Subject.afterReference?_congr (index : Nat) (st : State) :
    afterReference? (ofText input ⟨true, multiline⟩) index st =
      afterReference? (ofText input' ⟨true, multiline⟩) index st := by
  rw [afterReference?, afterReference?]
  split
  · rfl
  next span _ =>
    have hslice := slice_sameLetters h ⟨true, multiline⟩ span
    rw [standsAt_congr h multiline hslice, hslice.length_eq]

/-- An expression that ignores case has the same outcomes on both inputs. -/
theorem Regex.outcomes_sameLetters (r : Regex) :
    r.outcomes (.ofText input ⟨true, multiline⟩) = r.outcomes (.ofText input' ⟨true, multiline⟩) := by
  refine outcomes_congr h.length_eq (fun leaf hleaf => ?_)
  funext st
  rcases leaf_cases hleaf with ⟨set, rfl⟩ | ⟨a, rfl⟩ | ⟨index, rfl⟩
  · rw [outcomes, outcomes, set.acceptsAt_congr h]
  · show (if a.holds input.toArray multiline _ = true then _ else _) = _
    rw [a.holds_congr h]
    rfl
  · rw [outcomes, outcomes, Subject.afterReference?_congr h]

theorem Program.firstMatch_sameLetters (p : Program) :
    p.firstMatch input ⟨true, multiline⟩ = p.firstMatch input' ⟨true, multiline⟩ :=
  Regex.search_congr h.length_eq (fun st => congrFun (p.regex.outcomes_sameLetters h multiline) st)

end Subjects

/-! ## Records -/

/-- Records with the same keys, whose texts differ in case only. -/
def Record.SameLetters (r r' : Record) : Prop :=
  ∀ key, Option.Rel Text.SameLetters (r.get? key) (r'.get? key)

theorem optionRel_of_forall {α β : Type} {R : α → β → Prop} {x : Option α} {y : Option β}
    (hx : ∀ a, x = some a → ∃ b, y = some b ∧ R a b)
    (hy : ∀ b, y = some b → ∃ a, x = some a ∧ R a b) : Option.Rel R x y := by
  cases x with
  | some a =>
    obtain ⟨b, rfl, hR⟩ := hx a rfl
    exact .some hR
  | none =>
    cases y with
    | none => exact .none
    | some b =>
      obtain ⟨a, ha, -⟩ := hy b rfl
      contradiction

namespace Source

variable {source : Text} {p : Program} {input input' : Text} {options : MatchOptions} {span : Span}
  {captures : Captures}

/-- What stands under a key for one input stands there for the other, but for case. -/
theorem Entry.sameLetters (h : input.SameLetters input') {key value : Text}
    (hentry : Entry source p (.ofText input options) span captures key value) :
    ∃ value', Entry source p (.ofText input' options) span captures key value' ∧
      value.SameLetters value' := by
  have hslice := Subject.slice_sameLetters h options
  cases hentry with
  | whole => exact ⟨_, .whole, hslice _⟩
  | numbered hk hle hcaptured => exact ⟨_, .numbered hk hle hcaptured, hslice _⟩
  | named hname hlookup hcaptured => exact ⟨_, .named hname hlookup hcaptured, hslice _⟩

theorem recordOf_sameLetters (h : input.SameLetters input') :
    (recordOf source p (.ofText input options) span captures).SameLetters
      (recordOf source p (.ofText input' options) span captures) := by
  intro key
  by_cases hkey : key = utf16 "match"
  · rw [hkey, get?_recordOf_match, get?_recordOf_match]
    exact .some (Subject.slice_sameLetters h options span)
  · refine optionRel_of_forall (fun value hvalue => ?_) (fun value hvalue => ?_)
    · obtain ⟨value', hentry, hsame⟩ := ((get?_recordOf hkey).1 hvalue).sameLetters h
      exact ⟨value', (get?_recordOf hkey).2 hentry, hsame⟩
    · obtain ⟨value', hentry, hsame⟩ := ((get?_recordOf hkey).1 hvalue).sameLetters h.symm
      exact ⟨value', (get?_recordOf hkey).2 hentry, hsame.symm⟩

end Source

/-! ## Patterns -/

namespace Pattern

variable {p : Pattern}

/-- Where case is ignored, a consistent pattern answers alike about two inputs that differ in case
only, and extracts from both or from neither: the same keys, with texts that differ in case only. -/
theorem case_blind (hp : p.Consistent) {input input' : Text} (h : input.SameLetters input')
    (multiline : Bool) :
    (∃ found, p.occursIn (some input) ⟨true, multiline⟩ = .ok found ∧
      p.occursIn (some input') ⟨true, multiline⟩ = .ok found) ∧
    (∃ spanned, p.spans (some input) ⟨true, multiline⟩ = .ok spanned ∧
      p.spans (some input') ⟨true, multiline⟩ = .ok spanned) ∧
    ∃ record? record?', p.extract (some input) ⟨true, multiline⟩ = .ok record? ∧
      p.extract (some input') ⟨true, multiline⟩ = .ok record?' ∧
      Option.Rel Record.SameLetters record? record?' := by
  refine ⟨⟨_, hp.occursIn_eq input _, ?_⟩, ⟨_, hp.spans_eq input _, ?_⟩,
    ⟨_, _, hp.extract_eq input _, hp.extract_eq input' _, ?_⟩⟩
  · rw [hp.occursIn_eq, Program.firstMatch_sameLetters h]
  · rw [hp.spans_eq, Program.firstMatch_sameLetters h]
  · rw [Program.firstMatch_sameLetters h]
    cases p.program.firstMatch input' ⟨true, multiline⟩ with
    | none => exact .none
    | some found => exact .some (Source.recordOf_sameLetters h)

/-- A negated class and a range, captured behind the start of a line and referred to once more. -/
def excluded : Pattern :=
  sequence (anchor .lineStart)
    [namedGroup ⟨utf16 "seen", by decide⟩
      (sequence (charClass true (utf16 "aK")) [charRange ⟨0x3C3, 0x3C9, by decide⟩]),
      repeated (backreference ⟨utf16 "seen", by decide⟩) .oneOrMore]

theorem excluded_case_blind :
    excluded.Consistent ∧ (utf16 "x\nBσbς").SameLetters (utf16 "X\nbΣBσ") ∧
      (∃ found, excluded.occursIn (some (utf16 "x\nBσbς")) ⟨true, true⟩ = .ok found ∧
        excluded.occursIn (some (utf16 "X\nbΣBσ")) ⟨true, true⟩ = .ok found) ∧
      (∃ spanned, excluded.spans (some (utf16 "x\nBσbς")) ⟨true, true⟩ = .ok spanned ∧
        excluded.spans (some (utf16 "X\nbΣBσ")) ⟨true, true⟩ = .ok spanned) ∧
      ∃ record? record?', excluded.extract (some (utf16 "x\nBσbς")) ⟨true, true⟩ = .ok record? ∧
        excluded.extract (some (utf16 "X\nbΣBσ")) ⟨true, true⟩ = .ok record?' ∧
        Option.Rel Record.SameLetters record? record?' := by
  have hp : excluded.Consistent := ⟨by decide, by decide⟩
  have hsame : (utf16 "x\nBσbς").SameLetters (utf16 "X\nbΣBσ") := by
    unfold Text.SameLetters
    decide
  exact ⟨hp, hsame, case_blind hp hsame true⟩

end Pattern

end PatternAlgebra
