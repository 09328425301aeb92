import PatternAlgebra.Matching.Basic
import PatternAlgebra.Proofs.PatternLeaves
import PatternAlgebra.Proofs.Search

/-!
# Where lines do not matter

The option for lines changes what the two line anchors assert and nothing else. A pattern without them
gives the same answers with the option and without it, or is refused in both cases. Its input anchors
become assertions on the ends of the input, which no run passes anywhere else, in whatever loop or
branch they stand (`lines_immaterial`). That a run passes them there is not claimed: it may never come
to them.
-/

namespace PatternAlgebra

theorem Except.map_congr_ok {ε α β : Type} {x : Except ε α} {f g : α → β}
    (h : ∀ a, x = .ok a → f a = g a) : x.map f = x.map g := by
  cases x with
  | error e => rfl
  | ok a => exact congrArg Except.ok (h a rfl)

/-! ## Two settings for lines -/

/-- How texts are compared does not depend on whether lines count. -/
theorem Subject.afterReference?_lines (units : Array CodeUnit) (ignoreCase : Bool) (index : Nat)
    (st : State) :
    afterReference? ⟨units, ignoreCase, true⟩ index st =
      afterReference? ⟨units, ignoreCase, false⟩ index st := by
  have hstands : ∀ (t : Text) (position : Nat),
      standsAt ⟨units, ignoreCase, true⟩ t position =
        standsAt ⟨units, ignoreCase, false⟩ t position := by
    intro t
    induction t with
    | nil => exact fun _ => rfl
    | cons u t ih =>
      intro position
      rw [standsAt, standsAt, ih]
  rw [afterReference?, afterReference?]
  simp only [hstands]
  rfl

namespace Regex

variable {r : Regex}

theorem mem_assertions {a : Anchor} : a ∈ r.assertions ↔ assertion a ∈ r.leaves := by
  rw [assertions, List.mem_filterMap]
  constructor
  · rintro ⟨leaf, hleaf, hanchor⟩
    cases leaf with
    | assertion b =>
      obtain rfl := Option.some.inj hanchor
      exact hleaf
    | empty | one | sequence | choice | capture | loop | reference => contradiction
  · exact fun hleaf => ⟨_, hleaf, rfl⟩

/-- Without assertions on lines the outcomes do not depend on whether lines count. -/
theorem outcomes_lines (hstart : .lineStart ∉ r.assertions) (hend : .lineEnd ∉ r.assertions)
    (units : Array CodeUnit) (ignoreCase : Bool) :
    r.outcomes ⟨units, ignoreCase, true⟩ = r.outcomes ⟨units, ignoreCase, false⟩ := by
  refine outcomes_congr rfl (fun leaf hleaf => ?_)
  rcases leaf_cases hleaf with ⟨set, rfl⟩ | ⟨a, rfl⟩ | ⟨index, rfl⟩
  · rfl
  · cases a with
    | lineStart => exact absurd (mem_assertions.2 hleaf) hstart
    | lineEnd => exact absurd (mem_assertions.2 hleaf) hend
    | inputStart | inputEnd => rfl
  · funext st
    rw [outcomes, outcomes, Subject.afterReference?_lines]

end Regex

theorem Program.firstMatch_lines {program : Program} (hstart : .lineStart ∉ program.regex.assertions)
    (hend : .lineEnd ∉ program.regex.assertions) (input : Text) (ignoreCase : Bool) :
    program.firstMatch input ⟨ignoreCase, true⟩ = program.firstMatch input ⟨ignoreCase, false⟩ :=
  Regex.search_congr rfl
    (fun st => congrFun (Regex.outcomes_lines hstart hend input.toArray ignoreCase) st)

/-! ## Where anchors are passed -/

/-- Some run of the expression from the state passes an assertion of the anchor at the position,
whether it goes on to an outcome or not. The rounds of a loop are not counted. -/
inductive Regex.Passes (s : Subject) (a : Anchor) (i : Nat) : Regex → State → Prop
  | here {st next : State} : next ∈ (assertion a).outcomes s st → next.position = i →
    Passes s a i (assertion a) st
  | first {r r' : Regex} {st : State} : Passes s a i r st → Passes s a i (sequence r r') st
  | second {r r' : Regex} {st mid : State} : mid ∈ r.outcomes s st → Passes s a i r' mid →
    Passes s a i (sequence r r') st
  | left {r r' : Regex} {st : State} : Passes s a i r st → Passes s a i (choice r r') st
  | right {r r' : Regex} {st : State} : Passes s a i r' st → Passes s a i (choice r r') st
  | captured {index : Nat} {body : Regex} {st : State} : Passes s a i body st →
    Passes s a i (capture index body) st
  | round {body : Regex} {least : Nat} {most : Option Nat} {st : State} :
    Passes s a i body (st.forget body.groups) → Passes s a i (loop body least most) st
  | later {body : Regex} {least : Nat} {most : Option Nat} {st mid : State} :
    mid ∈ body.outcomes s (st.forget body.groups) → Passes s a i (loop body least most) mid →
      Passes s a i (loop body least most) st

namespace Regex.Passes

variable {s : Subject} {a : Anchor} {i : Nat} {r : Regex} {st : State}

/-- An anchor is passed only where it holds. -/
theorem holds (h : Passes s a i r st) : a.holds s.units s.options.multiline i = true := by
  induction h with
  | here hmem hposition =>
    obtain ⟨hholds, rfl⟩ := mem_outcomes_assertion.1 hmem
    rwa [hposition] at hholds
  | first _ ih | second _ _ ih | left _ ih | right _ ih | captured _ ih | round _ ih
  | later _ _ ih => exact ih

theorem eq_zero (h : Passes s .inputStart i r st) : i = 0 := eq_of_beq h.holds

theorem eq_length (h : Passes s .inputEnd i r st) : i = s.length := eq_of_beq h.holds

end Regex.Passes

/-! ## Patterns without line anchors -/

theorem Scope.not_mem_anchors {scope : Scope} {within : List Anchor} {a : Anchor}
    (h : a ∉ within) (hstart : a ≠ .inputStart) (hend : a ≠ .inputEnd) :
    a ∉ scope.anchors within := by
  cases scope with
  | anywhere => exact h
  | wholeInput => simp [anchors, h, hstart, hend]

namespace Pattern

variable {p : Pattern}

/-- What a pattern without line anchors is compiled to finds the same whether lines count or not. -/
theorem firstMatch_lines (hplain : ∀ name ∈ p.references, greaterThan ∉ name.text)
    (hstart : .lineStart ∉ p.anchors) (hend : .lineEnd ∉ p.anchors) {scope : Scope}
    {program : Program} (h : compile scope p.expression = .ok program) (input : Text)
    (ignoreCase : Bool) :
    program.firstMatch input ⟨ignoreCase, true⟩ = program.firstMatch input ⟨ignoreCase, false⟩ := by
  have hassertions := assertions_of_compile (refersByGroupNames_of_compile hplain h) h
  apply Program.firstMatch_lines
  · rw [hassertions]
    exact Scope.not_mem_anchors hstart (by decide) (by decide)
  · rw [hassertions]
    exact Scope.not_mem_anchors hend (by decide) (by decide)

/-- A pattern without line anchors, whose references hold no `>`, gives the same answers whether lines
count or not, and is refused in both cases or in none. What it is compiled to asserts its own anchors,
and around them the ends of an input that it has to span, and passes none of these but at the end of
the input that it is about. -/
theorem lines_immaterial (hplain : ∀ name ∈ p.references, greaterThan ∉ name.text)
    (hstart : .lineStart ∉ p.anchors) (hend : .lineEnd ∉ p.anchors) :
    (∀ input ignoreCase,
      p.occursIn input ⟨ignoreCase, true⟩ = p.occursIn input ⟨ignoreCase, false⟩ ∧
      p.spans input ⟨ignoreCase, true⟩ = p.spans input ⟨ignoreCase, false⟩ ∧
      p.extract input ⟨ignoreCase, true⟩ = p.extract input ⟨ignoreCase, false⟩) ∧
    ∀ scope program, compile scope p.expression = .ok program →
      program.regex.assertions = scope.anchors p.anchors ∧
      ∀ input options start i,
        (Regex.Passes (.ofText input options) .inputStart i program.regex (.start start) → i = 0) ∧
        (Regex.Passes (.ofText input options) .inputEnd i program.regex (.start start) →
          i = input.length) := by
  constructor
  · intro input ignoreCase
    cases input with
    | none => exact ⟨rfl, rfl, rfl⟩
    | some input =>
      refine ⟨Except.map_congr_ok (fun program h => ?_), Except.map_congr_ok (fun program h => ?_),
        Except.map_congr_ok (fun program h => ?_)⟩
      · rw [firstMatch_lines hplain hstart hend h]
      · rw [firstMatch_lines hplain hstart hend h]
      · rw [firstMatch_lines hplain hstart hend h]
        rfl
  · intro scope program h
    refine ⟨assertions_of_compile (refersByGroupNames_of_compile hplain h) h, ?_⟩
    exact fun _ _ _ _ => ⟨Regex.Passes.eq_zero, Regex.Passes.eq_length⟩

/-- Repeated input anchors around a class and a text that spell anchors, with a reference. -/
def spelledAnchors : Pattern :=
  sequence (repeated (anchor .inputStart) .zeroOrMore)
    [namedGroup ⟨utf16 "sign", by decide⟩ (charClass false (utf16 "^$A")),
      repeated (backreference ⟨utf16 "sign", by decide⟩) .optional, literal (utf16 "$\\z"),
      repeated (anchor .inputEnd) .oneOrMore]

theorem spelledAnchors_lines_immaterial :
    (∀ name ∈ spelledAnchors.references, greaterThan ∉ name.text) ∧
      Anchor.lineStart ∉ spelledAnchors.anchors ∧ Anchor.lineEnd ∉ spelledAnchors.anchors ∧
      spelledAnchors.extract (some (utf16 "\naA$\\z")) ⟨true, true⟩ =
        spelledAnchors.extract (some (utf16 "\naA$\\z")) ⟨true, false⟩ ∧
      ∃ program, compile .wholeInput spelledAnchors.expression = .ok program ∧
        program.regex.assertions = [.inputStart, .inputStart, .inputEnd, .inputEnd] := by
  have hplain : ∀ name ∈ spelledAnchors.references, greaterThan ∉ name.text := by decide
  have hstart : Anchor.lineStart ∉ spelledAnchors.anchors := by decide
  have hend : Anchor.lineEnd ∉ spelledAnchors.anchors := by decide
  have hconsistent : spelledAnchors.Consistent := ⟨by decide, by decide⟩
  obtain ⟨hanswers, hcompiled⟩ := lines_immaterial hplain hstart hend
  obtain ⟨-, -, hextract⟩ := hanswers (some (utf16 "\naA$\\z")) true
  obtain ⟨hassertions, -⟩ := hcompiled .wholeInput _ hconsistent.compile_wholeInput
  exact ⟨hplain, hstart, hend, hextract, _, hconsistent.compile_wholeInput, hassertions⟩

end Pattern

end PatternAlgebra
