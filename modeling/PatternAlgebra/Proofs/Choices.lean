import Mathlib.Data.List.Infix
import PatternAlgebra.Proofs.Bare

/-!
# Texts and choices between texts

A text matches itself wherever it stands, and a choice between texts tries those that stand at a
position in the order in which they are listed. So a choice takes, from the first position at which
any of its texts stands, the first of those that stand there (`choice_takes_first`), and it spans
an input that is any one of them, be it preferred or not. A text alone is a choice of one. With
regard to case all of this is exact; without it only the spanning of a single text is considered.
-/

namespace PatternAlgebra

/-! ## Where a text stands -/

theorem infix_iff_exists_prefix_drop {t input : Text} :
    t <:+: input ↔ ∃ i, i ≤ input.length ∧ t <+: input.drop i := by
  constructor
  · rintro ⟨before, after, rfl⟩
    refine ⟨before.length, ?_, ?_⟩
    · rw [List.append_assoc, List.length_append]
      exact Nat.le_add_right _ _
    · rw [List.append_assoc, List.drop_left]
      exact List.prefix_append t after
  · rintro ⟨i, -, hprefix⟩
    exact hprefix.isInfix.trans (List.drop_suffix i input).isInfix

namespace Subject

variable {input : Text} {multiline : Bool}

/-- With regard to case a text stands where the input goes on with it. -/
theorem standsAt_eq_isPrefixOf (t : Text) (i : Nat) :
    standsAt (.ofText input ⟨false, multiline⟩) t i = t.isPrefixOf (input.drop i) := by
  induction t generalizing i with
  | nil => rfl
  | cons u t ih =>
    have hunit : (ofText input ⟨false, multiline⟩).units[i]? = input[i]? := List.getElem?_toArray
    rw [standsAt, hunit, ih]
    by_cases hi : i < input.length
    · rw [List.drop_eq_getElem_cons hi, List.isPrefixOf_cons_cons, List.getElem?_eq_getElem hi]
      rfl
    · rw [List.drop_eq_nil_of_le (show input.length ≤ i by omega),
        List.getElem?_eq_none (by omega)]
      rfl

theorem standsAt_iff {t : Text} {i : Nat} :
    standsAt (.ofText input ⟨false, multiline⟩) t i = true ↔ t <+: input.drop i := by
  rw [standsAt_eq_isPrefixOf, List.isPrefixOf_iff_prefix]

/-- Where a text stands it is what the input shows. -/
theorem slice_of_prefix {t : Text} {i : Nat} (h : t <+: input.drop i) (options : MatchOptions) :
    (ofText input options).slice ⟨i, i + t.length⟩ = t := by
  rw [slice_eq, Nat.add_sub_cancel_left]
  exact (List.prefix_iff_eq_take.1 h).symm

/-- A text stands from the beginning of an input to its end if it is the same as the input. -/
theorem shows_whole {t : Text} {options : MatchOptions} :
    (ofText input options).Shows t 0 input.length ↔ sameText options.ignoreCase t input := by
  have hslice : (ofText input options).slice ⟨0, input.length⟩ = input := by
    rw [slice_eq]
    exact List.take_length
  rw [Shows, hslice]
  constructor
  · exact fun h => h.2
  · intro hsame
    refine ⟨?_, hsame⟩
    have hlength : t.length = input.length := by
      unfold sameText at hsame
      split at hsame
      · simpa using congrArg List.length hsame
      · rw [hsame]
    omega

end Subject

/-! ## Outcomes of texts -/

/-- The state behind a text. -/
def State.behind (st : State) (t : Text) : State := { st with position := st.position + t.length }

theorem State.behind_cons (st : State) (u : CodeUnit) (t : Text) :
    st.behind (u :: t) = st.advance.behind t := by
  simp only [behind, advance, List.length_cons]
  congr 1
  omega

namespace Regex

variable (s : Subject)

/-- A text has the one outcome behind it where it stands, and none elsewhere. -/
theorem outcomes_literalItems (t : Text) (st : State) :
    (sequenceOf (literalItems t)).outcomes s st =
      if s.standsAt t st.position then [st.behind t] else [] := by
  induction t generalizing st with
  | nil => rfl
  | cons u t ih =>
    have haccepts : (UnitSet.only u).acceptsAt s st.position =
        (s.units[st.position]?).any (sameUnit s.options.ignoreCase u) := by
      rw [UnitSet.acceptsAt]
      cases s.units[st.position]? <;> rfl
    show (sequenceOf (one (.only u) :: literalItems t)).outcomes s st = _
    rw [outcomes_sequenceOf_cons, outcomes, haccepts, Subject.standsAt]
    cases (s.units[st.position]?).any (sameUnit s.options.ignoreCase u) with
    | false => rfl
    | true =>
      rw [if_pos rfl, List.flatMap_singleton, ih, st.behind_cons, Bool.true_and]
      rfl

/-- A choice has an outcome behind each of its texts that stands at the position, in their order. -/
theorem outcomes_choiceItems (first : Text) (others : List Text) (st : State) :
    (sequenceOf (choiceItems first others)).outcomes s st =
      ((first :: others).filter (s.standsAt · st.position)).map st.behind := by
  have hone : ∀ t : Text, (sequenceOf (literalItems t)).outcomes s st =
      ([t].filter (s.standsAt · st.position)).map st.behind := by
    intro t
    rw [outcomes_literalItems, List.filter_singleton]
    cases s.standsAt t st.position <;> rfl
  have hchoice : ∀ (others : List Text) (first : Text),
      (choiceOf (sequenceOf (literalItems first))
        (others.map (fun t => sequenceOf (literalItems t)))).outcomes s st =
        ((first :: others).filter (s.standsAt · st.position)).map st.behind := by
    intro others
    induction others with
    | nil => exact hone
    | cons second others ih =>
      intro first
      show (sequenceOf (literalItems first)).outcomes s st ++ (choiceOf _ _).outcomes s st = _
      rw [hone, ih, ← List.map_append, ← List.filter_append]
      rfl
  -- A choice of one is written as its text alone, without the group that holds several.
  cases others with
  | nil => exact hone first
  | cons second others => exact hchoice (second :: others) first

/-- From a position a choice takes the first of its texts that stands there. -/
theorem matchAt?_choiceItems (first : Text) (others : List Text) (i : Nat) :
    (sequenceOf (choiceItems first others)).matchAt? s i =
      ((first :: others).find? (s.standsAt · i)).map (fun t =>
        (⟨i, i + t.length⟩, fun _ => none)) := by
  rw [matchAt?, outcomes_choiceItems, List.head?_map, List.head?_filter, Option.map_map]
  rfl

theorem outcomes_choiceItems_eq_nil {first : Text} {others : List Text} {input : Text}
    {multiline : Bool} {i : Nat} :
    (sequenceOf (choiceItems first others)).outcomes (.ofText input ⟨false, multiline⟩) (.start i) =
        [] ↔ ∀ t ∈ first :: others, ¬ t <+: input.drop i := by
  rw [outcomes_choiceItems, List.map_eq_nil_iff, List.filter_eq_nil_iff]
  exact forall₂_congr (fun t _ => not_congr Subject.standsAt_iff)

end Regex

/-! ## Choices -/

/-- The text that is taken from an input when several are looked for, and where: no text stands
earlier, and none that is listed before it stands there. -/
structure Chosen (texts : List Text) (input : Text) (position : Nat) (t : Text) : Prop where
  within : position ≤ input.length
  earliest : ∀ i, i < position → ∀ other ∈ texts, ¬ other <+: input.drop i
  preferred : texts.find? (·.isPrefixOf (input.drop position)) = some t

namespace Pattern

variable {first : Text} {others : List Text} {input : Text} {multiline : Bool}

theorem bare_either (first : Text) (others : List Text) : (either first others).Bare :=
  ⟨rfl, rfl, rfl⟩

theorem firstMatch_either_eq_none :
    (either first others).program.firstMatch input ⟨false, multiline⟩ = none ↔
      ∀ t ∈ first :: others, ¬ t <:+: input := by
  show (Regex.sequenceOf (choiceItems first others)).search _ = none ↔ _
  simp only [Regex.search_eq_none, Regex.outcomes_choiceItems_eq_nil, infix_iff_exists_prefix_drop]
  constructor
  · rintro h t ht ⟨i, hi, hprefix⟩
    exact h i hi t ht hprefix
  · exact fun h i hi t ht hprefix => h t ht ⟨i, hi, hprefix⟩

/-- What is found of a choice is the chosen text. -/
theorem chosen_of_firstMatch_either {found : Span × Captures}
    (h : (either first others).program.firstMatch input ⟨false, multiline⟩ = some found) :
    ∃ position t, Chosen (first :: others) input position t ∧
      (Subject.ofText input ⟨false, multiline⟩).slice found.1 = t := by
  obtain ⟨i, hi, hmatch, hearlier⟩ := Regex.exists_matchAt?_of_search h
  change (Regex.sequenceOf (choiceItems first others)).matchAt? _ i = some found at hmatch
  rw [Regex.matchAt?_choiceItems] at hmatch
  obtain ⟨t, hfind, rfl⟩ := Option.map_eq_some_iff.1 hmatch
  have hstands := List.find?_some hfind
  rw [Subject.standsAt_iff] at hstands
  refine ⟨i, t, ⟨hi, fun j hj => ?_, ?_⟩, Subject.slice_of_prefix hstands _⟩
  · exact Regex.outcomes_choiceItems_eq_nil.1 (hearlier j hj)
  · rw [← hfind]
    congr 1
    funext other
    exact (Subject.standsAt_eq_isPrefixOf other i).symm

/-- With regard to case a choice spans an input that is one of its texts. It is found in an input if
one of them occurs there, and what is extracted is the one that stands earliest, or of several that
stand there the one that is listed first. -/
theorem choice_takes_first (first : Text) (others : List Text) (input : Text) (multiline : Bool) :
    (either first others).spans (some input) ⟨false, multiline⟩ =
        .ok (decide (input ∈ first :: others)) ∧
      ((either first others).extract (some input) ⟨false, multiline⟩ = .ok none ↔
        ∀ t ∈ first :: others, ¬ t <:+: input) ∧
      ((either first others).extract (some input) ⟨false, multiline⟩ = .ok none ∨
        ∃ position t, Chosen (first :: others) input position t ∧
          (either first others).extract (some input) ⟨false, multiline⟩ =
            .ok (some (.ofWhole t))) := by
  have hbare := bare_either first others
  refine ⟨?_, ?_, ?_⟩
  · obtain ⟨spanned, hspans, hiff⟩ := hbare.spans_iff input ⟨false, multiline⟩
    have hmem : (either first others).Relates (.ofText input ⟨false, multiline⟩) 0 input.length ↔
        input ∈ first :: others := by
      simp only [Relates, Subject.shows_whole, sameText]
      simp
    rw [hspans, Except.ok.injEq, Bool.eq_iff_iff, hiff, hmem, decide_eq_true_iff]
  · rw [hbare.extract_eq, Except.ok.injEq, Option.map_eq_none_iff, firstMatch_either_eq_none]
  · rw [hbare.extract_eq]
    cases hfound : (either first others).program.firstMatch input ⟨false, multiline⟩ with
    | none => exact .inl rfl
    | some found =>
      obtain ⟨position, t, hchosen, hslice⟩ := chosen_of_firstMatch_either hfound
      exact .inr ⟨position, t, hchosen, by rw [← hslice]; rfl⟩

/-- The text that is listed first is preferred, and given up where only another spans the input. -/
example : (either (utf16 "a") [utf16 "ab", []]).spans (some (utf16 "ab")) {} = .ok true ∧
    (either (utf16 "a") [utf16 "ab", []]).extract (some (utf16 "ab")) {} =
      .ok (some (.ofWhole (utf16 "a"))) := by
  decide +kernel

/-! ## Texts -/

theorem bare_literal (t : Text) : (literal t).Bare := ⟨rfl, rfl, rfl⟩

theorem spans_literal_iff (t input : Text) (options : MatchOptions) :
    ∃ spanned, (literal t).spans (some input) options = .ok spanned ∧
      (spanned = true ↔ sameText options.ignoreCase t input) := by
  obtain ⟨spanned, hspans, hiff⟩ := (bare_literal t).spans_iff input options
  exact ⟨spanned, hspans, hiff.trans Subject.shows_whole⟩

/-- A text is found as a choice of one would be: it is what is found, if it occurs at all. -/
theorem firstMatch_literal (t input : Text) (multiline : Bool) :
    ((literal t).program.firstMatch input ⟨false, multiline⟩).map (fun found =>
        (Subject.ofText input ⟨false, multiline⟩).slice found.1) =
      if t <:+: input then some t else none := by
  -- A text and a choice of it alone are written alike.
  have hchoice : (literal t).program = (either t []).program := rfl
  rw [hchoice]
  cases hfound : (either t []).program.firstMatch input ⟨false, multiline⟩ with
  | none =>
    have hnone := firstMatch_either_eq_none.1 hfound t (List.mem_singleton_self t)
    rw [if_neg hnone]
    rfl
  | some found =>
    obtain ⟨position, t', hchosen, rfl⟩ := chosen_of_firstMatch_either hfound
    have hoccurs : t <:+: input := by
      by_contra hnot
      have hnone : (either t []).program.firstMatch input ⟨false, multiline⟩ = none :=
        firstMatch_either_eq_none.2 (by simpa using hnot)
      rw [hfound] at hnone
      contradiction
    have htext := List.mem_singleton.1 (List.mem_of_find?_eq_some hchosen.preferred)
    rw [if_pos hoccurs, Option.map_some, htext]

/-- A text matches itself and nothing else, whatever its units are. With regard to case it spans an
input that it equals, it is found in an input where it occurs, and it alone is extracted. Without
regard to case it spans the inputs that fold to the same units. -/
theorem literal_exact (t input : Text) (multiline : Bool) :
    (literal t).spans (some input) ⟨false, multiline⟩ = .ok (decide (input = t)) ∧
      (literal t).occursIn (some input) ⟨false, multiline⟩ = .ok (decide (t <:+: input)) ∧
      (literal t).extract (some input) ⟨false, multiline⟩ =
        .ok (if t <:+: input then some (.ofWhole t) else none) ∧
      (literal t).spans (some input) ⟨true, multiline⟩ =
        .ok (decide (input.map CaseFold.fold = t.map CaseFold.fold)) := by
  have hbare := bare_literal t
  have hfirst := firstMatch_literal t input multiline
  refine ⟨?_, ?_, ?_, ?_⟩
  · obtain ⟨spanned, hspans, hiff⟩ := spans_literal_iff t input ⟨false, multiline⟩
    rw [hspans, Except.ok.injEq, Bool.eq_iff_iff, hiff, decide_eq_true_iff]
    exact eq_comm
  · have hsome := congrArg Option.isSome hfirst
    rw [Option.isSome_map] at hsome
    rw [hbare.consistent.occursIn_eq, hsome]
    split
    next h => rw [decide_eq_true h]; rfl
    next h => rw [decide_eq_false h]; rfl
  · rw [hbare.extract_eq]
    have hrecord := congrArg (Option.map Record.ofWhole) hfirst
    rw [Option.map_map] at hrecord
    rw [Except.ok.injEq]
    refine hrecord.trans ?_
    split <;> rfl
  · obtain ⟨spanned, hspans, hiff⟩ := spans_literal_iff t input ⟨true, multiline⟩
    rw [hspans, Except.ok.injEq, Bool.eq_iff_iff, hiff, decide_eq_true_iff]
    exact eq_comm

end Pattern

end PatternAlgebra
