import PatternAlgebra.Proofs.Bare
import PatternAlgebra.Proofs.Repetition

/-!
# Classes of units

A class spans the inputs of one unit that is a member, or, if it is negated, of one unit that is
none. Every unit that is listed is a member by itself, whatever stands beside it
(`class_lists_units`), and several ranges have the members of each of them, in whatever order they
are listed (`ranges_union`). Where case is ignored a unit counts as a member if it folds to the same
as one; negation comes last.
-/

namespace PatternAlgebra

/-! ## Bounds of ranges -/

/-- A bound names a unit as a character, or by its code. -/
inductive RangeBound.Names : RangeBound → CodeUnit → Prop
  | character (u : CodeUnit) : Names (.text [u]) u
  | code {d : Double} {u : CodeUnit} : d.toNat? = some u.toNat → Names (.code d) u

theorem RangeBound.read_eq_ok_iff (side : RangeSide) {bound : RangeBound} {u : CodeUnit} :
    bound.read side = .ok u ↔ bound.Names u := by
  constructor
  · intro h
    unfold read at h
    split at h
    · obtain rfl := Except.ok.inj h
      exact .character _
    · contradiction
    next d =>
      split at h
      next n hn =>
        split at h
        next hle =>
          obtain rfl := Except.ok.inj h
          have hvalue : n.toUInt16.toNat = n := by
            rw [UInt16.toNat_ofNat']
            exact Nat.mod_eq_of_lt (by omega)
          exact .code (hn.trans (congrArg some hvalue.symm))
        · contradiction
      · contradiction
  · intro h
    cases h with
    | character => rfl
    | code hd =>
      have hlt := u.toNat_lt
      rw [read, hd]
      simp only [if_pos (show u.toNat ≤ 0xFFFF by omega)]
      exact congrArg Except.ok UInt16.ofNat_toNat

theorem CharRange.between_eq_ok_iff {a b : CodeUnit} {r : CharRange} :
    between a b = .ok r ↔ a = r.first ∧ b = r.last := by
  obtain ⟨first, last, hordered⟩ := r
  rw [between]
  split
  next h => simp
  next h =>
    refine iff_of_false (fun hrange => by contradiction) ?_
    rintro ⟨rfl, rfl⟩
    exact h hordered

/-- A range is built from bounds that name its ends. -/
theorem CharRange.ofBounds_eq_ok_iff {start finish : RangeBound} {r : CharRange} :
    ofBounds start finish = .ok r ↔ start.Names r.first ∧ finish.Names r.last := by
  rw [← RangeBound.read_eq_ok_iff .start, ← RangeBound.read_eq_ok_iff .finish, ofBounds]
  cases hstart : start.read .start with
  | error e =>
    refine iff_of_false (fun hrange => ?_) (fun hread => ?_)
    · contradiction
    · exact nomatch hread.1
  | ok a =>
    cases hfinish : finish.read .finish with
    | error e =>
      refine iff_of_false (fun hrange => ?_) (fun hread => ?_)
      · contradiction
      · exact nomatch hread.2
    | ok b =>
      rw [Except.ok.injEq, Except.ok.injEq]
      exact between_eq_ok_iff

/-! ## One unit -/

/-- One unit from the beginning of an input to its end is all of the input. -/
theorem Subject.showsOne_whole {input : Text} {options : MatchOptions} {negated : Bool}
    {member : CodeUnit → Bool} :
    (ofText input options).ShowsOne negated member 0 input.length ↔
      ∃ c, input = [c] ∧
        ((∃ m, member m = true ∧ sameUnit options.ignoreCase m c = true) ↔ negated = false) := by
  have hunit : (ofText input options).units[0]? = input[0]? := List.getElem?_toArray
  rw [ShowsOne, hunit]
  constructor
  · rintro ⟨hlength, c, hc, hmember⟩
    obtain ⟨d, rfl⟩ := List.length_eq_one_iff.1 hlength
    obtain rfl : d = c := Option.some.inj hc
    exact ⟨d, rfl, hmember⟩
  · rintro ⟨c, rfl, hmember⟩
    exact ⟨rfl, c, rfl, hmember⟩

/-- The order of its items is of no account to a class. -/
theorem UnitSet.accepts_perm {items items' : List ClassItem} (h : items.Perm items')
    (negated folding : Bool) (u : CodeUnit) :
    (members negated items).accepts folding u = (members negated items').accepts folding u := by
  rw [accepts, accepts, h.any_eq]

/-- Sets that accept the same units have the same outcomes. -/
theorem Regex.outcomes_one_congr {set set' : UnitSet} {s : Subject}
    (h : ∀ u, set.accepts s.options.ignoreCase u = set'.accepts s.options.ignoreCase u) :
    (one set).outcomes s = (one set').outcomes s := by
  funext st
  have haccepts : set.acceptsAt s st.position = set'.acceptsAt s st.position := by
    rw [UnitSet.acceptsAt, UnitSet.acceptsAt]
    split
    next u _ => exact h u
    · rfl
  rw [outcomes, outcomes, haccepts]

namespace Pattern

/-- A pattern of one unit, which is to be a member, or, if it is negated, is to be none. -/
structure OneOf (p : Pattern) (negated : Bool) (Member : CodeUnit → Prop) : Prop where
  bare : p.Bare
  relates : ∃ member : CodeUnit → Bool, (∀ u, member u = true ↔ Member u) ∧
    ∀ s, p.Relates s = s.ShowsOne negated member

namespace OneOf

variable {p : Pattern} {negated : Bool} {Member : CodeUnit → Prop}

theorem spans_iff (h : p.OneOf negated Member) (input : Text) (options : MatchOptions) :
    ∃ spanned, p.spans (some input) options = .ok spanned ∧
      (spanned = true ↔ ∃ c, input = [c] ∧
        ((∃ m, Member m ∧ sameUnit options.ignoreCase m c = true) ↔ negated = false)) := by
  obtain ⟨member, hmember, hrelates⟩ := h.relates
  obtain ⟨spanned, hspans, hiff⟩ := h.bare.spans_iff input options
  simp only [hrelates, Subject.showsOne_whole, hmember] at hiff
  exact ⟨spanned, hspans, hiff⟩

/-- With regard to case the unit itself is a member or none. -/
theorem spans_exactly (h : p.OneOf negated Member) (input : Text) (multiline : Bool) :
    ∃ spanned, p.spans (some input) ⟨false, multiline⟩ = .ok spanned ∧
      (spanned = true ↔ ∃ c, input = [c] ∧ (Member c ↔ negated = false)) := by
  obtain ⟨spanned, hspans, hiff⟩ := h.spans_iff input ⟨false, multiline⟩
  have hsame : ∀ c, (∃ m, Member m ∧ sameUnit false m c = true) ↔ Member c := by
    intro c
    simp [sameUnit]
  simp only [hsame] at hiff
  exact ⟨spanned, hspans, hiff⟩

/-- Without regard to case some member folds to the same unit, or none does. -/
theorem spans_folding (h : p.OneOf negated Member) (input : Text) (multiline : Bool) :
    ∃ spanned, p.spans (some input) ⟨true, multiline⟩ = .ok spanned ∧
      (spanned = true ↔ ∃ c, input = [c] ∧
        ((∃ m, Member m ∧ CaseFold.fold m = CaseFold.fold c) ↔ negated = false)) := by
  obtain ⟨spanned, hspans, hiff⟩ := h.spans_iff input ⟨true, multiline⟩
  simp only [sameUnit, if_true, beq_iff_eq] at hiff
  exact ⟨spanned, hspans, hiff⟩

end OneOf

theorem oneOf_charClass (negated : Bool) (members : Text) :
    (charClass negated members).OneOf negated (· ∈ members) where
  bare := ⟨rfl, rfl, rfl⟩
  relates := ⟨members.contains, fun _ => List.contains_iff_mem, fun _ => rfl⟩

/-- A class is read as the set of just the units that it lists. It spans an input of one unit that
is listed, or not listed if the class is negated; where case is ignored, up to folding. -/
theorem class_lists_units (negated : Bool) (members : Text) :
    Program.parse (engineText .anywhere (charClass negated members).expression) =
        .ok ⟨.one (.members negated (members.map (fun u => .range u u))), [], 0⟩ ∧
      (∀ input multiline, ∃ spanned,
        (charClass negated members).spans (some input) ⟨false, multiline⟩ = .ok spanned ∧
          (spanned = true ↔ ∃ c, input = [c] ∧ (c ∈ members ↔ negated = false))) ∧
      ∀ input multiline, ∃ spanned,
        (charClass negated members).spans (some input) ⟨true, multiline⟩ = .ok spanned ∧
          (spanned = true ↔ ∃ c, input = [c] ∧
            ((∃ u ∈ members, CaseFold.fold u = CaseFold.fold c) ↔ negated = false)) := by
  have hclass := oneOf_charClass negated members
  exact ⟨parse_anywhere hclass.bare.consistent, hclass.spans_exactly, hclass.spans_folding⟩

/-- Hyphens, a caret, brackets and backslashes with letters behind them are members and no more. -/
example : (charClass false (utf16 "^a-c]\\d\\")).spans (some (utf16 "b")) {} = .ok false ∧
    (charClass false (utf16 "^a-c]\\d\\")).spans (some (utf16 "-")) {} = .ok true ∧
    (charClass true []).spans (some (utf16 "\n")) {} = .ok true := by
  decide +kernel

theorem oneOf_multiRange (first : CharRange) (others : List CharRange) :
    (multiRange first others).OneOf false
      (fun u => ∃ r ∈ first :: others, r.first ≤ u ∧ u ≤ r.last) where
  bare := ⟨rfl, rfl, rfl⟩
  relates := by
    refine ⟨fun u => (first :: others).any (·.contains u), fun u => ?_, fun _ => rfl⟩
    simp only [List.any_eq_true, CharRange.contains, Bool.and_eq_true, decide_eq_true_eq]

/-- One or several ranges, each built from bounds that name its ends as characters or by their
codes, span an input of one unit that one of them has; where case is ignored, one that folds to the
same as such a unit. In another order they give the same answers to every question. -/
theorem ranges_union (first : CharRange) (others : List CharRange) :
    (∀ r ∈ first :: others, ∀ start finish,
      CharRange.ofBounds start finish = .ok r ↔ start.Names r.first ∧ finish.Names r.last) ∧
    (∀ input multiline, ∃ spanned,
      (multiRange first others).spans (some input) ⟨false, multiline⟩ = .ok spanned ∧
        (spanned = true ↔ ∃ c, input = [c] ∧ ∃ r ∈ first :: others, r.first ≤ c ∧ c ≤ r.last)) ∧
    (∀ input multiline, ∃ spanned,
      (multiRange first others).spans (some input) ⟨true, multiline⟩ = .ok spanned ∧
        (spanned = true ↔ ∃ c, input = [c] ∧ ∃ u,
          (∃ r ∈ first :: others, r.first ≤ u ∧ u ≤ r.last) ∧ CaseFold.fold u = CaseFold.fold c)) ∧
    ∀ first' others', (first' :: others').Perm (first :: others) →
      SameAnswers (multiRange first' others') (multiRange first others) := by
  have hranges := oneOf_multiRange first others
  refine ⟨fun r _ start finish => CharRange.ofBounds_eq_ok_iff, fun input multiline => ?_,
    fun input multiline => ?_, fun first' others' hperm => ?_⟩
  · simpa only [iff_true] using hranges.spans_exactly input multiline
  · simpa only [iff_true] using hranges.spans_folding input multiline
  · have hranges' := oneOf_multiRange first' others'
    refine hranges'.bare.consistent.sameAnswers_of_outcomes hranges.bare.consistent
      (fun s => ?_) rfl rfl
    exact Regex.outcomes_one_congr (UnitSet.accepts_perm (hperm.map _) false _)

/-- From a hyphen to a solidus. -/
def fromHyphen : CharRange := ⟨0x2D, 0x2F, by decide⟩

/-- From an opening to a closing bracket. -/
def fromBracket : CharRange := ⟨0x5B, 0x5D, by decide⟩

/-- From a backslash to a caret. -/
def fromBackslash : CharRange := ⟨0x5C, 0x5E, by decide⟩

theorem marked_ranges_union :
    fromBackslash ∈ [fromHyphen, fromBracket, fromBackslash] ∧
      CharRange.ofBounds (.text (utf16 "\\")) (.code ⟨0x4057800000000000⟩) = .ok fromBackslash ∧
      [fromBackslash, fromBracket, fromHyphen].Perm [fromHyphen, fromBracket, fromBackslash] ∧
      SameAnswers (multiRange fromBackslash [fromBracket, fromHyphen])
        (multiRange fromHyphen [fromBracket, fromBackslash]) := by
  have hmem : fromBackslash ∈ [fromHyphen, fromBracket, fromBackslash] := by simp
  have hperm : [fromBackslash, fromBracket, fromHyphen].Perm
      [fromHyphen, fromBracket, fromBackslash] :=
    List.reverse_perm [fromHyphen, fromBracket, fromBackslash]
  obtain ⟨hbuilt, -, -, horder⟩ := ranges_union fromHyphen [fromBracket, fromBackslash]
  have hnames : RangeBound.Names (.text (utf16 "\\")) fromBackslash.first ∧
      RangeBound.Names (.code ⟨0x4057800000000000⟩) fromBackslash.last :=
    ⟨.character 0x5C, .code (by decide)⟩
  exact ⟨hmem, (hbuilt fromBackslash hmem _ _).2 hnames, hperm, horder _ _ hperm⟩

end Pattern

end PatternAlgebra
