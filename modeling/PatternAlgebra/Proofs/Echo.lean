import PatternAlgebra.Proofs.Choices
import PatternAlgebra.Proofs.Enclosing

/-!
# What was captured, once more

A captured pattern, a text and a reference to what was captured span just the inputs that are
something the pattern spans, then the text, and then the same once more (`echo_spans_iff`). All ways
in which the pattern can match are tried for that, not only the preferred one. A pattern with an
anchor is left out, as it may match in front of the text what it does not span alone; and so are
matches without regard to case, for which the second copy may differ from the first.
-/

namespace PatternAlgebra

/-! ## References as texts -/

namespace Regex

variable {s : Subject}

/-- A reference to a group that has captured matches as the captured text does. -/
theorem outcomes_reference {k : Nat} {st : State} {span : Span} (h : st.captures k = some span) :
    (reference k).outcomes s st = (sequenceOf (literalItems (s.slice span))).outcomes s st := by
  rw [outcomes, outcomes_literalItems, Subject.afterReference?, h]
  show Option.toList (if _ then some _ else none) = _
  split <;> rfl

/-- What a group captures, then a text, then a reference to the group: after the group the text with
what was captured behind it. -/
theorem outcomes_echo (r : Regex) (w : Text) (st : State) :
    (sequenceOf (capture 1 r :: (literalItems w ++ [reference 1]))).outcomes s st =
      (r.outcomes s st).flatMap (fun mid =>
        (sequenceOf (literalItems (w ++ s.slice ⟨st.position, mid.position⟩))).outcomes s
          (mid.capture 1 st.position)) := by
  rw [outcomes_sequenceOf_cons, outcomes, List.flatMap_map]
  apply List.flatMap_congr
  intro mid _
  have hsplit : literalItems (w ++ s.slice ⟨st.position, mid.position⟩) =
      literalItems w ++ literalItems (s.slice ⟨st.position, mid.position⟩) := List.map_append
  rw [hsplit, outcomes_sequenceOf_append, outcomes_sequenceOf_append, outcomes_literalItems]
  -- A text leaves alone what the group has captured.
  split
  · rw [List.flatMap_singleton, List.flatMap_singleton]
    exact outcomes_reference rfl
  · rfl

/-- Such an outcome at the end of the input leaves what was captured behind the text. -/
theorem echo_ends_iff {r : Regex} {w input : Text} {multiline : Bool} :
    (∃ next ∈ (sequenceOf (capture 1 r :: (literalItems w ++ [reference 1]))).outcomes
        (.ofText input ⟨false, multiline⟩) (.start 0), next.position = input.length) ↔
      ∃ mid ∈ r.outcomes (.ofText input ⟨false, multiline⟩) (.start 0),
        w ++ input.take mid.position = input.drop mid.position := by
  have hslice : ∀ i, (Subject.ofText input ⟨false, multiline⟩).slice ⟨0, i⟩ = input.take i :=
    fun i => Subject.slice_eq _ 0 i
  rw [outcomes_echo]
  constructor
  · intro h
    obtain ⟨next, hnext, hend⟩ := h
    obtain ⟨mid, hmid, hnext⟩ := List.mem_flatMap.1 hnext
    refine ⟨mid, hmid, ?_⟩
    rw [outcomes_literalItems] at hnext
    obtain ⟨hstands, hnext⟩ := List.mem_ite_nil_right.1 hnext
    obtain rfl := List.mem_singleton.1 hnext
    have hprefix := Subject.standsAt_iff.1 hstands
    change w ++ Subject.slice _ ⟨0, mid.position⟩ <+: input.drop mid.position at hprefix
    change mid.position + (w ++ Subject.slice _ ⟨0, mid.position⟩).length = input.length at hend
    rw [hslice] at hprefix hend
    apply hprefix.eq_of_length
    rw [List.length_drop]
    omega
  · intro h
    obtain ⟨mid, hmid, hrest⟩ := h
    have hle : mid.position ≤ input.length :=
      (reaches_of_mem_outcomes _ r _ mid hmid).1.le_length (Nat.zero_le _)
    refine ⟨(mid.capture 1 0).behind (input.drop mid.position), ?_, ?_⟩
    · apply List.mem_flatMap.2
      refine ⟨mid, hmid, ?_⟩
      show _ ∈ (sequenceOf (literalItems (w ++ Subject.slice _ ⟨0, mid.position⟩))).outcomes _ _
      rw [hslice, hrest, outcomes_literalItems, if_pos]
      · exact List.mem_singleton_self _
      · exact Subject.standsAt_iff.2 (List.prefix_refl _)
    · show mid.position + (input.drop mid.position).length = input.length
      rw [List.length_drop]
      omega

end Regex

/-! ## Fronts of the input -/

namespace Pattern

variable {g : Pattern} {options : MatchOptions}

/-- What a pattern matches at the beginning of an input, whatever its groups are numbered from, it
spans alone. -/
theorem Consistent.spans_take (hg : g.Consistent) (hanchor : g.hasAnchor = false) {input : Text}
    {mid : State}
    (hmid : mid ∈ (g.program.regex.renumber (· + 1)).outcomes (.ofText input options) (.start 0)) :
    g.spans (some (input.take mid.position)) options = .ok true := by
  have hgroup := hg.enclosed (newName_none g)
  have hmem := mem_capturing_enclosed g none
  have hle : mid.position ≤ input.length :=
    (Regex.reaches_of_mem_outcomes _ _ _ mid hmid).1.le_length (Nat.zero_le _)
  rw [renumber_program hgroup.distinct hmem hg.declared] at hmid
  have hcaptured : Captured (.ofText input options) _ ⟨0, mid.position⟩ 0 mid.position :=
    ⟨.start 0, mid, hmid, rfl, rfl, fun _ _ => rfl, Nat.le_refl _, Nat.le_refl _⟩
  have hspans := hgroup.spans_captured hmem hanchor hg.declared hle hcaptured
  rw [Subject.slice_eq] at hspans
  exact hspans

/-- What a pattern spans alone it matches at the beginning of an input that begins with it. -/
theorem Consistent.exists_outcome_of_spans (hg : g.Consistent) (hanchor : g.hasAnchor = false)
    {u : Text} (hspans : g.spans (some u) options = .ok true) (rest : Text) :
    ∃ mid ∈ (g.program.regex.renumber (· + 1)).outcomes (.ofText (u ++ rest) options) (.start 0),
      mid.position = u.length := by
  obtain ⟨next, hnext, hend⟩ := hg.spans_iff_outcome.1 hspans
  have hpiece : (Subject.ofText (u ++ rest) options).piece 0 u.length = .ofText u options := by
    rw [Subject.piece, Subject.slice_eq]
    show Subject.ofText ((u ++ rest).take u.length) options = _
    rw [List.take_left]
  have hlength : u.length ≤ (Subject.ofText (u ++ rest) options).length := by
    show u.length ≤ (u ++ rest).length
    rw [List.length_append]
    exact Nat.le_add_right _ _
  have hstart : Placed (· + 1) (· ∈ g.program.regex.groups) 0 u.length (.start 0) (.start 0) := by
    refine ⟨⟨rfl, fun _ _ => rfl, ?_⟩, ?_⟩
    · exact fun _ _ _ hspan => nomatch hspan
    · exact Nat.zero_le u.length
  rw [← hpiece] at hnext
  obtain ⟨mid, hmid, hplaced⟩ := embed (fun i j hij => Nat.add_right_cancel hij) hlength
    (hg.closed_program hanchor) _ _ hstart next hnext trivial
  refine ⟨mid, hmid, ?_⟩
  rw [hplaced.1.position, hend, Nat.zero_add]

end Pattern

/-! ## Patterns -/

/-- The name of a group, to refer to the group by. -/
def GroupName.toReference (name : GroupName) : ReferenceName where
  text := name.text
  nonempty := by
    intro h
    have hname := name.wellFormed
    rw [h] at hname
    contradiction

namespace Pattern

/-- A captured pattern, a text, and what was captured once more. -/
def echo (g : Pattern) (name : GroupName) (w : Text) : Pattern :=
  ((namedGroup name g).andThen (literal w)).andThen (backreference name.toReference)

variable {g : Pattern} {name : GroupName}

theorem capturing_echo (g : Pattern) (name : GroupName) (w : Text) :
    (g.echo name w).capturing = ⟨some name, g⟩ :: g.capturing := by
  simp [echo, andThen]

theorem references_echo (g : Pattern) (name : GroupName) (w : Text) :
    (g.echo name w).references = g.references ++ [name.toReference] := by
  simp [echo, andThen]

theorem mem_capturing_echo (g : Pattern) (name : GroupName) (w : Text) :
    (⟨some name, g⟩, 1) ∈ (g.echo name w).capturing.zipIdx 1 := by
  rw [capturing_echo]
  exact List.mem_cons_self

theorem groupNames_echo (g : Pattern) (name : GroupName) (w : Text) :
    (g.echo name w).groupNames = name.text :: g.groupNames := by
  simp [groupNames, capturing_echo]

theorem Consistent.echo (hg : g.Consistent) (hname : name.text ∉ g.groupNames) (w : Text) :
    (g.echo name w).Consistent := by
  constructor
  · rw [groupNames_echo]
    exact List.nodup_cons.2 ⟨hname, hg.distinct⟩
  · intro reference hreference
    rw [references_echo] at hreference
    rw [groupNames_echo]
    rcases List.mem_append.1 hreference with hown | hadded
    · exact List.mem_cons_of_mem _ (hg.declared reference hown)
    · obtain rfl := List.mem_singleton.1 hadded
      exact List.mem_cons_self

/-- It is read as a capture of the pattern, whose own groups are counted on, the text, and a reference
to the capture. -/
theorem Consistent.regex_echo (hg : g.Consistent) (hname : name.text ∉ g.groupNames) (w : Text) :
    (g.echo name w).program.regex =
      Regex.sequenceOf (.capture 1 (g.program.regex.renumber (· + 1)) ::
        (literalItems w ++ [.reference 1])) := by
  have hbody := renumber_program (hg.echo hname w).distinct (mem_capturing_echo g name w)
    hg.declared
  have hnumber : (g.echo name w).groupNumber name.text = 1 := by
    rw [groupNumber, namesFrom, capturing_echo]
    show (List.lookup name.text ((name.text, 1) :: _)).getD 0 = 1
    rw [List.lookup_cons_self]
    rfl
  have hitems : (g.echo name w).readItems =
      .capture 1 (g.program.regex.renumber (· + 1)) :: (literalItems w ++ [.reference 1]) := by
    show (Regex.capture 1 (Regex.sequenceOf _) :: (literalItems w ++ [])) ++
      [Regex.reference ((g.echo name w).groupNumber name.text)] = _
    rw [hnumber, hbody, List.append_nil]
    rfl
  exact congrArg Regex.sequenceOf hitems

/-- With regard to case, a captured pattern without anchors, a text, and what was captured once more
span the inputs that are what the pattern spans, the text, and the same once more. -/
theorem echo_spans_iff (hg : g.Consistent) (hanchor : g.hasAnchor = false)
    (hname : name.text ∉ g.groupNames) (w input : Text) (multiline : Bool) :
    ∃ spanned, (((namedGroup name g).andThen (literal w)).andThen
        (backreference name.toReference)).spans (some input) ⟨false, multiline⟩ = .ok spanned ∧
      (spanned = true ↔
        ∃ u, input = u ++ w ++ u ∧ g.spans (some u) ⟨false, multiline⟩ = .ok true) := by
  refine ⟨_, (hg.echo hname w).spans_eq input _, ?_⟩
  show (Program.firstMatch (g.echo name w).program.spanning input _).isSome = true ↔ _
  rw [Program.firstMatch_spanning, hg.regex_echo hname, Regex.echo_ends_iff]
  constructor
  · intro h
    obtain ⟨mid, hmid, hrest⟩ := h
    refine ⟨input.take mid.position, ?_, hg.spans_take hanchor hmid⟩
    rw [List.append_assoc, hrest, List.take_append_drop]
  · intro h
    obtain ⟨u, rfl, hspans⟩ := h
    rw [List.append_assoc]
    obtain ⟨mid, hmid, hposition⟩ := hg.exists_outcome_of_spans hanchor hspans (w ++ u)
    refine ⟨mid, hmid, ?_⟩
    rw [hposition, List.take_left, List.drop_left]

/-- Units that each stand twice. -/
def doubled : Pattern :=
  repeated
    (sequence (namedGroup ⟨utf16 "half", by decide⟩ (charClass false (utf16 "ab")))
      [backreference ⟨utf16 "half", by decide⟩]) .oneOrMore

def copyName : GroupName := ⟨utf16 "copy", by decide⟩

/-- The group takes four units first, of which it has to give back two. -/
theorem doubled_echo_spans :
    doubled.Consistent ∧ doubled.hasAnchor = false ∧ copyName.text ∉ doubled.groupNames ∧
      (((namedGroup copyName doubled).andThen (literal (utf16 "a"))).andThen
        (backreference copyName.toReference)).spans (some (utf16 "aaaaa")) ⟨false, true⟩ =
          .ok true := by
  have hg : doubled.Consistent := ⟨by decide, by decide⟩
  have hanchor : doubled.hasAnchor = false := rfl
  have hname : copyName.text ∉ doubled.groupNames := by decide
  have haround : utf16 "aaaaa" = utf16 "aa" ++ utf16 "a" ++ utf16 "aa" := by decide
  have hspans : doubled.spans (some (utf16 "aa")) ⟨false, true⟩ = .ok true := by decide +kernel
  obtain ⟨spanned, hresult, hiff⟩ :=
    echo_spans_iff hg hanchor hname (utf16 "a") (utf16 "aaaaa") true
  rw [hiff.2 ⟨utf16 "aa", haround, hspans⟩] at hresult
  exact ⟨hg, hanchor, hname, hresult⟩

end Pattern

end PatternAlgebra
