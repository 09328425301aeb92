import PatternAlgebra.Proofs.Agreement
import PatternAlgebra.Proofs.Compilation
import PatternAlgebra.Proofs.InnerGroups
import PatternAlgebra.Proofs.Slice

/-!
# Captures are sound

What the record of a match holds under the number of a group is a piece of the match, and the group's
body alone matches all of it, if the body depends on nothing outside: an anchor in it would see the
ends of the piece, and a reference another group. That a group is listed at all is not claimed, as
it may not have taken part.
-/

namespace PatternAlgebra

/-! ## Groups of a program -/

namespace Pattern

variable {p : Pattern}

theorem groups_program (p : Pattern) :
    p.program.regex.groups = List.range' 1 p.groupCount := by
  show (Regex.sequenceOf p.readItems).groups = _
  rw [Regex.groups_eq_map_captures, Regex.captures_sequenceOf, readItems,
    captures_items Quantifier.asRead_keepsCaptures, List.map_map]
  exact List.zipIdx_map_snd 1 p.capturing

/-- A group of a pattern with what it captures as the text is read. -/
theorem mem_captures_program {g : Capturing} {k : Nat} (hg : (g, k) ∈ p.capturing.zipIdx 1) :
    (k, Regex.sequenceOf (g.body.items Quantifier.asRead p.groupNumber k)) ∈
      p.program.regex.captures := by
  show _ ∈ (Regex.sequenceOf p.readItems).captures
  rw [Regex.captures_sequenceOf, readItems, captures_items Quantifier.asRead_keepsCaptures]
  exact List.mem_map_of_mem hg

/-- What a group captures is read as the group's body alone, but for the numbers of groups. -/
theorem renumber_program (hdistinct : p.groupNames.Nodup) {g : Capturing} {k : Nat}
    (hg : (g, k) ∈ p.capturing.zipIdx 1)
    (hown : ∀ name ∈ g.body.references, name.text ∈ g.body.groupNames) :
    g.body.program.regex.renumber (· + k) =
      Regex.sequenceOf (g.body.items Quantifier.asRead p.groupNumber k) := by
  have hnumbers : ∀ name ∈ g.body.references,
      p.groupNumber name.text = g.body.groupNumber name.text + k :=
    fun name hname => groupNumber_inner hdistinct hg (hown name hname)
  have hshift := items_shift hnumbers 0
  rw [Nat.zero_add] at hshift
  show Regex.renumber _ (Regex.sequenceOf g.body.readItems) = _
  rw [Regex.renumber_sequenceOf, ← hshift]
  rfl

/-- A consistent pattern without anchors is read as a closed expression. -/
theorem Consistent.closed_program (hp : p.Consistent) (hanchor : p.hasAnchor = false) :
    p.program.regex.Closed (· ∈ p.program.regex.groups) := by
  refine Regex.closed_sequenceOf (closed_items hanchor (fun name hname => ?_) 0)
  obtain ⟨g, -, hg, -, -⟩ := hp.groupNumber_spec hname
  rw [Regex.groups_eq_map_captures]
  exact List.mem_map_of_mem (mem_captures_program hg)

end Pattern

/-- A span within another one shows a piece of what that shows. -/
theorem Subject.slice_infix {s : Subject} {inner outer : Span} (hstart : outer.start ≤ inner.start)
    (hstop : inner.stop ≤ outer.stop) (hle : outer.start ≤ inner.stop) :
    s.slice inner <:+: s.slice outer := by
  have hshift : inner =
      Span.shift outer.start ⟨inner.start - outer.start, inner.stop - outer.start⟩ := by
    show inner = ⟨outer.start + (inner.start - outer.start), outer.start + (inner.stop - outer.start)⟩
    rw [Nat.add_sub_cancel' hstart, Nat.add_sub_cancel' hle]
  have hpiece : s.slice inner = (s.piece outer.start outer.stop).slice
      ⟨inner.start - outer.start, inner.stop - outer.start⟩ := by
    conv_lhs => rw [hshift]
    exact Subject.slice_shift (by show outer.start + (inner.stop - outer.start) ≤ _; omega)
  rw [hpiece, slice_eq]
  exact (List.take_prefix _ _).isInfix.trans (List.drop_suffix _ _).isInfix

namespace Pattern

variable {p : Pattern}

/-- What a group has captured its body spans. -/
theorem Consistent.spans_captured (hp : p.Consistent) {g : Capturing} {k : Nat}
    (hg : (g, k) ∈ p.capturing.zipIdx 1) (hanchor : g.body.hasAnchor = false)
    (hown : ∀ name ∈ g.body.references, name.text ∈ g.body.groupNames) {s : Subject}
    {captured : Span} (hlength : captured.stop ≤ s.length) {start stop : Nat}
    (h : Captured s (Regex.sequenceOf (g.body.items Quantifier.asRead p.groupNumber k)) captured
      start stop) : g.body.spans (some (s.slice captured)) s.options = .ok true := by
  obtain ⟨entry, leaving, hleaving, hentry, hposition, hempty, -, -⟩ := h
  have hbody := hp.inner hg hown
  rw [← renumber_program hp.distinct hg hown] at hleaving hempty
  rw [Regex.groups_renumber] at hempty
  -- On entry nothing is captured in the groups of the body, as at the start of a match.
  have hsame : SameWithin (· + k) (· ∈ g.body.program.regex.groups) captured.start captured.stop
      entry (.start 0) := by
    constructor
    · exact hentry
    · exact fun i hi => hempty (i + k) (List.mem_map_of_mem hi)
    · exact fun i span _ hspan => nomatch hspan
  obtain ⟨next, hnext, hend⟩ := simulate (fun i j hij => Nat.add_right_cancel hij) hlength
    (hbody.closed_program hanchor) entry (.start 0) hsame leaving hleaving (Nat.le_of_eq hposition)
  refine hbody.spans_iff_outcome.2 ⟨next, hnext, ?_⟩
  have hpiece : (s.slice captured).length = captured.stop - captured.start :=
    Subject.length_piece hlength
  have hshift := hend.position
  omega

/-- What the record of a match holds under the number of a group is a piece of the match, and the
body of the group spans it, if it has no anchor and refers to its own groups only. -/
theorem captures_sound (hp : p.Consistent) {input : Text} {options : MatchOptions} {record : Record}
    (hrecord : p.extract (some input) options = .ok (some record)) {g : Capturing} {k : Nat}
    (hg : (g, k) ∈ p.capturing.zipIdx 1) {value : Text}
    (hvalue : record.get? (decimalText k) = some value) :
    (∃ whole, record.get? (utf16 "match") = some whole ∧ value <:+: whole) ∧
      (g.body.hasAnchor = false →
        (∀ name ∈ g.body.references, name.text ∈ g.body.groupNames) →
        g.body.spans (some value) options = .ok true) := by
  rw [hp.extract_eq] at hrecord
  obtain ⟨⟨span, captures⟩, hfound, rfl⟩ := Option.map_eq_some_iff.1 (Except.ok.inj hrecord)
  obtain ⟨-, hmem, -⟩ := Regex.search_eq_some hfound
  have hk : k ≠ 0 := by
    have hle := List.le_snd_of_mem_zipIdx hg
    simp only at hle
    omega
  obtain ⟨captured, hcaptured, rfl⟩ := Source.get?_recordOf_decimalText hk hvalue
  have hdistinct : p.program.regex.groups.Nodup := by
    rw [groups_program]
    exact List.nodup_range'
  have hgroup : Captured (.ofText input options) _ captured span.start span.stop :=
    Regex.captured_of_mem_outcomes hdistinct (fun _ _ => rfl) hmem (mem_captures_program hg) hcaptured
  obtain ⟨hfrom, hforwards, hto⟩ := hgroup.within
  constructor
  · exact ⟨_, Source.get?_recordOf_match _ _ _ _ _,
      Subject.slice_infix hfrom hto (Nat.le_trans hfrom hforwards)⟩
  · intro hanchor hown
    have hinput : span.stop ≤ (Subject.ofText input options).length :=
      (Program.bounds_of_firstMatch hfound).2
    exact hp.spans_captured hg hanchor hown (Nat.le_trans hto hinput) hgroup

/-- What each round of `rounds` captures: a unit, and what follows it that is the same. -/
def repeatedUnit : Pattern :=
  sequence (namedGroup ⟨utf16 "b", by decide⟩ (charClass false (utf16 "ab")))
    [repeated (backreference ⟨utf16 "b", by decide⟩) .zeroOrMore]

/-- Groups in a loop, the first of which a round may leave out. -/
def rounds : Pattern :=
  repeated
    (sequence (repeated (group (literal (utf16 "-"))) .optional) [group repeatedUnit]) .oneOrMore

theorem rounds_capture_sound :
    rounds.Consistent ∧ ∃ record,
      rounds.extract (some (utf16 "x-abB")) ⟨true, false⟩ = .ok (some record) ∧
        record.get? (decimalText 2) = some (utf16 "bB") ∧
        (∃ whole, record.get? (utf16 "match") = some whole ∧ utf16 "bB" <:+: whole) ∧
        repeatedUnit.spans (some (utf16 "bB")) ⟨true, false⟩ = .ok true := by
  have hp : rounds.Consistent := ⟨by decide, by decide⟩
  have hcomputed : (rounds.program.firstMatch (utf16 "x-abB") ⟨true, false⟩).map (fun found =>
      (Source.recordOf rounds.expression rounds.program (.ofText (utf16 "x-abB") ⟨true, false⟩)
        found.1 found.2).get? (decimalText 2)) = some (some (utf16 "bB")) := by decide
  obtain ⟨found, hfound, hvalue⟩ := Option.map_eq_some_iff.1 hcomputed
  have hrecord := hp.extract_eq (utf16 "x-abB") ⟨true, false⟩
  rw [hfound] at hrecord
  have hg : (⟨none, repeatedUnit⟩, 2) ∈ rounds.capturing.zipIdx 1 :=
    List.mem_cons_of_mem _ List.mem_cons_self
  obtain ⟨hpart, hspans⟩ := captures_sound hp hrecord hg hvalue
  exact ⟨hp, _, hrecord, hvalue, hpart, hspans (by decide) (by decide)⟩

end Pattern

end PatternAlgebra
