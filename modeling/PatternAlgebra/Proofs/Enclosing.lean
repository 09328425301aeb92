import PatternAlgebra.Proofs.CountedOn
import PatternAlgebra.Proofs.Keys
import PatternAlgebra.Proofs.Soundness

/-!
# A group around a pattern

To capture a whole pattern changes nothing about what it matches. The group around it has the number
one and holds the whole match, and the groups inside keep what they captured under numbers greater by
one. A name for the group has to be new to the pattern; what a name does that the pattern gives to
another group already is not said here.
-/

namespace PatternAlgebra

/-- What groups have captured when one group more stands around them, which holds the whole. -/
def Captures.enclosed (captures : Captures) (whole : Span) : Captures
  | 0 => none
  | 1 => some whole
  | k + 2 => captures (k + 1)

theorem State.captures_countOn_capture (st : State) (start : Nat) :
    ((st.countOn 1).capture 1 start).captures = st.captures.enclosed ⟨start, st.position⟩ := by
  funext i
  match i with
  | 0 => rfl
  | 1 => rfl
  | i + 2 => exact captures_countOn (k := 1) (i + 1)

/-! ## Searching for it -/

namespace Regex

theorem matchAt?_enclosed (s : Subject) (r : Regex) (start : Nat) :
    (capture 1 (r.renumber (· + 1))).matchAt? s start =
      (r.matchAt? s start).map (fun found => (found.1, found.2.enclosed found.1)) := by
  have houtcomes := outcomes_countOn s 1 r (.start start)
  rw [State.countOn_start] at houtcomes
  rw [matchAt?, matchAt?, outcomes, houtcomes, List.map_map, List.head?_map, Option.map_map,
    Option.map_map]
  congr 1
  funext st
  exact Prod.ext rfl (State.captures_countOn_capture st start)

/-- The same is found, and the group around it has captured all of it. -/
theorem search_enclosed (s : Subject) (r : Regex) :
    (capture 1 (r.renumber (· + 1))).search s =
      (r.search s).map (fun found => (found.1, found.2.enclosed found.1)) := by
  rw [search_eq_findSome?, search_eq_findSome?, List.map_findSome?]
  congr 1
  funext start
  exact matchAt?_enclosed s r start

end Regex

namespace Pattern

variable {p : Pattern} {name? : Option GroupName}

/-- A pattern with a group around it, which may have a name. -/
def enclosed (p : Pattern) : Option GroupName → Pattern
  | none => group p
  | some name => namedGroup name p

/-- The name, if there is one, is given to no group of the pattern. -/
def NewName (p : Pattern) (name? : Option GroupName) : Prop :=
  ∀ name ∈ name?, name.text ∉ p.groupNames

theorem newName_none (p : Pattern) : p.NewName none := fun _ hname => nomatch hname

theorem newName_some {name : GroupName} (h : name.text ∉ p.groupNames) : p.NewName (some name) := by
  intro other hother
  obtain rfl := Option.some.inj hother
  exact h

theorem capturing_enclosed (p : Pattern) (name? : Option GroupName) :
    (p.enclosed name?).capturing = ⟨name?, p⟩ :: p.capturing := by
  cases name? <;> rfl

theorem references_enclosed (p : Pattern) (name? : Option GroupName) :
    (p.enclosed name?).references = p.references := by
  cases name? <;> rfl

/-- The pattern is what the group around it captures. -/
theorem mem_capturing_enclosed (p : Pattern) (name? : Option GroupName) :
    (⟨name?, p⟩, 1) ∈ (p.enclosed name?).capturing.zipIdx 1 := by
  rw [capturing_enclosed]
  exact List.mem_cons_self

theorem mem_capturing_enclosed_succ {g : Capturing} {k : Nat} (h : (g, k) ∈ p.capturing.zipIdx 1) :
    (g, k + 1) ∈ (p.enclosed name?).capturing.zipIdx 1 := by
  rw [capturing_enclosed, List.zipIdx_cons]
  exact List.mem_cons_of_mem _ (mem_zipIdx_add h 1)

theorem Consistent.enclosed (hp : p.Consistent) (hnew : p.NewName name?) :
    (p.enclosed name?).Consistent := by
  constructor
  · rw [groupNames, capturing_enclosed]
    cases name? with
    | none => exact hp.distinct
    | some name => exact List.nodup_cons.2 ⟨hnew name rfl, hp.distinct⟩
  · intro name hname
    rw [references_enclosed] at hname
    exact (groupNames_sublist (mem_capturing_enclosed p name?)).subset (hp.declared name hname)

/-- A pattern with a group around it is read as a capture of the pattern, whose own groups are
counted on. -/
theorem Consistent.regex_enclosed (hp : p.Consistent) (hnew : p.NewName name?) :
    (p.enclosed name?).program.regex = .capture 1 (p.program.regex.renumber (· + 1)) := by
  have hbody := renumber_program (hp.enclosed hnew).distinct (mem_capturing_enclosed p name?)
    hp.declared
  rw [hbody]
  cases name? <;> rfl

theorem Consistent.firstMatch_enclosed (hp : p.Consistent) (hnew : p.NewName name?)
    (input : Text) (options : MatchOptions) :
    (p.enclosed name?).program.firstMatch input options =
      (p.program.firstMatch input options).map (fun found =>
        (found.1, found.2.enclosed found.1)) := by
  rw [Program.firstMatch, hp.regex_enclosed hnew, Regex.search_enclosed]
  rfl

/-! ## Answers -/

theorem Consistent.occursIn_enclosed (hp : p.Consistent) (hnew : p.NewName name?)
    (input : Text) (options : MatchOptions) :
    (p.enclosed name?).occursIn (some input) options = p.occursIn (some input) options := by
  rw [(hp.enclosed hnew).occursIn_eq, hp.occursIn_eq, hp.firstMatch_enclosed hnew, Option.isSome_map]

/-- An outcome of the pattern that spans the input is one of the capture, and conversely. -/
theorem Consistent.spans_enclosed (hp : p.Consistent) (hnew : p.NewName name?)
    (input : Text) (options : MatchOptions) :
    (p.enclosed name?).spans (some input) options = p.spans (some input) options := by
  have houtcomes := Regex.outcomes_countOn (.ofText input options) 1 p.program.regex (.start 0)
  rw [State.countOn_start] at houtcomes
  have hspans : ((p.enclosed name?).program.spanning.firstMatch input options).isSome =
      (p.program.spanning.firstMatch input options).isSome := by
    rw [Bool.eq_iff_iff, Program.firstMatch_spanning, Program.firstMatch_spanning,
      hp.regex_enclosed hnew, Regex.outcomes, houtcomes]
    simp only [List.mem_map, exists_exists_and_eq_and]
    rfl
  rw [(hp.enclosed hnew).spans_eq, hp.spans_eq]
  exact congrArg _ hspans

/-! ## Records -/

/-- The record of a match of the pattern. -/
abbrev record (p : Pattern) (subject : Subject) (span : Span) (captures : Captures) : Record :=
  Source.recordOf p.expression p.program subject span captures

/-- What the record of a match with a group around it has in common with that of the match without
one, `p` being the pattern in the group. -/
structure Keeps (p : Pattern) (plain enclosed : Record) : Prop where
  /-- The whole match is the same, and the group around it holds it. -/
  whole : ∃ text, plain.get? (utf16 "match") = some text ∧
    enclosed.get? (utf16 "match") = some text ∧ enclosed.get? (decimalText 0) = some text ∧
    enclosed.get? (decimalText 1) = some text
  /-- The groups inside stand under numbers greater by one. -/
  numbered : ∀ k, k ≠ 0 → enclosed.get? (decimalText (k + 1)) = plain.get? (decimalText k)
  /-- Names stay as they are. -/
  named : ∀ name ∈ p.groupNames, enclosed.get? name = plain.get? name

section Records

variable {subject : Subject} {span : Span} {captures : Captures}

theorem groupCount_enclosed (p : Pattern) (name? : Option GroupName) :
    (p.enclosed name?).program.groupCount = p.program.groupCount + 1 := by
  show (p.enclosed name?).capturing.length = p.capturing.length + 1
  rw [capturing_enclosed, List.length_cons]

theorem get?_enclosed_one (p : Pattern) (name? : Option GroupName) :
    ((p.enclosed name?).record subject span (captures.enclosed span)).get? (decimalText 1) =
      some (subject.slice span) := by
  rw [Source.get?_recordOf_number Nat.one_ne_zero, groupCount_enclosed,
    if_pos (Nat.le_add_left 1 _)]
  rfl

theorem get?_enclosed_succ (p : Pattern) (name? : Option GroupName) {k : Nat} (hk : k ≠ 0) :
    ((p.enclosed name?).record subject span (captures.enclosed span)).get? (decimalText (k + 1)) =
      (p.record subject span captures).get? (decimalText k) := by
  have hcaptures : captures.enclosed span (k + 1) = captures k := by
    obtain ⟨k, rfl⟩ := Nat.exists_eq_succ_of_ne_zero hk
    rfl
  rw [Source.get?_recordOf_number hk, Source.get?_recordOf_number (Nat.add_one_ne_zero k),
    groupCount_enclosed, hcaptures]
  simp only [Nat.add_le_add_iff_right]

theorem Consistent.get?_enclosed_name (hp : p.Consistent) (hnew : p.NewName name?) {name : Text}
    (hname : name ∈ p.groupNames) :
    ((p.enclosed name?).record subject span (captures.enclosed span)).get? name =
      (p.record subject span captures).get? name := by
  by_cases hmatch : name = utf16 "match"
  · rw [hmatch, Source.get?_recordOf_match, Source.get?_recordOf_match]
  · obtain ⟨g, hg, hgiven⟩ := (lookup_namesFrom_iff hp.distinct).1 (lookup_groupNumber hname)
    have hnumber : p.groupNumber name ≠ 0 := by
      have hle := List.le_snd_of_mem_zipIdx hg
      simp only at hle
      omega
    rw [(hp.enclosed hnew).get?_name (mem_capturing_enclosed_succ hg) hgiven hmatch,
      get?_enclosed_succ p name? hnumber, hp.get?_name hg hgiven hmatch]

theorem Consistent.keeps_record (hp : p.Consistent) (hnew : p.NewName name?) :
    p.Keeps (p.record subject span captures)
      ((p.enclosed name?).record subject span (captures.enclosed span)) where
  whole := ⟨subject.slice span, Source.get?_recordOf_match _ _ _ _ _,
    Source.get?_recordOf_match _ _ _ _ _, Source.get?_recordOf_zero _ _ _ _ _,
    get?_enclosed_one p name?⟩
  numbered := fun _ hk => get?_enclosed_succ p name? hk
  named := fun _ hname => hp.get?_enclosed_name hnew hname

end Records

/-- How what is extracted with a pattern, with a group around it and with a group of this name around
it fits together: nothing in all three cases, or three records. -/
inductive Alike (p : Pattern) (name : GroupName) :
    Option Record → Option Record → Option Record → Prop
  | nothing : Alike p name none none none
  | records {plain grouped named : Record} : p.Keeps plain grouped → p.Keeps plain named →
    (name.text ≠ utf16 "match" → named.get? name.text = plain.get? (utf16 "match")) →
    Alike p name (some plain) (some grouped) (some named)

theorem Consistent.alike_extract (hp : p.Consistent) {name : GroupName}
    (hname : name.text ∉ p.groupNames) (input : Text) (options : MatchOptions) :
    ∃ plain grouped named, p.extract (some input) options = .ok plain ∧
      (group p).extract (some input) options = .ok grouped ∧
      (namedGroup name p).extract (some input) options = .ok named ∧
      p.Alike name plain grouped named := by
  have hnone := newName_none p
  have hsome := newName_some hname
  refine ⟨_, _, _, hp.extract_eq input options, (hp.enclosed hnone).extract_eq input options,
    (hp.enclosed hsome).extract_eq input options, ?_⟩
  rw [hp.firstMatch_enclosed hnone, hp.firstMatch_enclosed hsome]
  cases p.program.firstMatch input options with
  | none => exact .nothing
  | some found =>
    apply Alike.records (hp.keeps_record hnone) (hp.keeps_record hsome)
    intro hmatch
    rw [(hp.enclosed hsome).get?_name (mem_capturing_enclosed p (some name)) rfl hmatch,
      Source.get?_recordOf_match]
    exact get?_enclosed_one p (some name)

/-- To capture all of a consistent pattern, under a new name or under none, leaves every answer about
every input as it is, but for the group that is added and the numbers behind it. -/
theorem enclosing_transparent (hp : p.Consistent) {name : GroupName}
    (hname : name.text ∉ p.groupNames) (input : Option Text) (options : MatchOptions) :
    (∃ found, p.occursIn input options = .ok found ∧
        (group p).occursIn input options = .ok found ∧
        (namedGroup name p).occursIn input options = .ok found) ∧
      (∃ spanned, p.spans input options = .ok spanned ∧
        (group p).spans input options = .ok spanned ∧
        (namedGroup name p).spans input options = .ok spanned) ∧
      ∃ plain grouped named, p.extract input options = .ok plain ∧
        (group p).extract input options = .ok grouped ∧
        (namedGroup name p).extract input options = .ok named ∧
        p.Alike name plain grouped named := by
  have hnone := newName_none p
  have hsome := newName_some hname
  cases input with
  | none =>
    exact ⟨⟨false, rfl, rfl, rfl⟩, ⟨false, rfl, rfl, rfl⟩, none, none, none, rfl, rfl, rfl, .nothing⟩
  | some input =>
    have hoccurs := hp.occursIn_eq input options
    have hspans := hp.spans_eq input options
    exact ⟨⟨_, hoccurs, (hp.occursIn_enclosed hnone input options).trans hoccurs,
        (hp.occursIn_enclosed hsome input options).trans hoccurs⟩,
      ⟨_, hspans, (hp.spans_enclosed hnone input options).trans hspans,
        (hp.spans_enclosed hsome input options).trans hspans⟩,
      hp.alike_extract hname input options⟩

/-- Rounds with two groups each, the second of which is repeated by a reference. -/
def doubling : Pattern :=
  repeated
    (sequence (repeated (group (either (utf16 "x") [utf16 "xy", []])) .optional)
      [namedGroup ⟨utf16 "unit", by decide⟩ anyUnit, backreference ⟨utf16 "unit", by decide⟩])
    .oneOrMore

/-- A name that is new to `doubling`. -/
def outerName : GroupName := ⟨utf16 "outer", by decide⟩

theorem doubling_enclosed :
    doubling.Consistent ∧ outerName.text ∉ doubling.groupNames ∧ ∃ plain grouped named,
      doubling.extract (some (utf16 "-xaaxybB")) ⟨true, false⟩ = .ok (some plain) ∧
        (group doubling).extract (some (utf16 "-xaaxybB")) ⟨true, false⟩ = .ok (some grouped) ∧
        (namedGroup outerName doubling).extract (some (utf16 "-xaaxybB")) ⟨true, false⟩ =
          .ok (some named) ∧
        doubling.Keeps plain grouped ∧ doubling.Keeps plain named ∧
        named.get? (utf16 "outer") = plain.get? (utf16 "match") := by
  have hp : doubling.Consistent := ⟨by decide, by decide⟩
  have hname : outerName.text ∉ doubling.groupNames := by decide
  obtain ⟨-, -, plain, grouped, named, hplain, hgrouped, hnamed, halike⟩ :=
    enclosing_transparent hp hname (some (utf16 "-xaaxybB")) ⟨true, false⟩
  cases halike with
  | nothing =>
    have hsome : (doubling.program.firstMatch (utf16 "-xaaxybB") ⟨true, false⟩).isSome = true := by
      decide +kernel
    rw [hp.extract_eq] at hplain
    rw [Option.map_eq_none_iff.1 (Except.ok.inj hplain)] at hsome
    contradiction
  | records hkeeps hkeepsNamed houter =>
    exact ⟨hp, hname, _, _, _, hplain, hgrouped, hnamed, hkeeps, hkeepsNamed, houter (by decide)⟩

end Pattern

end PatternAlgebra
