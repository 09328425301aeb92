import PatternAlgebra.Proofs.Compilation
import PatternAlgebra.Proofs.Entries
import PatternAlgebra.Proofs.InnerGroups

/-!
# The keys of a record

The record of a match has the whole match under `0` and `match`, and besides it what each group that
took part has captured, under its number and its name. It has nothing else. Names are looked for in
the text of the pattern, where a class may spell the opening of a group; that changes nothing. Which
groups take part is up to the match and not said here.
-/

namespace PatternAlgebra

namespace Pattern

variable {p : Pattern}

/-- The names of a pattern lead to the groups that have them. -/
theorem lookup_namesFrom_iff (hdistinct : p.groupNames.Nodup) {name : Text} {k : Nat} :
    (p.namesFrom 0).lookup name = some k ↔
      ∃ g, (g, k) ∈ p.capturing.zipIdx 1 ∧ g.name.map (·.text) = some name := by
  have hmem : (name, k) ∈ p.namesFrom 0 ↔
      ∃ g, (g, k) ∈ p.capturing.zipIdx 1 ∧ g.name.map (·.text) = some name := by
    rw [namesFrom, List.mem_filterMap]
    constructor
    · rintro ⟨⟨g, number⟩, hg, hentry⟩
      obtain ⟨given, hgiven, hpair⟩ := Option.map_eq_some_iff.1 hentry
      obtain ⟨rfl, rfl⟩ := Prod.mk.inj hpair
      exact ⟨g, hg, by rw [hgiven]; rfl⟩
    · rintro ⟨g, hg, hname⟩
      obtain ⟨given, hgiven, rfl⟩ := Option.map_eq_some_iff.1 hname
      exact ⟨(g, k), hg, by rw [numberedName, hgiven]; rfl⟩
  rw [← hmem]
  constructor
  · intro hlookup
    obtain ⟨before, after, hnames, -⟩ := List.lookup_eq_some_iff.1 hlookup
    rw [hnames]
    exact List.mem_append_right _ List.mem_cons_self
  · refine lookup_of_mem_of_nodup ?_
    rw [map_fst_namesFrom]
    exact hdistinct

theorem mem_groupNames_of_mem_zipIdx {g : Capturing} {k : Nat} {name : Text}
    (hg : (g, k) ∈ p.capturing.zipIdx 1) (hname : g.name.map (·.text) = some name) :
    name ∈ p.groupNames :=
  List.mem_filterMap.2 ⟨g, List.fst_mem_of_mem_zipIdx hg, hname⟩

/-- What a record of a match of the pattern holds, given what its groups have captured. A group that
has captured nothing did not take part. -/
structure Records (p : Pattern) (subject : Subject) (span : Span) (captures : Captures)
    (record : Record) : Prop where
  /-- The whole match stands under `0` and under `match`. -/
  whole : record.get? (decimalText 0) = some (subject.slice span) ∧
    record.get? (utf16 "match") = some (subject.slice span)
  /-- Under other keys there are the groups that took part, by number and by name, and no others. -/
  others : ∀ key value, key ≠ decimalText 0 → key ≠ utf16 "match" →
    (record.get? key = some value ↔
      ∃ g k captured, (g, k) ∈ p.capturing.zipIdx 1 ∧ captures k = some captured ∧
        value = subject.slice captured ∧
        (key = decimalText k ∨ g.name.map (·.text) = some key))
  /-- A name and the number of its group lead to the same text, or both to none. -/
  named : ∀ g k name, (g, k) ∈ p.capturing.zipIdx 1 → g.name.map (·.text) = some name →
    name ≠ utf16 "match" → record.get? name = record.get? (decimalText k)
  /-- A name that is only spelled in the text of the pattern is no key. -/
  spelled : ∀ name ∈ NameScan.declaredNames p.expression, name ∉ p.groupNames →
    name ≠ utf16 "match" → record.get? name = none

theorem Consistent.entry_iff (hp : p.Consistent) {subject : Subject} {span : Span}
    {captures : Captures} {key value : Text} (hzero : key ≠ decimalText 0) :
    Source.Entry p.expression p.program subject span captures key value ↔
      ∃ g k captured, (g, k) ∈ p.capturing.zipIdx 1 ∧ captures k = some captured ∧
        value = subject.slice captured ∧
        (key = decimalText k ∨ g.name.map (·.text) = some key) := by
  constructor
  · intro hentry
    cases hentry with
    | whole => contradiction
    | @numbered k captured hk hle hcaptured =>
      obtain ⟨i, rfl⟩ := Nat.exists_eq_succ_of_ne_zero hk
      have hi : i < p.capturing.length := hle
      refine ⟨p.capturing[i], i + 1, captured, ?_, hcaptured, rfl, .inl rfl⟩
      rw [List.mk_mem_zipIdx_iff_le_and_getElem?_sub]
      exact ⟨Nat.le_add_left 1 i, List.getElem?_eq_getElem hi⟩
    | @named _ k captured hname hlookup hcaptured =>
      obtain ⟨g, hg, hgiven⟩ := (lookup_namesFrom_iff hp.distinct).1 hlookup
      exact ⟨g, k, captured, hg, hcaptured, rfl, .inr hgiven⟩
  · rintro ⟨g, k, captured, hg, hcaptured, rfl, rfl | hgiven⟩
    · have hbounds := List.mk_mem_zipIdx_iff_le_and_getElem?_sub.1 hg
      have hlt := (List.getElem?_eq_some_iff.1 hbounds.2).1
      refine .numbered (by omega) ?_ hcaptured
      show k ≤ p.capturing.length
      omega
    · exact .named (mem_declarations_of_mem_groupNames (mem_groupNames_of_mem_zipIdx hg hgiven))
        ((lookup_namesFrom_iff hp.distinct).2 ⟨g, hg, hgiven⟩) hcaptured

/-- Under a name stands the same as under the number of its group. -/
theorem Consistent.get?_name (hp : p.Consistent) {subject : Subject} {span : Span}
    {captures : Captures} {g : Capturing} {k : Nat} {name : Text}
    (hg : (g, k) ∈ p.capturing.zipIdx 1) (hgiven : g.name.map (·.text) = some name)
    (hname : name ≠ utf16 "match") :
    (Source.recordOf p.expression p.program subject span captures).get? name =
      (Source.recordOf p.expression p.program subject span captures).get? (decimalText k) := by
  obtain ⟨hk, hindex⟩ := List.mk_mem_zipIdx_iff_le_and_getElem?_sub.1 hg
  have hlt := (List.getElem?_eq_some_iff.1 hindex).1
  have hmem : name ∈ p.groupNames := mem_groupNames_of_mem_zipIdx hg hgiven
  have hlookup : p.program.names.lookup name = some k :=
    (lookup_namesFrom_iff hp.distinct).2 ⟨g, hg, hgiven⟩
  have hnumber : decimalText k ≠ utf16 "match" := decimalText_ne_of_isGroupName (by decide) k
  refine Option.ext (fun value => ?_)
  rw [Source.get?_recordOf hname, Source.get?_recordOf hnumber]
  constructor
  · intro hentry
    obtain ⟨number, captured, hlookup', hcaptured, rfl⟩ :=
      hentry.of_name (isGroupName_of_mem_groupNames hmem)
    obtain rfl := Option.some.inj (hlookup.symm.trans hlookup')
    have hcount : k ≤ p.program.groupCount := by
      show k ≤ p.capturing.length
      omega
    exact .numbered (by omega) hcount hcaptured
  · intro hentry
    obtain ⟨-, captured, hcaptured, rfl⟩ := hentry.of_number (by omega)
    exact .named (mem_declarations_of_mem_groupNames hmem) hlookup hcaptured

/-- A name that no group has is no key. -/
theorem Consistent.get?_spelled (hp : p.Consistent) {subject : Subject} {span : Span}
    {captures : Captures} {name : Text} (hspelled : name ∈ NameScan.declarations p.expression)
    (hnone : name ∉ p.groupNames) (hname : name ≠ utf16 "match") :
    (Source.recordOf p.expression p.program subject span captures).get? name = none := by
  rw [Option.eq_none_iff_forall_ne_some]
  intro value hvalue
  obtain ⟨k, captured, hlookup, -⟩ :=
    ((Source.get?_recordOf hname).1 hvalue).of_name (isGroupName_of_mem_declarations hspelled)
  obtain ⟨g, hg, hgiven⟩ := (lookup_namesFrom_iff hp.distinct).1 hlookup
  exact hnone (mem_groupNames_of_mem_zipIdx hg hgiven)

/-- A record of a consistent pattern holds the whole match and what the groups that took part have
captured, under the right keys. -/
theorem keys_exact (hp : p.Consistent) {input : Text} {options : MatchOptions} {record : Record}
    (hrecord : p.extract (some input) options = .ok (some record)) :
    ∃ program span captures, compile .anywhere p.expression = .ok program ∧
      program.firstMatch input options = some (span, captures) ∧
      p.Records (.ofText input options) span captures record := by
  rw [hp.extract_eq] at hrecord
  obtain ⟨⟨span, captures⟩, hfound, rfl⟩ := Option.map_eq_some_iff.1 (Except.ok.inj hrecord)
  refine ⟨p.program, span, captures, hp.compile_anywhere, hfound, ?_⟩
  have hzero : decimalText 0 ≠ utf16 "match" := decimalText_ne_of_isGroupName (by decide) 0
  constructor
  · exact ⟨(Source.get?_recordOf hzero).2 .whole, Source.get?_recordOf_match _ _ _ _ _⟩
  · intro key value hnumber hname
    rw [Source.get?_recordOf hname]
    exact hp.entry_iff hnumber
  · intro g k name hg hgiven hname
    exact hp.get?_name hg hgiven hname
  · intro name hspelled hnone hname
    exact hp.get?_spelled (mem_firstOccurrences.1 hspelled) hnone hname

/-- A group that may be left out, a class that spells the opening of a group, and a group of the
name `match` with a group in it. -/
def keyed : Pattern :=
  sequence (repeated (namedGroup ⟨utf16 "left", by decide⟩ (literal (utf16 "x"))) .optional)
    [charClass false (utf16 "(?<z>"),
      namedGroup ⟨utf16 "match", by decide⟩ (group (literal (utf16 "ab")))]

theorem keyed_keys_exact :
    keyed.Consistent ∧ ∃ record, keyed.extract (some (utf16 "-zab")) {} = .ok (some record) ∧
      ∃ program span captures, compile .anywhere keyed.expression = .ok program ∧
        program.firstMatch (utf16 "-zab") {} = some (span, captures) ∧
        keyed.Records (.ofText (utf16 "-zab") {}) span captures record := by
  have hp : keyed.Consistent := ⟨by decide, by decide⟩
  have hsome : (keyed.program.firstMatch (utf16 "-zab") {}).isSome = true := by decide +kernel
  obtain ⟨found, hfound⟩ := Option.isSome_iff_exists.1 hsome
  have hrecord := hp.extract_eq (utf16 "-zab") {}
  rw [hfound] at hrecord
  exact ⟨hp, _, hrecord, keys_exact hp hrecord⟩

end Pattern

end PatternAlgebra
