import PatternAlgebra.Matching.Basic
import PatternAlgebra.Proofs.DeclaredNames

/-!
# What the record of a match holds

A record holds what was put into it last under each key. For the record of a match that is the whole
match under `0` and `match`, and what the groups captured under their numbers and under the names
that the text declares (`Source.get?_recordOf`). Whether such a name has a group is left open.
-/

namespace PatternAlgebra

namespace Record

theorem get?_putAll {r : Record} {entries : List (Text × Text)} {key value : Text}
    (h : (r.putAll entries).get? key = some value) :
    (key, value) ∈ entries ∨ r.get? key = some value := by
  induction entries generalizing r with
  | nil => exact .inr h
  | cons entry entries ih =>
    rcases ih h with hmem | hget
    · exact .inl (List.mem_cons_of_mem entry hmem)
    · rw [get?_put] at hget
      split at hget
      next hkey =>
        obtain rfl := Option.some.inj hget
        exact .inl (hkey ▸ List.mem_cons_self)
      · exact .inr hget

theorem get?_putAll_concat (r : Record) (entries : List (Text × Text)) (key value : Text) :
    (r.putAll (entries ++ [(key, value)])).get? key = some value := by
  rw [putAll, List.foldl_append]
  show Record.get? (Record.put _ key value) key = _
  rw [get?_put, if_pos rfl]

theorem get?_empty (key : Text) : empty.get? key = none := rfl

/-- What has been put under a key once stays there, if nothing else is put under it. -/
theorem get?_putAll_of_mem {r : Record} {entries : List (Text × Text)} {key value : Text}
    (hkept : r.get? key = some value ∨ (key, value) ∈ entries)
    (hunique : ∀ other, (key, other) ∈ entries → other = value) :
    (r.putAll entries).get? key = some value := by
  induction entries generalizing r with
  | nil => exact hkept.resolve_right (fun hmem => nomatch hmem)
  | cons entry entries ih =>
    refine ih ?_ (fun other hother => hunique other (List.mem_cons_of_mem entry hother))
    show (r.put entry.1 entry.2).get? key = some value ∨ _
    rw [get?_put]
    by_cases hkey : key = entry.1
    · have hvalue : entry.2 = value := hunique entry.2 (hkey ▸ List.mem_cons_self)
      rw [if_pos hkey, hvalue]
      exact .inl rfl
    · rw [if_neg hkey]
      rcases hkept with hget | hmem
      · exact .inl hget
      · rcases List.mem_cons.1 hmem with rfl | hmem
        · exact absurd rfl hkey
        · exact .inr hmem

/-- Where each key has one text only, a record holds what was put into it. -/
theorem get?_putAll_eq_some {entries : List (Text × Text)} {key value : Text}
    (hunique : ∀ v w, (key, v) ∈ entries → (key, w) ∈ entries → v = w) :
    (empty.putAll entries).get? key = some value ↔ (key, value) ∈ entries := by
  constructor
  · intro hget
    refine (get?_putAll hget).resolve_right ?_
    rw [get?_empty]
    exact fun hnone => nomatch hnone
  · exact fun hmem => get?_putAll_of_mem (.inr hmem) (fun other hother => hunique _ _ hother hmem)

end Record

/-! ## Numbers and names -/

theorem decimalText_inj {m n : Nat} (h : decimalText m = decimalText n) : m = n := by
  have hm : number? (decimalText m ++ []) = some (m, []) := number?_decimalText m rfl
  rw [h, number?_decimalText n rfl] at hm
  exact (Prod.mk.inj (Option.some.inj hm)).1.symm

theorem not_isDigit_of_isLetter {u : CodeUnit} (h : Text.isLetter u = true) :
    Text.isDigit u = false := by
  rw [Text.isDigit, Bool.and_eq_false_iff, decide_eq_false_iff_not, decide_eq_false_iff_not]
  simp only [Text.isLetter, Bool.or_eq_true, Bool.and_eq_true, decide_eq_true_eq,
    UInt16.le_iff_toNat_le] at h ⊢
  have h41 : UInt16.toNat 0x41 = 0x41 := rfl
  have h61 : UInt16.toNat 0x61 = 0x61 := rfl
  have h39 : UInt16.toNat 0x39 = 0x39 := rfl
  omega

theorem decimalText_ne_of_isGroupName {name : Text} (h : isGroupName name = true) (n : Nat) :
    decimalText n ≠ name := by
  obtain ⟨u, t, htext, hdigit⟩ := decimalText_eq_cons n
  rintro rfl
  rw [htext, isGroupName, Bool.and_eq_true] at h
  rw [not_isDigit_of_isLetter h.1] at hdigit
  contradiction

/-! ## The record of a match -/

namespace Source

variable {source : Text} {p : Program} {subject : Subject} {span : Span} {captures : Captures}

/-- The record holds the whole match under `match`. -/
theorem get?_recordOf_match (source : Text) (p : Program) (subject : Subject) (span : Span)
    (captures : Captures) :
    (recordOf source p subject span captures).get? (utf16 "match") = some (subject.slice span) := by
  have hsplit : ∀ (entries : List (Text × Text)) (a b : Text × Text),
      entries ++ [a, b] = entries ++ [a] ++ [b] := by simp
  rw [recordOf]
  simp only [hsplit]
  exact Record.get?_putAll_concat _ _ _ _

/-- What the record of a match has under a key other than `match`: the whole match, or what a group
has captured, under its number or under a name that the text declares. -/
inductive Entry (source : Text) (p : Program) (subject : Subject) (span : Span)
    (captures : Captures) : Text → Text → Prop
  | whole : Entry source p subject span captures (decimalText 0) (subject.slice span)
  | numbered {k : Nat} {captured : Span} : k ≠ 0 → k ≤ p.groupCount → captures k = some captured →
    Entry source p subject span captures (decimalText k) (subject.slice captured)
  | named {name : Text} {k : Nat} {captured : Span} : name ∈ NameScan.declarations source →
    p.names.lookup name = some k → captures k = some captured →
    Entry source p subject span captures name (subject.slice captured)

namespace Entry

/-- Under a number stands what the group of that number captured. -/
theorem of_number {k : Nat} {value : Text} (hk : k ≠ 0)
    (h : Entry source p subject span captures (decimalText k) value) :
    k ≤ p.groupCount ∧ ∃ captured, captures k = some captured ∧ value = subject.slice captured := by
  generalize hkey : decimalText k = key at h
  cases h with
  | whole => exact absurd (decimalText_inj hkey) hk
  | numbered _ hle hcaptured =>
    obtain rfl := decimalText_inj hkey
    exact ⟨hle, _, hcaptured, rfl⟩
  | named hname =>
    have hgroup := isGroupName_of_mem_declarations hname
    exact absurd hkey (decimalText_ne_of_isGroupName hgroup k)

/-- Under a name stands what the group that the name leads to captured. -/
theorem of_name {name value : Text} (hname : isGroupName name = true)
    (h : Entry source p subject span captures name value) :
    ∃ k captured, p.names.lookup name = some k ∧ captures k = some captured ∧
      value = subject.slice captured := by
  generalize hkey : name = key at h
  cases h with
  | whole => exact absurd hkey.symm (decimalText_ne_of_isGroupName hname 0)
  | @numbered k => exact absurd hkey.symm (decimalText_ne_of_isGroupName hname k)
  | named _ hlookup hcaptured => exact ⟨_, _, hkey ▸ hlookup, hcaptured, rfl⟩

/-- No key has two texts. -/
theorem unique {key v w : Text} (hv : Entry source p subject span captures key v)
    (hw : Entry source p subject span captures key w) : v = w := by
  cases hv with
  | whole =>
    generalize hkey : decimalText 0 = key at hw
    cases hw with
    | whole => rfl
    | numbered hk => exact absurd (decimalText_inj hkey).symm hk
    | named hname =>
      exact absurd hkey (decimalText_ne_of_isGroupName (isGroupName_of_mem_declarations hname) 0)
  | numbered hk _ hcaptured =>
    obtain ⟨-, captured, hcaptured', rfl⟩ := hw.of_number hk
    rw [Option.some.inj (hcaptured.symm.trans hcaptured')]
  | named hname hlookup hcaptured =>
    obtain ⟨k, captured, hlookup', hcaptured', rfl⟩ :=
      hw.of_name (isGroupName_of_mem_declarations hname)
    obtain rfl := Option.some.inj (hlookup.symm.trans hlookup')
    rw [Option.some.inj (hcaptured.symm.trans hcaptured')]

end Entry

/-- The record of a match has just these entries, but for the whole match under `match`. -/
theorem get?_recordOf {key value : Text} (hkey : key ≠ utf16 "match") :
    (recordOf source p subject span captures).get? key = some value ↔
      Entry source p subject span captures key value := by
  have hmem : ∀ value, (key, value) ∈
      (NameScan.declaredNames source).filterMap (fun name =>
        ((p.names.lookup name).bind (fun k => (captures k).map subject.slice)).map
          (fun value => (name, value))) ++
      (List.range p.groupCount).filterMap (fun i =>
        ((captures (i + 1)).map subject.slice).map (fun value => (decimalText (i + 1), value))) ++
      [(decimalText 0, subject.slice span), (utf16 "match", subject.slice span)] ↔
        Entry source p subject span captures key value := by
    intro value
    constructor
    · intro hmem
      rcases List.mem_append.1 hmem with hmem | hmem
      · rcases List.mem_append.1 hmem with hmem | hmem
        · obtain ⟨name, hname, hentry⟩ := List.mem_filterMap.1 hmem
          obtain ⟨text, htext, hpair⟩ := Option.map_eq_some_iff.1 hentry
          obtain ⟨k, hlookup, hslice⟩ := Option.bind_eq_some_iff.1 htext
          obtain ⟨captured, hcaptured, rfl⟩ := Option.map_eq_some_iff.1 hslice
          obtain ⟨rfl, rfl⟩ := Prod.mk.inj hpair
          exact .named (mem_firstOccurrences.1 hname) hlookup hcaptured
        · obtain ⟨i, hi, hentry⟩ := List.mem_filterMap.1 hmem
          obtain ⟨text, htext, hpair⟩ := Option.map_eq_some_iff.1 hentry
          obtain ⟨captured, hcaptured, rfl⟩ := Option.map_eq_some_iff.1 htext
          obtain ⟨rfl, rfl⟩ := Prod.mk.inj hpair
          exact .numbered (Nat.succ_ne_zero i) (List.mem_range.1 hi) hcaptured
      · rcases List.mem_cons.1 hmem with hpair | hmem
        · obtain ⟨rfl, rfl⟩ := Prod.mk.inj hpair
          exact .whole
        · exact absurd (Prod.mk.inj (List.mem_singleton.1 hmem)).1 hkey
    · intro hentry
      cases hentry with
      | whole => exact List.mem_append_right _ List.mem_cons_self
      | @numbered k captured hk hle hcaptured =>
        obtain ⟨i, rfl⟩ := Nat.exists_eq_succ_of_ne_zero hk
        refine List.mem_append_left _ (List.mem_append_right _ (List.mem_filterMap.2 ⟨i, ?_, ?_⟩))
        · exact List.mem_range.2 hle
        · rw [show captures (i + 1) = some captured from hcaptured]
          rfl
      | @named _ k captured hname hlookup hcaptured =>
        refine List.mem_append_left _ (List.mem_append_left _ (List.mem_filterMap.2 ⟨key, ?_, ?_⟩))
        · exact mem_firstOccurrences.2 hname
        · rw [hlookup, Option.bind_some, hcaptured]
          rfl
  rw [← hmem value]
  exact Record.get?_putAll_eq_some (fun v w hv hw => ((hmem v).1 hv).unique ((hmem w).1 hw))

/-- The whole match stands under `0` as well. -/
theorem get?_recordOf_zero (source : Text) (p : Program) (subject : Subject) (span : Span)
    (captures : Captures) :
    (recordOf source p subject span captures).get? (decimalText 0) = some (subject.slice span) :=
  (get?_recordOf (decimalText_ne_of_isGroupName (by decide) 0)).2 .whole

/-- Under the number of a group stands what it has captured, and nothing if it took no part. -/
theorem get?_recordOf_number {k : Nat} (hk : k ≠ 0) :
    (recordOf source p subject span captures).get? (decimalText k) =
      if k ≤ p.groupCount then (captures k).map subject.slice else none := by
  refine Option.ext (fun value => ?_)
  rw [get?_recordOf (decimalText_ne_of_isGroupName (by decide) k), Option.ite_none_right_eq_some,
    Option.map_eq_some_iff]
  constructor
  · intro hentry
    obtain ⟨hle, captured, hcaptured, rfl⟩ := hentry.of_number hk
    exact ⟨hle, captured, hcaptured, rfl⟩
  · rintro ⟨hle, captured, hcaptured, rfl⟩
    exact .numbered hk hle hcaptured

/-- Under a number there is what the group of that number captured. -/
theorem get?_recordOf_decimalText {k : Nat} (hk : k ≠ 0) {value : Text}
    (h : (recordOf source p subject span captures).get? (decimalText k) = some value) :
    ∃ captured, captures k = some captured ∧ value = subject.slice captured :=
  (((get?_recordOf (decimalText_ne_of_isGroupName (by decide) k)).1 h).of_number hk).2

end Source

end PatternAlgebra
