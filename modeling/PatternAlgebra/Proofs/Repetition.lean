import PatternAlgebra.Proofs.Compilation
import PatternAlgebra.Proofs.Meaning
import PatternAlgebra.Proofs.Scanning
import PatternAlgebra.Proofs.Search

/-!
# Repetitions in other words

A repetition with a sign of its own puts a group around what it repeats; one with counts does so only
where a textual test asks for it. Where they mean the same counts they give the same answers
(`repetitions_agree`). Counts from `2 ^ 53` on are left out, and so is text between square brackets
that is not a class of units: there the counts may apply to the end of the text only.
-/

namespace PatternAlgebra

/-- The count that a double is. -/
theorem Count.read_of_toNat {d : Double} {n : Nat} (h : d.toNat? = some n) (role : CountRole) :
    Count.read role d = .ok ⟨d, n, h⟩ := by
  have hcount : ofDouble? d = some ⟨d, n, h⟩ := ofDouble?_number ⟨d, n, h⟩
  rw [read, hcount]

theorem Bounds.read_of_toNat {d e : Double} {m n : Nat} (hd : d.toNat? = some m)
    (he : e.toNat? = some n) (hle : m ≤ n) :
    Bounds.read d e = .ok ⟨⟨d, m, hd⟩, ⟨e, n, he⟩, hle⟩ := by
  have hleast : Count.ofDouble? d = some ⟨d, m, hd⟩ := Count.ofDouble?_number ⟨d, m, hd⟩
  have hmost : Count.ofDouble? e = some ⟨e, n, he⟩ := Count.ofDouble?_number ⟨e, n, he⟩
  rw [read, hleast, hmost]
  exact dif_pos hle

namespace Pattern

variable {p q : Pattern}

/-- Every question about every input has an answer, the same for both patterns. What is extracted is
the same as a whole, with all that the groups have captured. -/
structure SameAnswers (p q : Pattern) : Prop where
  occursIn : ∀ input options, ∃ found,
    p.occursIn input options = .ok found ∧ q.occursIn input options = .ok found
  spans : ∀ input options, ∃ found,
    p.spans input options = .ok found ∧ q.spans input options = .ok found
  extract : ∀ input options, ∃ record,
    p.extract input options = .ok record ∧ q.extract input options = .ok record

/-- The answers depend on the first answers of the outcomes of what the text is read as, on the groups,
and on the names that a scan of the text comes upon. -/
theorem Consistent.sameAnswers_of_sameFirst (hp : p.Consistent) (hq : q.Consistent)
    (houtcomes : ∀ s st, SameFirst (p.program.regex.outcomes s st) (q.program.regex.outcomes s st))
    (hgroups : p.capturing = q.capturing) (hscanned : p.scannedNames = q.scannedNames) :
    SameAnswers p q := by
  have hnames : p.namesFrom 0 = q.namesFrom 0 := by
    rw [namesFrom, namesFrom, hgroups]
  have hcount : p.groupCount = q.groupCount := congrArg List.length hgroups
  have hfirst : ∀ input options,
      p.program.firstMatch input options = q.program.firstMatch input options :=
    fun input options => Regex.search_of_sameFirst rfl (houtcomes _)
  have hspanning : ∀ input options,
      p.spanningProgram.firstMatch input options = q.spanningProgram.firstMatch input options := by
    intro input options
    refine Regex.search_of_sameFirst rfl (fun st => ?_)
    rw [spanningProgram, spanningProgram, Regex.outcomes_sequenceOf_cons,
      Regex.outcomes_sequenceOf_cons]
    apply SameFirst.flatMap (.refl _)
    intro mid _
    rw [Regex.outcomes_sequenceOf_cons, Regex.outcomes_sequenceOf_cons]
    exact (houtcomes _ mid).flatMap (fun _ _ => .refl _)
  have hdeclared : NameScan.declaredNames p.expression = NameScan.declaredNames q.expression := by
    rw [NameScan.declaredNames, NameScan.declaredNames, declarations_expression,
      declarations_expression, hscanned]
  constructor
  · intro input options
    cases input with
    | none => exact ⟨false, rfl, rfl⟩
    | some input =>
      rw [hp.occursIn_eq, hq.occursIn_eq, hfirst]
      exact ⟨_, rfl, rfl⟩
  · intro input options
    cases input with
    | none => exact ⟨false, rfl, rfl⟩
    | some input =>
      rw [hp.spans_eq, hq.spans_eq, hspanning]
      exact ⟨_, rfl, rfl⟩
  · intro input options
    cases input with
    | none => exact ⟨none, rfl, rfl⟩
    | some input =>
      have hrecord : Source.recordOf p.expression p.program (.ofText input options) =
          Source.recordOf q.expression q.program (.ofText input options) := by
        funext span captures
        rw [Source.recordOf, Source.recordOf, hdeclared, program, program, hnames, hcount]
      rw [hp.extract_eq, hq.extract_eq, hfirst, hrecord]
      exact ⟨_, rfl, rfl⟩

/-- Patterns that are read as expressions with the same outcomes give the same answers. -/
theorem Consistent.sameAnswers_of_outcomes (hp : p.Consistent) (hq : q.Consistent)
    (houtcomes : ∀ s, p.program.regex.outcomes s = q.program.regex.outcomes s)
    (hgroups : p.capturing = q.capturing) (hscanned : p.scannedNames = q.scannedNames) :
    SameAnswers p q :=
  hp.sameAnswers_of_sameFirst hq (fun s st => .of_eq (congrFun (houtcomes s) st)) hgroups hscanned

/-- Patterns that are read as the same items have the same outcomes. -/
theorem Consistent.sameAnswers (hp : p.Consistent) (hq : q.Consistent)
    (hitems : p.readItems = q.readItems) (hgroups : p.capturing = q.capturing)
    (hscanned : p.scannedNames = q.scannedNames) : SameAnswers p q := by
  refine hp.sameAnswers_of_outcomes hq (fun s => ?_) hgroups hscanned
  rw [program, program, hitems]

/-! ## Repeating a pattern -/

theorem Consistent.repeated (hp : p.Consistent) (q : Quantifier) : (repeated p q).Consistent :=
  ⟨hp.distinct, hp.declared⟩

/-- Text between square brackets is that of a class of units. -/
def BracketsClass (p : Pattern) : Prop :=
  p.expression.head? = some openBracket → p.expression.getLast? = some closeBracket →
    p.isClass = true

/-- A repetition is read as one loop around all that the pattern is read as. -/
theorem Consistent.readItems_repeated (hp : p.Consistent) (hclass : p.BracketsClass)
    {q : Quantifier} (hexact : ∀ n ∈ q.counts, n < 2 ^ 53) :
    (Pattern.repeated p q).readItems =
      [.loop (Regex.sequenceOf p.readItems) q.least q.most?] := by
  apply Quantifier.asRead_eq_asMeant hexact
  intro hbare
  rw [Quantifier.groups, Bool.or_eq_false_iff] at hbare
  apply hp.readItems_of_atomTokens
  apply atomTokens_of_not_needsGrouping hp.refersByGroupNames _ hbare.2
  exact fun hfirst hlast => ⟨p, hclass hfirst hlast, rfl⟩

/-- Of two ways to write the same counts neither makes a difference. -/
theorem Consistent.sameAnswers_repeated (hp : p.Consistent) (hclass : p.BracketsClass)
    {q q' : Quantifier} (hleast : q.least = q'.least) (hmost : q.most? = q'.most?)
    (hexact : ∀ n ∈ q.counts, n < 2 ^ 53) :
    SameAnswers (Pattern.repeated p q) (Pattern.repeated p q') := by
  have hcounts : q.counts = q'.counts := by
    rw [Quantifier.counts, Quantifier.counts, hleast, hmost]
  refine (hp.repeated q).sameAnswers (hp.repeated q') ?_ rfl rfl
  rw [hp.readItems_repeated hclass hexact, hp.readItems_repeated hclass (hcounts ▸ hexact), hleast,
    hmost]

theorem exactly_of_toNat (p : Pattern) {d : Double} {n : Nat} (h : d.toNat? = some n) :
    p.exactly d = .ok (Pattern.repeated p (.exactly ⟨d, n, h⟩)) := by
  rw [exactly, Count.read_of_toNat h]
  rfl

theorem atLeast_of_toNat (p : Pattern) {d : Double} {n : Nat} (h : d.toNat? = some n) :
    p.atLeast d = .ok (Pattern.repeated p (.atLeast ⟨d, n, h⟩)) := by
  rw [atLeast, Count.read_of_toNat h]
  rfl

theorem between_of_toNat (p : Pattern) {d e : Double} {m n : Nat} (hd : d.toNat? = some m)
    (he : e.toNat? = some n) (hle : m ≤ n) :
    p.between d e = .ok (Pattern.repeated p (.between ⟨⟨d, m, hd⟩, ⟨e, n, he⟩, hle⟩)) := by
  rw [between, Bounds.read_of_toNat hd he hle]
  rfl

/-- The repetitions with signs of their own give the same answers as those with the counts that they
stand for, and so does a count given once or as both bounds. -/
theorem repetitions_agree (hp : p.Consistent) (hclass : p.BracketsClass) :
    (∀ zero one : Double, zero.toNat? = some 0 → one.toNat? = some 1 →
      (∃ r, p.between zero one = .ok r ∧ SameAnswers p.optional r) ∧
      (∃ r, p.atLeast one = .ok r ∧ SameAnswers p.oneOrMore r) ∧
      ∃ r, p.atLeast zero = .ok r ∧ SameAnswers p.zeroOrMore r) ∧
    ∀ (d : Double) (n : Nat), d.toNat? = some n → n ≤ 2 ^ 53 - 1 →
      ∃ r r', p.exactly d = .ok r ∧ p.between d d = .ok r' ∧ SameAnswers r r' := by
  constructor
  · intro zero one hzero hone
    refine ⟨⟨_, p.between_of_toNat hzero hone (Nat.zero_le 1), ?_⟩,
      ⟨_, p.atLeast_of_toNat hone, ?_⟩, ⟨_, p.atLeast_of_toNat hzero, ?_⟩⟩
    · exact hp.sameAnswers_repeated hclass rfl rfl (by decide)
    · exact hp.sameAnswers_repeated hclass rfl rfl (by decide)
    · exact hp.sameAnswers_repeated hclass rfl rfl (by decide)
  · intro d n hd hn
    refine ⟨_, _, p.exactly_of_toNat hd, p.between_of_toNat hd hd (Nat.le_refl n), ?_⟩
    refine hp.sameAnswers_repeated hclass rfl rfl (fun m hm => ?_)
    have hmn : m = n := by simpa [Quantifier.counts, Quantifier.least, Quantifier.most?] using hm
    omega

/-- A class, a captured choice with an empty text in it, and what was captured once more: text that
begins with a square bracket and ends with another. -/
def mixed : Pattern :=
  sequence (charClass true (utf16 "b"))
    [namedGroup ⟨utf16 "rest", by decide⟩ (either [] [utf16 "a", utf16 "]"]),
      repeated (backreference ⟨utf16 "rest", by decide⟩) .optional]

theorem mixed_repetitions_agree :
    mixed.Consistent ∧ mixed.BracketsClass ∧
      (∃ r, mixed.between ⟨0x8000000000000000⟩ ⟨0x3FF0000000000000⟩ = .ok r ∧
        SameAnswers mixed.optional r) ∧
      (∃ r, mixed.atLeast ⟨0x3FF0000000000000⟩ = .ok r ∧ SameAnswers mixed.oneOrMore r) ∧
      (∃ r, mixed.atLeast ⟨0x8000000000000000⟩ = .ok r ∧ SameAnswers mixed.zeroOrMore r) ∧
      ∃ r r', mixed.exactly ⟨0x433FFFFFFFFFFFFF⟩ = .ok r ∧
        mixed.between ⟨0x433FFFFFFFFFFFFF⟩ ⟨0x433FFFFFFFFFFFFF⟩ = .ok r' ∧ SameAnswers r r' := by
  have hp : mixed.Consistent := ⟨by decide, by decide⟩
  have hclass : mixed.BracketsClass := by
    intro _ hlast
    contradiction
  obtain ⟨hsigns, hcounts⟩ := repetitions_agree hp hclass
  obtain ⟨hoptional, honeOrMore, hzeroOrMore⟩ :=
    hsigns ⟨0x8000000000000000⟩ ⟨0x3FF0000000000000⟩ (by decide +kernel) (by decide)
  exact ⟨hp, hclass, hoptional, honeOrMore, hzeroOrMore,
    hcounts ⟨0x433FFFFFFFFFFFFF⟩ (2 ^ 53 - 1) (by decide) (Nat.le_refl _)⟩

end Pattern

end PatternAlgebra
