import PatternAlgebra.Proofs.Scanning

/-!
# The names found are those of the pattern

Scanning the text of a pattern finds the names that the pattern refers to and those that its groups
have, each once and in the order of the tree (`names_found`). For references no name may hold a `>`,
as it would end there; for groups no class and no name that is referred to may spell the opening of
a named group. Literals and alternatives need no condition: they take no part in what is found.
-/

namespace PatternAlgebra

open NameScan

/-- What every declaration begins with. -/
def openingMark : Text := [openParen, questionMark, lessThan]

/-- Nothing is declared where no group is opened by name. -/
theorem declarations_eq_nil {t : Text} (h : ¬ openingMark <:+: t) : declarations t = [] := by
  induction t with
  | nil => rfl
  | cons u t ih =>
    have hrest : declarations t = [] :=
      ih (fun hlater => h (hlater.trans (List.suffix_cons u t).isInfix))
    by_cases hu : u = openParen
    · subst hu
      have hplain : ¬ opensName t := by
        intro hopens
        obtain ⟨s, rfl⟩ := opensName_iff.1 hopens
        exact h ⟨[], s, rfl⟩
      rw [declarations_bracket hplain, hrest]
    · rw [declarations_unit hu, hrest]

/-- A reference declares nothing unless its name does. -/
theorem ReferenceName.declarations_expression {name : ReferenceName}
    (h : ¬ openingMark <:+: name.text) : declarations name.expression = [] := by
  -- The `>` behind the name ends no opening, so one would stand in the name itself.
  have hclosed : ¬ openingMark <:+: name.text ++ [greaterThan] := by
    rw [List.infix_concat_iff, List.suffix_concat_iff]
    rintro ((hnil | ⟨before, hlast, -⟩) | hname)
    · contradiction
    · have hunit := congrArg List.getLast? hlast
      rw [List.getLast?_concat] at hunit
      contradiction
    · exact h hname
  simp (disch := decide) [expression, declarations_eq_nil hclosed]

namespace Pattern

mutual

/-- The texts of the classes of a pattern, negated or not. -/
def classTexts : Pattern → List Text
  | sequence first others => first.classTexts ++ classTextsAll others
  | repeated body _ | group body | namedGroup _ body => body.classTexts
  | charClass _ members => [members]
  | literal _ | either _ _ | anyUnit | shorthand _ | anchor _ | charRange _ | multiRange _ _
  | backreference _ => []

/-- The texts of the classes of patterns. -/
def classTextsAll : List Pattern → List Text
  | [] => []
  | p :: ps => p.classTexts ++ classTextsAll ps

end

/-- No class and no name that is referred to spells the opening of a named group. -/
structure OpensNothing (p : Pattern) : Prop where
  classes : ∀ members ∈ p.classTexts, ¬ openingMark <:+: members
  references : ∀ name ∈ p.references, ¬ openingMark <:+: name.text

/-- Where nothing else opens a named group, the scan comes upon the names of the groups. -/
theorem scannedNames_eq_groupNames {p : Pattern} (hp : p.OpensNothing) :
    p.scannedNames = p.groupNames := by
  obtain ⟨hclasses, hreferences⟩ := hp
  induction p using inductParts (Q := fun ps =>
      (∀ members ∈ classTextsAll ps, ¬ openingMark <:+: members) →
      (∀ name ∈ referencesAll ps, ¬ openingMark <:+: name.text) →
        scannedNamesAll ps = (capturingAll ps).filterMap (fun g => g.name.map (·.text))) with
  | sequence first others hparts => exact hparts hclasses hreferences
  | repeated body q hbody | group body hbody => exact hbody hclasses hreferences
  | namedGroup name body hbody => exact congrArg (name.text :: ·) (hbody hclasses hreferences)
  | charClass negated members =>
    exact declarations_eq_nil (hclasses members (List.mem_singleton_self _))
  | backreference name =>
    exact ReferenceName.declarations_expression (hreferences name (List.mem_singleton_self _))
  | literal | either | anyUnit | shorthand | anchor | charRange | multiRange => rfl
  | nil => rfl
  | cons q qs hq hqs hclasses hreferences =>
    obtain ⟨hown, hothers⟩ := List.forall_mem_append.1 hclasses
    obtain ⟨hownNames, hotherNames⟩ := List.forall_mem_append.1 hreferences
    rw [scannedNamesAll, capturingAll, List.filterMap_append, hq hown hownNames,
      hqs hothers hotherNames]
    rfl

/-! ## Literals and alternatives -/

mutual

/-- The pattern with nothing in its literals and a single empty text for all alternatives. -/
def withoutTexts : Pattern → Pattern
  | literal _ => literal []
  | either _ _ => either [] []
  | sequence first others => sequence first.withoutTexts (withoutTextsAll others)
  | repeated body q => repeated body.withoutTexts q
  | group body => group body.withoutTexts
  | namedGroup name body => namedGroup name body.withoutTexts
  | anyUnit => anyUnit
  | shorthand s => shorthand s
  | anchor a => anchor a
  | charClass negated members => charClass negated members
  | charRange r => charRange r
  | multiRange first others => multiRange first others
  | backreference name => backreference name

def withoutTextsAll : List Pattern → List Pattern
  | [] => []
  | p :: ps => p.withoutTexts :: withoutTextsAll ps

end

theorem references_withoutTexts (p : Pattern) : p.withoutTexts.references = p.references := by
  induction p using inductParts (Q := fun ps =>
      referencesAll (withoutTextsAll ps) = referencesAll ps) with
  | sequence first others hparts => exact hparts
  | repeated body q hbody | group body hbody | namedGroup name body hbody => exact hbody
  | literal | either | anyUnit | shorthand | anchor | charClass | charRange | multiRange
  | backreference => rfl
  | nil => rfl
  | cons q qs hq hqs => rw [withoutTextsAll, referencesAll, hq, hqs, referencesAll]

theorem scannedNames_withoutTexts (p : Pattern) : p.withoutTexts.scannedNames = p.scannedNames := by
  induction p using inductParts (Q := fun ps =>
      scannedNamesAll (withoutTextsAll ps) = scannedNamesAll ps) with
  | sequence first others hparts => exact hparts
  | repeated body q hbody => exact hbody
  | group body hbody => exact hbody
  | namedGroup name body hbody => exact congrArg (name.text :: ·) hbody
  | literal | either | anyUnit | shorthand | anchor | charClass | charRange | multiRange
  | backreference => rfl
  | nil => rfl
  | cons q qs hq hqs => rw [withoutTextsAll, scannedNamesAll, hq, hqs, scannedNamesAll]

/-- What is found in the text of a pattern does not depend on literals and alternatives. -/
theorem found_withoutTexts (p : Pattern) :
    referencedNames p.withoutTexts.expression = referencedNames p.expression ∧
      declaredNames p.withoutTexts.expression = declaredNames p.expression := by
  constructor
  · rw [referencedNames, referencedNames, references_expression_alone, references_expression_alone,
      references_withoutTexts]
  · rw [declaredNames, declaredNames, declarations_expression, declarations_expression,
      scannedNames_withoutTexts]

/-- The scans find the names of the pattern, each once, in the order of the tree: those that it
refers to, where none of them holds a `>`, and those of its groups, where no class and no name
referred to spells an opening. Literals and alternatives, whatever they hold, change nothing. -/
theorem names_found (p : Pattern) :
    ((∀ name ∈ p.references, greaterThan ∉ name.text) →
      referencedNames p.expression = (p.references.map (·.text)).eraseDups) ∧
      (p.OpensNothing → declaredNames p.expression = p.groupNames.eraseDups) ∧
      ∀ q : Pattern, q.withoutTexts = p.withoutTexts →
        referencedNames q.expression = referencedNames p.expression ∧
          declaredNames q.expression = declaredNames p.expression := by
  refine ⟨fun hplain => ?_, fun hopens => ?_, fun q hq => ?_⟩
  · rw [referencedNames, references_expression_of_plain hplain, firstOccurrences_eq_eraseDups]
  · rw [declaredNames, declarations_expression, scannedNames_eq_groupNames hopens,
      firstOccurrences_eq_eraseDups]
  · obtain ⟨hreferred, hdeclared⟩ := p.found_withoutTexts
    obtain ⟨hreferred', hdeclared'⟩ := q.found_withoutTexts
    rw [← hreferred, ← hdeclared, ← hreferred', ← hdeclared', hq]
    exact ⟨rfl, rfl⟩

/-- Two groups and references to them, one of them twice, behind a literal and around alternatives
that are given. -/
def lettered (front alternative : Text) : Pattern :=
  sequence (literal front)
    [namedGroup ⟨utf16 "first", by decide⟩ (either alternative [front]),
      backreference ⟨utf16 "second", by decide⟩,
      namedGroup ⟨utf16 "second", by decide⟩ (charClass true (utf16 "(?\\<")),
      backreference ⟨utf16 "first", by decide⟩, backreference ⟨utf16 "second", by decide⟩]

/-- The same with texts that spell groups and a reference, and a backslash at an end. -/
def disguised : Pattern := lettered (utf16 "(?<a>\\k<b>\\") (utf16 "(?<c>")

theorem disguised_names_found :
    (∀ name ∈ disguised.references, greaterThan ∉ name.text) ∧ disguised.OpensNothing ∧
      (lettered [] []).withoutTexts = disguised.withoutTexts ∧
      referencedNames disguised.expression = [utf16 "second", utf16 "first"] ∧
      declaredNames disguised.expression = [utf16 "first", utf16 "second"] ∧
      referencedNames (lettered [] []).expression = [utf16 "second", utf16 "first"] := by
  have hplain : ∀ name ∈ disguised.references, greaterThan ∉ name.text := by decide +kernel
  have hopens : disguised.OpensNothing := ⟨by decide +kernel, by decide +kernel⟩
  have hsame : (lettered [] []).withoutTexts = disguised.withoutTexts := rfl
  obtain ⟨hreferred, hdeclared, hsilent⟩ := names_found disguised
  refine ⟨hplain, hopens, hsame, ?_, ?_, ?_⟩
  · rw [hreferred hplain]
    decide +kernel
  · rw [hdeclared hopens]
    decide +kernel
  · rw [(hsilent _ hsame).1, hreferred hplain]
    decide +kernel

end Pattern

end PatternAlgebra
