import PatternAlgebra.Proofs.DeclaredNames

/-!
# Which declarations a scan comes upon

In the text of a pattern the opening of a named group stands where the pattern has such a group, and
where a class or a name that is referred to spells it, as neither of them is quoted against it. It
stands nowhere else (`declarations_expression`): literal text and ranges never spell it, and no text
joins with its neighbour to do so.
-/

namespace PatternAlgebra

open Lowering NameScan

/-! ## Declarations at a bracket -/

/-- How a text begins that makes a bracket before it the opening of a named group or of an
assertion. -/
def opensName (t : Text) : Prop := t.head? = some questionMark ∧ (t.drop 1).head? = some lessThan

theorem opensName_iff {t : Text} : opensName t ↔ ∃ s, t = questionMark :: lessThan :: s := by
  constructor
  · intro h
    obtain ⟨hfirst, hsecond⟩ := h
    rcases t with _ | ⟨v, _ | ⟨w, t⟩⟩
    · contradiction
    · contradiction
    · obtain rfl := Option.some.inj hfirst
      obtain rfl := Option.some.inj hsecond
      exact ⟨t, rfl⟩
  · rintro ⟨s, rfl⟩
    exact ⟨rfl, rfl⟩

theorem not_opensName {t : Text} (h : t.head? ≠ some questionMark) : ¬ opensName t :=
  fun hopens => h hopens.1

@[simp] theorem declarations_nil : declarations [] = [] := rfl

@[simp] theorem declarations_unit {u : CodeUnit} (h : u ≠ openParen) (rest : Text) :
    declarations (u :: rest) = declarations rest := by
  have hnone : declarationAt? (u :: rest) = none := by
    unfold declarationAt?
    split
    next heq => exact absurd (List.cons.inj heq).1 h
    · rfl
  rw [declarations, hnone]

theorem declarationAt?_eq_none {t : Text} (h : ¬ opensName t) :
    declarationAt? (openParen :: t) = none := by
  unfold declarationAt?
  split
  next heq =>
    obtain rfl := (List.cons.inj heq).2
    exact absurd ⟨rfl, rfl⟩ h
  · rfl

theorem declarations_bracket {t : Text} (h : ¬ opensName t) :
    declarations (openParen :: t) = declarations t := by
  rw [declarations, declarationAt?_eq_none h]

theorem declarations_of_forall_ne {t : Text} (h : ∀ u ∈ t, u ≠ openParen) (rest : Text) :
    declarations (t ++ rest) = declarations rest := by
  induction t with
  | nil => rfl
  | cons u t ih =>
    rw [List.cons_append, declarations_unit (h u List.mem_cons_self)]
    exact ih (fun v hv => h v (List.mem_cons_of_mem u hv))

/-- Text up to a unit decides whether a name is opened. -/
theorem opensName_append {t : Text} {u : CodeUnit} (hmark : u ≠ questionMark) (hless : u ≠ lessThan)
    (rest : Text) : opensName (t ++ u :: rest) ↔ ∃ s, t = questionMark :: lessThan :: s := by
  constructor
  · rintro ⟨hfirst, hsecond⟩
    rcases t with _ | ⟨v, _ | ⟨w, t⟩⟩
    · exact absurd (Option.some.inj hfirst) hmark
    · exact absurd (Option.some.inj hsecond) hless
    · exact ⟨t, by rw [Option.some.inj hfirst, Option.some.inj hsecond]⟩
  · rintro ⟨s, rfl⟩
    exact ⟨rfl, rfl⟩

/-- The letters and digits that a text begins with. -/
def word (t : Text) : Text := t.takeWhile (fun u => Text.isLetter u || Text.isDigit u)

theorem word_cons_of_pos {u : CodeUnit} (h : (Text.isLetter u || Text.isDigit u) = true)
    (t : Text) : word (u :: t) = u :: word t := List.takeWhile_cons_of_pos h

theorem word_cons_of_neg {u : CodeUnit} (h : (Text.isLetter u || Text.isDigit u) = false)
    (t : Text) : word (u :: t) = [] :=
  List.takeWhile_cons_of_neg (Bool.eq_false_iff.1 h)

/-- Texts that begin with the same word, and with `>` behind it both or neither. -/
def SameName (s t : Text) : Prop :=
  word s = word t ∧
    (s[(word s).length]? = some greaterThan ↔ t[(word t).length]? = some greaterThan)

namespace SameName

variable {s t : Text} {u v : CodeUnit}

theorem cons (h : SameName s t) (u : CodeUnit) : SameName (u :: s) (u :: t) := by
  obtain ⟨hword, hends⟩ := h
  cases hu : Text.isLetter u || Text.isDigit u with
  | true =>
    rw [SameName, word_cons_of_pos hu, word_cons_of_pos hu]
    exact ⟨congrArg (u :: ·) hword, hends⟩
  | false =>
    rw [SameName, word_cons_of_neg hu, word_cons_of_neg hu]
    exact ⟨rfl, Iff.rfl⟩

/-- Behind a `>` it does not matter what follows. -/
theorem closed (t rest rest' : Text) :
    SameName (t ++ greaterThan :: rest) (t ++ greaterThan :: rest') := by
  induction t with
  | nil =>
    show SameName (greaterThan :: rest) (greaterThan :: rest')
    rw [SameName, word_cons_of_neg (by decide), word_cons_of_neg (by decide)]
    exact ⟨rfl, Iff.rfl⟩
  | cons u t ih => exact ih.cons u

/-- Quoting in a class changes no name, and what ends the class does not end a name. -/
theorem escapeClassText (members rest : Text) :
    SameName (escapeClassText members ++ closeBracket :: rest) members := by
  induction members with
  | nil =>
    show SameName (closeBracket :: rest) []
    rw [SameName, word_cons_of_neg (by decide)]
    exact ⟨rfl, iff_of_false (show some closeBracket ≠ some greaterThan by decide)
      (fun h => nomatch h)⟩
  | cons u members ih =>
    rw [escapeClassText_cons, List.append_assoc, escapeInClass_singleton]
    split
    next hu =>
      have hunit : (Text.isLetter u || Text.isDigit u) = false ∧ u ≠ greaterThan := by
        simp only [classMetacharacters, List.mem_cons, List.not_mem_nil, or_false] at hu
        rcases hu with rfl | rfl | rfl | rfl <;> decide
      rw [List.cons_append, SameName, word_cons_of_neg (by decide), word_cons_of_neg hunit.1]
      exact ⟨rfl, iff_of_false (show some backslash ≠ some greaterThan by decide)
        (fun h => hunit.2 (Option.some.inj h))⟩
    · exact ih.cons u

theorem declarationAt?_eq (h : SameName s t) :
    declarationAt? (openParen :: questionMark :: lessThan :: s) =
      declarationAt? (openParen :: questionMark :: lessThan :: t) := by
  obtain ⟨hword, hends⟩ := h
  have hbeq : (s[(word s).length]? == some greaterThan) =
      (t[(word t).length]? == some greaterThan) := by
    rw [Bool.eq_iff_iff, beq_iff_eq, beq_iff_eq]
    exact hends
  show (if (isGroupName (word s) && s[(word s).length]? == some greaterThan) = true
      then some (word s) else none) =
    if (isGroupName (word t) && t[(word t).length]? == some greaterThan) = true
      then some (word t) else none
  rw [hbeq, hword]

end SameName

theorem head?_escapeClassText {members rest : Text} {u : CodeUnit}
    (hu : u ≠ backslash ∧ u ≠ closeBracket)
    (h : (escapeClassText members ++ closeBracket :: rest).head? = some u) :
    ∃ others, members = u :: others := by
  cases members with
  | nil => exact absurd (Option.some.inj h).symm hu.2
  | cons v others =>
    rw [escapeClassText_cons, escapeInClass_singleton] at h
    split at h
    · exact absurd (Option.some.inj h).symm hu.1
    · exact ⟨others, by rw [Option.some.inj h]⟩

/-- A class opens a name only if its members do. -/
theorem opensName_escapeClassText {members rest : Text}
    (h : opensName (escapeClassText members ++ closeBracket :: rest)) :
    ∃ s, members = questionMark :: lessThan :: s := by
  obtain ⟨others, rfl⟩ := head?_escapeClassText (by decide) h.1
  obtain ⟨s, rfl⟩ := head?_escapeClassText (by decide) h.2
  exact ⟨s, rfl⟩

/-! ## Texts that are scanned by themselves -/

/-- The scan comes upon these names in a text, whatever follows it; but a question mark may not, as
it could make a bracket at the end the opening of a group. -/
def Declares (t : Text) (names : List Text) : Prop :=
  ∀ rest : Text, rest.head? ≠ some questionMark →
    declarations (t ++ rest) = names ++ declarations rest

namespace Declares

variable {s t : Text} {ns ms : List Text}

theorem nil : Declares [] [] := fun _ _ => rfl

theorem append (hs : Declares s ns) (ht : Declares t ms) (hkeeps : Pattern.keepsOpening t) :
    Declares (s ++ t) (ns ++ ms) := by
  intro rest hrest
  rw [List.append_assoc, hs _ (hkeeps rest hrest), ht rest hrest, List.append_assoc]

theorem of_forall_ne (h : ∀ u ∈ t, u ≠ openParen) : Declares t [] :=
  fun rest _ => declarations_of_forall_ne h rest

theorem unit {u : CodeUnit} (h : u ≠ openParen) : Declares [u] [] :=
  fun rest _ => declarations_unit h rest

theorem cons {u : CodeUnit} (hu : u ≠ openParen) (h : Declares t ns) : Declares (u :: t) ns := by
  intro rest hrest
  rw [List.cons_append, declarations_unit hu]
  exact h rest hrest

/-- A bracket before a text that does not begin as the opening of a group goes on. -/
theorem captured (h : Declares t ns) (hkeeps : Pattern.keepsOpening t) :
    Declares (openParen :: (t ++ [closeParen])) ns := by
  intro rest _
  have hclose : (closeParen :: rest).head? ≠ some questionMark :=
    show some closeParen ≠ some questionMark by decide
  rw [List.cons_append, List.append_assoc, List.singleton_append,
    declarations_bracket (not_opensName (hkeeps _ hclose)), h _ hclose,
    declarations_unit (by decide)]

/-- A text in a group is scanned by itself. -/
theorem grouped (h : Declares t ns) (rest : Text) :
    declarations (grouped t ++ rest) = ns ++ declarations rest := by
  have hclose : (closeParen :: rest).head? ≠ some questionMark :=
    show some closeParen ≠ some questionMark by decide
  have hplain : ¬ opensName (questionMark :: colon :: (t ++ closeParen :: rest)) :=
    fun hopens => absurd hopens.2 (show some colon ≠ some lessThan by decide)
  have hsplit : PatternAlgebra.grouped t ++ rest =
      openParen :: questionMark :: colon :: (t ++ closeParen :: rest) := by
    simp [PatternAlgebra.grouped]
  rw [hsplit, declarations_bracket hplain]
  simp (disch := decide) [h _ hclose]

theorem escapeText (t : Text) : Declares (escapeText t) [] := by
  induction t with
  | nil => exact nil
  | cons u t ih =>
    have hunit : Declares (escapeUnit u) [] := by
      intro rest hrest
      unfold escapeUnit
      split
      · show declarations (backslash :: u :: rest) = declarations rest
        rw [declarations_unit (by decide)]
        by_cases hu : u = openParen
        · rw [hu, declarations_bracket (not_opensName hrest)]
        · rw [declarations_unit hu]
      next hplain =>
        refine declarations_unit ?_ rest
        rintro rfl
        exact hplain (by decide)
    exact hunit.append ih (Pattern.keepsOpening_escapeText t)

theorem choiceText (first : Text) (others : List Text) : Declares (choiceText first others) [] := by
  have hjoin : ∀ ts : List Text,
      Declares ([verticalBar].intercalate (ts.map PatternAlgebra.escapeText)) [] := by
    intro ts
    induction ts with
    | nil => exact nil
    | cons t ts ih =>
      cases ts with
      | nil =>
        rw [List.map_cons, List.map_nil, List.intercalate_singleton]
        exact escapeText t
      | cons t' ts =>
        rw [List.map_cons, List.map_cons, List.intercalate_cons_cons, List.append_assoc]
        refine (escapeText t).append ?_ (Pattern.keepsOpening_cons (by decide) _)
        intro rest hrest
        rw [List.append_assoc, List.singleton_append, declarations_unit (by decide)]
        exact ih rest hrest
  cases others with
  | nil => exact escapeText first
  | cons second others => exact fun rest _ => (hjoin (first :: second :: others)).grouped rest

theorem suffix (q : Quantifier) : Declares q.suffix [] := by
  have hbraced : ∀ inner, q.inner? = some inner → Declares (braced inner) [] := by
    intro inner h
    refine of_forall_ne (fun u hu => ?_)
    rw [braced, List.mem_cons, List.mem_append, List.mem_singleton] at hu
    rcases hu with rfl | hu | rfl
    · decide
    · exact q.ne_of_mem_inner h hu (by decide) (by decide)
    · decide
  cases q with
  | optional | oneOrMore | zeroOrMore => exact unit (by decide)
  | exactly | between | atLeast => exact hbraced _ rfl

/-- The opening of a named group declares its name. -/
theorem opening (name : GroupName) : Declares name.opening [name.text] := by
  intro rest _
  have hat := Pattern.declarationAt?_opening name rest
  have hsplit : name.opening ++ rest =
      openParen :: ([questionMark, lessThan] ++ name.text ++ [greaterThan] ++ rest) := by
    simp [GroupName.opening]
  have hplain : ∀ u ∈ [questionMark, lessThan] ++ name.text ++ [greaterThan], u ≠ openParen := by
    intro u hu
    rw [List.mem_append, List.mem_append] at hu
    rcases hu with (hu | hu) | hu
    · rcases List.mem_cons.1 hu with rfl | hu
      · decide
      · obtain rfl := List.mem_singleton.1 hu
        decide
    · rintro rfl
      have hword := Pattern.forall_isWord name.wellFormed openParen hu
      revert hword
      decide
    · obtain rfl := List.mem_singleton.1 hu
      decide
  rw [hsplit] at hat ⊢
  rw [declarations, hat]
  exact congrArg (name.text :: ·) (declarations_of_forall_ne hplain rest)

/-- A text that ends in `>` is scanned by itself. -/
theorem closed (t : Text) :
    Declares (t ++ [greaterThan]) (declarations (t ++ [greaterThan])) := by
  intro rest _
  rw [List.append_assoc, List.singleton_append]
  induction t with
  | nil =>
    show declarations (greaterThan :: rest) = declarations [greaterThan] ++ _
    simp (disch := decide)
  | cons u t ih =>
    rw [List.cons_append, List.cons_append]
    by_cases hu : u = openParen
    · subst hu
      have hat : declarationAt? (openParen :: (t ++ greaterThan :: rest)) =
          declarationAt? (openParen :: (t ++ [greaterThan])) := by
        by_cases hopens : ∃ s, t = questionMark :: lessThan :: s
        · obtain ⟨s, rfl⟩ := hopens
          exact (SameName.closed s rest []).declarationAt?_eq
        · have hplain : ∀ behind, ¬ opensName (t ++ greaterThan :: behind) :=
            fun behind h => hopens ((opensName_append (by decide) (by decide) behind).1 h)
          rw [declarationAt?_eq_none (hplain _), declarationAt?_eq_none (hplain _)]
      rw [declarations, declarations, hat]
      split
      · exact congrArg (_ :: ·) ih
      · exact ih
    · rw [declarations_unit hu, declarations_unit hu]
      exact ih

/-- A class is scanned as its members would be without quoting. -/
theorem classMembers (members : Text) :
    Declares (escapeClassText members ++ [closeBracket]) (declarations members) := by
  intro rest _
  rw [List.append_assoc, List.singleton_append]
  induction members with
  | nil => exact declarations_unit (by decide) rest
  | cons u members ih =>
    by_cases hu : u = openParen
    · subst hu
      have hat : declarationAt? (openParen :: (escapeClassText members ++ closeBracket :: rest)) =
          declarationAt? (openParen :: members) := by
        by_cases hopens : opensName (escapeClassText members ++ closeBracket :: rest)
        · obtain ⟨s, rfl⟩ := opensName_escapeClassText hopens
          exact (SameName.escapeClassText s rest).declarationAt?_eq
        · have hplain : ¬ opensName members := by
            intro hmembers
            obtain ⟨s, rfl⟩ := opensName_iff.1 hmembers
            exact hopens (opensName_iff.2 ⟨_, rfl⟩)
          rw [declarationAt?_eq_none hopens, declarationAt?_eq_none hplain]
      show declarations (openParen :: (escapeClassText members ++ closeBracket :: rest)) = _
      rw [declarations, declarations, hat]
      split
      · exact congrArg (_ :: ·) ih
      · exact ih
    · rw [declarations_unit hu, ← ih, escapeClassText_cons, escapeInClass_singleton]
      split
      · show declarations (backslash :: u :: _) = _
        rw [declarations_unit (by decide), declarations_unit hu]
        rfl
      · exact declarations_unit hu _

/-- Ranges never spell the opening of a group: a hyphen stands between their ends. -/
theorem ranges (rs : List CharRange) :
    Declares (rs.flatMap CharRange.classBody ++ [closeBracket]) [] := by
  intro rest _
  have hquoted : ∀ (u : CodeUnit) {t : Text}, ¬ opensName t →
      declarations (escapeInClass [u] ++ t) = declarations t := by
    intro u t ht
    have hunit : declarations (u :: t) = declarations t := by
      by_cases hu : u = openParen
      · rw [hu, declarations_bracket ht]
      · exact declarations_unit hu t
    rw [escapeInClass_singleton]
    split
    · show declarations (backslash :: u :: t) = _
      rw [declarations_unit (by decide), hunit]
    · exact hunit
  have hhyphen : ∀ t, ¬ opensName (hyphen :: t) :=
    fun t => not_opensName (show some hyphen ≠ some questionMark by decide)
  have hbegins : ∀ rs : List CharRange,
      ¬ opensName (rs.flatMap CharRange.classBody ++ closeBracket :: rest) := by
    intro rs
    cases rs with
    | nil => exact not_opensName (show some closeBracket ≠ some questionMark by decide)
    | cons r rs =>
      rw [List.flatMap_cons, CharRange.classBody, escapeInClass_singleton]
      split
      · exact not_opensName (show some backslash ≠ some questionMark by decide)
      · exact fun hopens => absurd hopens.2 (show some hyphen ≠ some lessThan by decide)
  rw [List.append_assoc, List.singleton_append]
  induction rs with
  | nil => exact declarations_unit (by decide) rest
  | cons r rs ih =>
    rw [List.flatMap_cons, CharRange.classBody, List.append_assoc, List.append_assoc,
      List.cons_append, hquoted _ (hhyphen _), declarations_unit (by decide),
      hquoted _ (hbegins rs)]
    exact ih

end Declares

namespace Pattern

mutual

/-- The names that a scan of the pattern's text comes upon: those of its groups, and those that the
members of a class or a name that is referred to spell. -/
def scannedNames : Pattern → List Text
  | sequence first others => first.scannedNames ++ scannedNamesAll others
  | repeated body _ | group body => body.scannedNames
  | namedGroup name body => name.text :: body.scannedNames
  | charClass _ members => declarations members
  | backreference name => declarations name.expression
  | literal _ | either _ _ | anyUnit | shorthand _ | anchor _ | charRange _ | multiRange _ _ => []

/-- The names that a scan of the texts of patterns comes upon. -/
def scannedNamesAll : List Pattern → List Text
  | [] => []
  | p :: ps => p.scannedNames ++ scannedNamesAll ps

end

/-- In the text of a pattern a scan comes upon these names only. -/
theorem declares_expression (p : Pattern) : Declares p.expression p.scannedNames := by
  induction p using inductParts (Q := fun ps => Declares (expressions ps) (scannedNamesAll ps)) with
  | literal t => exact .escapeText t
  | either first others => exact .choiceText first others
  | sequence first others hparts => exact hparts
  | repeated body q hbody =>
    intro rest hrest
    rw [expression, q.apply_eq, List.append_assoc]
    split
    · rw [hbody.grouped, Declares.suffix q rest hrest]
      rfl
    next hgroups =>
      -- Only a counted quantifier stands without a group, and it begins with a brace.
      have hsuffix : (q.suffix ++ rest).head? ≠ some questionMark := by
        cases q with
        | optional | oneOrMore | zeroOrMore => exact absurd rfl hgroups
        | exactly | between | atLeast => exact show some openBrace ≠ some questionMark by decide
      rw [hbody _ hsuffix, Declares.suffix q rest hrest]
      rfl
  | anyUnit => exact .unit (by decide)
  | shorthand s => cases s <;> exact (Declares.unit (by decide)).cons (by decide)
  | anchor a =>
    cases a with
    | lineStart | lineEnd => exact .unit (by decide)
    | inputStart | inputEnd => exact (Declares.unit (by decide)).cons (by decide)
  | charClass negated members =>
    have hmembers := Declares.classMembers members
    cases negated with
    | true => exact (hmembers.cons (by decide)).cons (by decide)
    | false => exact hmembers.cons (by decide)
  | charRange r =>
    have hranges := Declares.ranges [r]
    rw [List.flatMap_cons, List.flatMap_nil, List.append_nil] at hranges
    exact hranges.cons (by decide)
  | multiRange first others =>
    rw [multiRange_expression]
    exact (Declares.ranges (first :: others)).cons (by decide)
  | group body hbody => exact hbody.captured body.keepsOpening_expression
  | namedGroup name body hbody =>
    have hbehind := hbody.append (.unit (u := closeParen) (by decide))
      (keepsOpening_cons (by decide) [])
    have hopened := (Declares.opening name).append hbehind
      (keepsOpening_append body.keepsOpening_expression (keepsOpening_cons (by decide) []))
    rw [List.append_nil, ← List.append_assoc] at hopened
    exact hopened
  | backreference name =>
    have hclosed := Declares.closed (backslash :: lowerK :: lessThan :: name.text)
    exact hclosed
  | nil => exact .nil
  | cons q qs hq hqs =>
    refine hq.append hqs ?_
    rw [expressions_eq_flatMap]
    exact keepsOpening_flatMap (fun p _ => p.keepsOpening_expression)

theorem declarations_expression (p : Pattern) : declarations p.expression = p.scannedNames := by
  have hscan := p.declares_expression [] (by decide)
  rwa [List.append_nil, declarations, List.append_nil] at hscan

end Pattern

end PatternAlgebra
