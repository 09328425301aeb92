import PatternAlgebra.Matching.Compile
import PatternAlgebra.Proofs.Tokens

/-!
# Names found in the text of a pattern

Scanning the text of a pattern comes upon the names that it refers to, in order and no others, as far
as each is read: up to its first `>`. It finds at least the names of the pattern's groups. A
declaration may also be found where there is no group, as in a class; which ones is not said here.
-/

namespace PatternAlgebra

open Lowering NameScan

/-! ## Scanning for references -/

theorem upToGreater?_name {name : Text} (h : ∀ u ∈ name, u ≠ greaterThan) (rest : Text) :
    upToGreater? (name ++ greaterThan :: rest) = some (name, rest) := by
  induction name with
  | nil => rfl
  | cons u name ih =>
    rw [List.cons_append, upToGreater?, if_neg (h u List.mem_cons_self),
      ih (fun v hv => h v (List.mem_cons_of_mem u hv))]
    rfl

theorem referenceTail?_eq_none {t : Text} (h : t.head? ≠ some lowerK ∨
    (t.drop 1).head? ≠ some lessThan) : referenceTail? t = none := by
  unfold referenceTail?
  split
  · exact absurd h (by simp)
  · rfl

/-- Behind a backslash, a text that ends in `>` is a reference as far as the first of these, or none
at all. -/
theorem referenceTail?_closed (t : Text) :
    (∀ behind, referenceTail? (t ++ greaterThan :: behind) = none) ∨
      (∃ name, ∀ behind, referenceTail? (t ++ greaterThan :: behind) = some (name, behind)) ∨
      ∃ name after, after.length < t.length ∧ ∀ behind,
        referenceTail? (t ++ greaterThan :: behind) = some (name, after ++ greaterThan :: behind) := by
  by_cases hbegins : ∃ name, t = lowerK :: lessThan :: name
  · obtain ⟨t, rfl⟩ := hbegins
    by_cases hclosed : greaterThan ∈ t
    · obtain ⟨name, after, rfl, hname⟩ := List.eq_append_cons_of_mem hclosed
      refine .inr (.inr ⟨name, after, ?_, fun behind => ?_⟩)
      · simp only [List.length_cons, List.length_append]
        omega
      · rw [List.cons_append, List.cons_append, List.append_assoc]
        exact upToGreater?_name (fun u hu => ne_of_mem_of_not_mem hu hname) _
    · exact .inr (.inl ⟨t, upToGreater?_name (fun u hu => ne_of_mem_of_not_mem hu hclosed)⟩)
  · refine .inl (fun behind => referenceTail?_eq_none ?_)
    rcases t with _ | ⟨u, _ | ⟨v, t⟩⟩
    · exact .inl (show some greaterThan ≠ some lowerK by decide)
    · exact .inr (show some greaterThan ≠ some lessThan by decide)
    · by_cases hu : u = lowerK
      · refine .inr (fun hv => hbegins ⟨t, ?_⟩)
        rw [hu, Option.some.inj hv]
      · exact .inl (fun hk => hu (Option.some.inj hk))

/-- A text that ends in `>` is scanned by itself: no reference that begins in it goes on behind it. -/
theorem references_closed (t rest : Text) :
    references (t ++ greaterThan :: rest) =
      references (t ++ [greaterThan]) ++ references rest := by
  induction hn : t.length using Nat.strongRecOn generalizing t with
  | ind n ih =>
    have hshorter : ∀ s : Text, s.length < n → references (s ++ greaterThan :: rest) =
        references (s ++ [greaterThan]) ++ references rest := fun s hs => ih s.length hs s rfl
    cases t with
    | nil =>
      show references (greaterThan :: rest) = references [greaterThan] ++ _
      simp (disch := decide)
    | cons u t =>
      rw [List.length_cons] at hn
      rw [List.cons_append, List.cons_append]
      by_cases hu : u = backslash
      · subst hu
        rcases referenceTail?_closed t with hnone | ⟨name, hname⟩ | ⟨name, after, hafter, hname⟩
        · rw [references_escape (hnone _), references_escape (hnone _)]
          cases t with
          | nil =>
            show _ = references [] ++ _
            rw [references_nil]
            rfl
          | cons v t => exact hshorter t (by rw [List.length_cons] at hn; omega)
        · rw [references_reference (hname _), references_reference (hname _), references_nil]
          rfl
        · rw [references_reference (hname _), references_reference (hname _),
            hshorter after (by omega)]
          rfl
      · rw [references_unit hu, references_unit hu]
        exact hshorter t (by omega)

namespace ReferenceName

/-- What is read of a name that a pattern refers to: it ends before the first `>`. -/
def readText (name : ReferenceName) : Text := name.text.takeWhile (· != greaterThan)

theorem references_expression_append (name : ReferenceName) (rest : Text) :
    references (name.expression ++ rest) = references name.expression ++ references rest := by
  have hsplit : name.expression = backslash :: lowerK :: lessThan :: name.text ++ [greaterThan] := by
    simp [expression]
  rw [hsplit, List.append_assoc]
  exact references_closed _ rest

/-- A name without `>` is read as it is. -/
theorem references_expression {name : ReferenceName} (h : greaterThan ∉ name.text) :
    references name.expression = [name.text] := by
  have hname : referenceTail? (lowerK :: lessThan :: (name.text ++ [greaterThan])) =
      some (name.text, []) := upToGreater?_name (fun u hu => ne_of_mem_of_not_mem hu h) []
  rw [expression, references_reference hname, references_nil]

theorem readText_eq {name : ReferenceName} (h : greaterThan ∉ name.text) :
    name.readText = name.text := by
  have hall : ∀ u ∈ name.text, (u != greaterThan) = true :=
    fun u hu => bne_iff_ne.2 (ne_of_mem_of_not_mem hu h)
  have happend : (name.text ++ []).takeWhile (· != greaterThan) = name.text ++ [].takeWhile _ :=
    List.takeWhile_append_of_pos hall
  rwa [List.append_nil, List.takeWhile_nil, List.append_nil] at happend

/-- The scan comes upon what is read of a name. -/
theorem readText_mem_references (name : ReferenceName) :
    name.readText ∈ references name.expression := by
  by_cases hclosed : greaterThan ∈ name.text
  · obtain ⟨before, after, htext, hbefore⟩ := List.eq_append_cons_of_mem hclosed
    have hall : ∀ u ∈ before, u ≠ greaterThan := fun u hu => ne_of_mem_of_not_mem hu hbefore
    have hname : referenceTail? (lowerK :: lessThan :: (name.text ++ [greaterThan])) =
        some (before, after ++ [greaterThan]) := by
      rw [htext, List.append_assoc]
      exact upToGreater?_name hall _
    have hread : name.readText = before := by
      rw [readText, htext, List.takeWhile_append_of_pos (fun u hu => bne_iff_ne.2 (hall u hu)),
        List.takeWhile_cons_of_neg (by decide), List.append_nil]
    rw [expression, references_reference hname, hread]
    exact List.mem_cons_self
  · rw [references_expression hclosed, readText_eq hclosed]
    exact List.mem_cons_self

end ReferenceName

theorem references_grouped {t : Text} {names : List Text}
    (h : ∀ rest, references (t ++ rest) = names ++ references rest) (rest : Text) :
    references (grouped t ++ rest) = names ++ references rest := by
  have hopen : Inert [openParen, questionMark, colon] :=
    .cons (by decide) (.cons (by decide) (.unit (by decide)))
  have hclose : Inert [closeParen] := .unit (by decide)
  have hsplit : grouped t ++ rest =
      [openParen, questionMark, colon] ++ (t ++ ([closeParen] ++ rest)) := by
    simp [grouped]
  rw [hsplit, hopen.references, h, hclose.references]

namespace Pattern

/-- Scanning the text of a pattern comes upon its references one after another. -/
theorem references_expression (p : Pattern) (rest : Text) :
    NameScan.references (p.expression ++ rest) =
      p.references.flatMap (fun name => NameScan.references name.expression) ++
        NameScan.references rest := by
  induction p using inductParts (Q := fun ps => ∀ rest,
      NameScan.references (expressions ps ++ rest) =
        (referencesAll ps).flatMap (fun name => NameScan.references name.expression) ++
          NameScan.references rest) generalizing rest with
  | literal t => exact (inert_escapeText t).references rest
  | either first others => exact (inert_choiceText first others).references rest
  | sequence first others hparts => exact hparts rest
  | repeated body q hbody =>
    rw [expression, q.apply_eq, List.append_assoc]
    split
    · rw [references_grouped hbody, (inert_suffix q).references]
      rfl
    · rw [hbody, (inert_suffix q).references]
      rfl
  | anyUnit => exact (Inert.unit (by decide)).references rest
  | shorthand s =>
    have hinert : Inert s.expression := by
      cases s <;> exact .escape (by decide) (by decide) (by decide)
    exact hinert.references rest
  | anchor a =>
    cases a with
    | lineStart | lineEnd => exact (Inert.unit (by decide)).references rest
    | inputStart => exact references_quoted (by decide) rest
    | inputEnd => exact references_quoted (by decide) rest
  | charClass negated members => exact (inert_class negated members).references rest
  | charRange r => exact (inert_multiRange r []).references rest
  | multiRange first others => exact (inert_multiRange first others).references rest
  | group body hbody =>
    simp (disch := decide) [hbody]
  | namedGroup name body hbody =>
    simp (disch := decide) [(inert_opening name).references, hbody]
  | backreference name =>
    simp [name.references_expression_append]
  | nil => rfl
  | cons q qs hq hqs =>
    rw [expressions, List.append_assoc, hq, hqs, referencesAll, List.flatMap_append,
      List.append_assoc]

theorem references_expression_alone (p : Pattern) :
    NameScan.references p.expression =
      p.references.flatMap (fun name => NameScan.references name.expression) := by
  have hscan := references_expression p []
  rwa [List.append_nil, references_nil, List.append_nil] at hscan

/-- What the scan reads of the names that a pattern refers to. -/
theorem mem_references_expression {p : Pattern} {found : Text} :
    found ∈ NameScan.references p.expression ↔
      ∃ name ∈ p.references, found ∈ NameScan.references name.expression := by
  rw [references_expression_alone, List.mem_flatMap]

/-- Names without `>` are read as they are, in order. -/
theorem references_expression_of_plain {p : Pattern}
    (hp : ∀ name ∈ p.references, greaterThan ∉ name.text) :
    NameScan.references p.expression = p.references.map (·.text) := by
  have hread : p.references.map (fun name => NameScan.references name.expression) =
      p.references.map (fun name => [name.text]) :=
    List.map_congr_left (fun name hname => ReferenceName.references_expression (hp name hname))
  rw [references_expression_alone, List.flatMap_def, hread, ← List.flatMap_def,
    ← List.map_eq_flatMap]

theorem mem_references_of_plain {p : Pattern} (hp : ∀ name ∈ p.references, greaterThan ∉ name.text)
    {found : Text} :
    found ∈ NameScan.references p.expression ↔ ∃ name ∈ p.references, found = name.text := by
  rw [references_expression_of_plain hp, List.mem_map]
  simp only [eq_comm]

end Pattern

/-! ## Declarations -/

/-- A name that a scan finds declared is one that a group can have. -/
theorem isGroupName_of_mem_declarations {name t : Text} (h : name ∈ declarations t) :
    isGroupName name = true := by
  have hat : ∀ {t : Text} {found : Text}, declarationAt? t = some found →
      isGroupName found = true := by
    intro t found hfound
    unfold declarationAt? at hfound
    split at hfound
    · simp only [Option.ite_none_right_eq_some, Bool.and_eq_true, Option.some.injEq] at hfound
      exact hfound.2 ▸ hfound.1.1
    · contradiction
  induction t with
  | nil => contradiction
  | cons u t ih =>
    rw [declarations] at h
    split at h
    next hfound =>
      rcases List.mem_cons.1 h with rfl | h
      · exact hat hfound
      · exact ih h
    · exact ih h

namespace Pattern

theorem declarationAt?_opening (name : GroupName) (rest : Text) :
    declarationAt? (name.opening ++ rest) = some name.text := by
  have hname : ((name.text ++ greaterThan :: rest).takeWhile
      (fun u => Text.isLetter u || Text.isDigit u)) = name.text := by
    rw [List.takeWhile_append_of_pos (forall_isWord name.wellFormed), List.takeWhile_cons_of_neg
      (by decide), List.append_nil]
  have hafter : (name.text ++ greaterThan :: rest)[name.text.length]? = some greaterThan := by
    simp
  have hsplit : name.opening ++ rest =
      openParen :: questionMark :: lessThan :: (name.text ++ greaterThan :: rest) := by
    simp [GroupName.opening]
  rw [hsplit]
  show (if (isGroupName (List.takeWhile _ _) && _[(List.takeWhile _ _).length]? == _) = true
    then some (List.takeWhile _ _) else none) = _
  rw [hname, hafter, name.wellFormed]
  rfl

/-- A declaration is found wherever it stands. -/
theorem mem_declarations_of_infix {name : GroupName} {t : Text} (h : name.opening <:+: t) :
    name.text ∈ declarations t := by
  obtain ⟨before, after, rfl⟩ := h
  induction before with
  | nil =>
    have hat := declarationAt?_opening name after
    rw [List.nil_append]
    rw [GroupName.opening, List.cons_append] at hat ⊢
    rw [declarations, hat]
    exact List.mem_cons_self
  | cons u before ih =>
    rw [List.cons_append, List.cons_append, declarations]
    split
    · exact List.mem_cons_of_mem _ ih
    · exact ih

/-- The opening of a named group stands in the text. -/
theorem opening_infix_expression {p : Pattern} {g : Capturing} {name : GroupName}
    (hg : g ∈ p.capturing) (hname : g.name = some name) : name.opening <:+: p.expression := by
  induction p using induct with
  | sequence first others hfirst hothers =>
    rw [capturing, capturingAll_eq_flatMap] at hg
    rw [expression, expressions_eq_flatMap]
    rcases List.mem_append.1 hg with hg | hg
    · exact (hfirst hg).trans (List.prefix_append _ _).isInfix
    · obtain ⟨q, hq, hg⟩ := List.mem_flatMap.1 hg
      have hpart : q.expression <:+: others.flatMap expression := by
        rw [List.flatMap_def]
        exact List.infix_of_mem_flatten (List.mem_map_of_mem hq)
      exact ((hothers q hq hg).trans hpart).trans (List.suffix_append _ _).isInfix
  | repeated body q hbody =>
    have hinner : body.expression <:+: q.apply body.expression := by
      rw [q.apply_eq]
      split
      · exact ⟨[openParen, questionMark, colon], closeParen :: q.suffix, by simp [grouped]⟩
      · exact (List.prefix_append _ _).isInfix
    exact (hbody hg).trans hinner
  | group body hbody =>
    rcases List.mem_cons.1 hg with rfl | hg
    · contradiction
    · exact (hbody hg).trans ⟨[openParen], [closeParen], rfl⟩
  | namedGroup given body hbody =>
    rcases List.mem_cons.1 hg with rfl | hg
    · obtain rfl := Option.some.inj hname
      exact ⟨[], body.expression ++ [closeParen], by simp⟩
    · exact (hbody hg).trans ⟨given.opening, [closeParen], rfl⟩
  | literal | either | anyUnit | shorthand | anchor | charClass | charRange | multiRange
  | backreference => contradiction

theorem mem_declarations_of_mem_groupNames {p : Pattern} {name : Text} (h : name ∈ p.groupNames) :
    name ∈ declarations p.expression := by
  obtain ⟨g, hg, hgiven⟩ := List.mem_filterMap.1 h
  obtain ⟨given, hname, rfl⟩ := Option.map_eq_some_iff.1 hgiven
  exact mem_declarations_of_infix (opening_infix_expression hg hname)

end Pattern

/-! ## Undeclared names -/

/-- Of equal names the first is kept. -/
theorem firstOccurrences_eq_eraseDups (names : List Text) :
    Text.firstOccurrences names = names.eraseDups := by
  -- Names that have been seen are not kept again, and stand before all others.
  have hfold : ∀ (names seen : List Text),
      names.foldl (fun seen n => if seen.contains n then seen else seen ++ [n]) seen =
        seen ++ (names.filter (fun n => !seen.contains n)).eraseDups := by
    intro names
    induction names with
    | nil => simp
    | cons n names ih =>
      intro seen
      rw [List.foldl_cons, ih]
      cases hseen : seen.contains n with
      | true =>
        rw [if_pos rfl, List.filter_cons_of_neg (by rw [hseen]; decide)]
      | false =>
        rw [if_neg (by decide), List.filter_cons_of_pos (by rw [hseen]; rfl), List.eraseDups_cons,
          List.filter_filter, List.append_assoc, List.singleton_append]
        congr 3
        refine List.filter_congr (fun name _ => ?_)
        rw [List.contains_append, List.contains_cons, List.contains_nil, Bool.or_false,
          Bool.not_or, Bool.and_comm]
  rw [Text.firstOccurrences, hfold, List.nil_append]
  congr 1
  exact List.filter_eq_self.2 (fun _ _ => rfl)

theorem mem_firstOccurrences {names : List Text} {name : Text} :
    name ∈ Text.firstOccurrences names ↔ name ∈ names := by
  rw [firstOccurrences_eq_eraseDups, List.mem_eraseDups]

theorem undeclaredName?_eq_none {source : Text} :
    undeclaredName? source = none ↔
      ∀ name ∈ NameScan.references source, name ∈ declarations source := by
  rw [undeclaredName?, List.find?_eq_none]
  simp only [referencedNames, declaredNames, mem_firstOccurrences, Bool.not_eq_true',
    Bool.not_eq_false, List.contains_iff_mem]

namespace Pattern

theorem greaterThan_not_mem_of_isGroupName {name : Text} (h : isGroupName name = true) :
    greaterThan ∉ name := by
  intro hmem
  have hword := forall_isWord h greaterThan hmem
  revert hword
  decide

theorem RefersByGroupNames.plain {p : Pattern} (hp : p.RefersByGroupNames) :
    ∀ name ∈ p.references, greaterThan ∉ name.text :=
  fun name hname => greaterThan_not_mem_of_isGroupName (hp name hname)

/-- Every name that the text of a consistent pattern refers to is declared in it. -/
theorem Consistent.undeclaredName?_expression {p : Pattern} (hp : p.Consistent) :
    undeclaredName? p.expression = none := by
  rw [undeclaredName?_eq_none]
  intro name hname
  obtain ⟨reference, hreference, rfl⟩ :=
    (mem_references_of_plain hp.refersByGroupNames.plain).1 hname
  exact mem_declarations_of_mem_groupNames (hp.declared reference hreference)

end Pattern

end PatternAlgebra
