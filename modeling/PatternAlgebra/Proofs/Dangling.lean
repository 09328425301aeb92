import PatternAlgebra.Proofs.Compilation
import PatternAlgebra.Proofs.Scanning

/-!
# References without a group

A reference to a name that no group has is refused as long as the scan for names does not come upon
the name elsewhere, in a class or in another reference. If it does, the engine still refuses the
reference, provided that the pattern has any named group. Without one the engine reads references as
plain text, and the pattern compiles as if it held that text (`dangling_refused`). A name that holds
a `>` is read up to there only, so such names are left out where the engine decides.
-/

namespace PatternAlgebra

open NameScan

/-! ## References in tokens -/

/-- Tokens that can be read refer to names that are known. -/
theorem Reading.isSome_of_run {resolve : Text → Option Nat} {ts : List Token} {r next : Reading}
    (h : r.run resolve ts = .ok next) {name : Text} (hname : .reference name ∈ ts) :
    (resolve name).isSome = true := by
  induction ts generalizing r with
  | nil => contradiction
  | cons t ts ih =>
    obtain ⟨mid, hstep, hrest⟩ := run_cons_eq_ok.1 h
    rcases List.mem_cons.1 hname with rfl | hname
    · obtain ⟨index, hindex, -⟩ := step_reference_eq_ok.1 hstep
      exact Option.isSome_of_eq_some hindex
    · exact ih hrest hname

/-- Tokens that refer to a name that none of their groups has are refused. -/
theorem Program.ofTokens_unknown {ts : List Token} {name : Text} (hname : .reference name ∈ ts)
    (hnone : name ∉ (numberedNames 0 ts).map Prod.fst) : ∃ e, ofTokens ts = .error e := by
  cases hread : ofTokens ts with
  | error e => exact ⟨e, rfl⟩
  | ok p =>
    obtain ⟨hnames, -, level, hrun, -⟩ := ofTokens_eq_ok.1 hread
    obtain ⟨index, hindex⟩ := Option.isSome_iff_exists.1 (Reading.isSome_of_run hrun hname)
    obtain ⟨before, after, hsplit, -⟩ := List.lookup_eq_some_iff.1 hindex
    refine absurd ?_ hnone
    rw [← hnames, hsplit, List.map_append]
    exact List.mem_append_right _ List.mem_cons_self

namespace Pattern

variable {p : Pattern}

theorem reference_mem_tokens {name : ReferenceName} (hname : name ∈ p.references) :
    .reference name.text ∈ p.tokens true := by
  induction p using inductParts (Q := fun ps => name ∈ referencesAll ps →
      .reference name.text ∈ tokensAll true ps) with
  | sequence first others hparts => exact hparts hname
  | repeated body q hbody =>
    rw [tokens, groupedTokens]
    refine List.mem_append_left _ ?_
    split
    · exact List.mem_cons_of_mem _ (List.mem_append_left _ (hbody hname))
    · exact hbody hname
  | group body hbody | namedGroup given body hbody =>
    exact List.mem_cons_of_mem _ (List.mem_append_left _ (hbody hname))
  | backreference given =>
    obtain rfl := List.mem_singleton.1 hname
    exact List.mem_singleton_self _
  | nil => contradiction
  | cons q qs hq hqs hname =>
    rcases List.mem_append.1 hname with hname | hname
    · exact List.mem_append_left _ (hq hname)
    · exact List.mem_append_right _ (hqs hname)
  | literal | either | anyUnit | shorthand | anchor | charClass | charRange | multiRange =>
    contradiction

/-! ## Refusal by the engine -/

/-- With a named group in the pattern the engine refuses a reference to a name that no group has. -/
theorem parse_dangling (hp : p.RefersByGroupNames) (hnamed : p.groupNames ≠ [])
    {name : ReferenceName} (hname : name ∈ p.references) (hdangling : name.text ∉ p.groupNames)
    (scope : Scope) : ∃ e, Program.parse (engineText scope p.expression) = .error e := by
  have htokens : tokenize (engineText .anywhere p.expression) = .ok (p.tokens true) := by
    rw [tokenize_expression hp, List.isEmpty_eq_false_iff.2 hnamed]
    rfl
  have hmem := reference_mem_tokens hname
  have hnone : name.text ∉ (numberedNames 0 (p.tokens true)).map Prod.fst := by
    rw [numberedNames_tokens_eq, map_fst_namesFrom]
    exact hdangling
  cases scope with
  | anywhere =>
    rw [Program.parse, htokens]
    exact Program.ofTokens_unknown hmem hnone
  | wholeInput =>
    have hspanning : tokenize (engineText .wholeInput p.expression) =
        .ok (Program.spanningTokens (p.tokens true)) := Program.tokenize_spanning htokens
    rw [Program.parse, hspanning]
    rw [← Program.numberedNames_spanningTokens] at hnone
    exact Program.ofTokens_unknown
      (List.mem_append_right _ (List.mem_cons_of_mem _ (List.mem_append_left _ hmem))) hnone

/-! ## References that are read as text -/

/-- The tokens of a pattern whose references are plain text add items, whatever names are known. -/
theorem exists_adds_tokens (resolve : Text → Option Nat) (hp : p.RefersByGroupNames) :
    ∃ items, Adds resolve (p.tokens false) items p.groupCount := by
  induction p using inductParts (Q := fun ps =>
      (∀ name ∈ referencesAll ps, isGroupName name.text = true) →
        ∃ items, Adds resolve (tokensAll false ps) items (capturingAll ps).length) with
  | literal t => exact ⟨_, adds_literal resolve t⟩
  | either first others => exact ⟨_, adds_choice resolve first others⟩
  | sequence first others hparts => exact hparts hp
  | repeated body q hbody =>
    obtain ⟨items, h⟩ := hbody hp
    exact ⟨_, adds_behind hp h q.groups_of_needsGrouping q.quantifiersApply_tokens⟩
  | anyUnit | shorthand | charClass | charRange | multiRange => exact ⟨_, .one _⟩
  | anchor a => exact ⟨_, adds_anchor resolve a⟩
  | group body hbody =>
    obtain ⟨items, h⟩ := hbody hp
    exact ⟨_, h.encloses.captured none⟩
  | namedGroup name body hbody =>
    obtain ⟨items, h⟩ := hbody hp
    exact ⟨_, h.encloses.captured (some name.text)⟩
  | backreference name => exact ⟨_, adds_literal resolve _⟩
  | nil => exact ⟨_, .nil⟩
  | cons q qs hq hqs hnames =>
    obtain ⟨hown, hrest⟩ := List.forall_mem_append.1 hnames
    obtain ⟨items, h⟩ := hq hown
    obtain ⟨others, hothers⟩ := hqs hrest
    rw [capturingAll, List.length_append]
    exact ⟨_, h.append hothers⟩

/-- Without a named group the engine reads references as text. -/
theorem parse_unread (hp : p.RefersByGroupNames) (hnone : p.groupNames = []) :
    ∃ program, Program.parse (engineText .anywhere p.expression) = .ok program := by
  have htokens : tokenize (engineText .anywhere p.expression) = .ok (p.tokens false) := by
    rw [tokenize_expression hp, hnone]
    rfl
  have hnames : numberedNames 0 (p.tokens false) = [] := by
    rw [numberedNames_tokens_eq]
    exact List.map_eq_nil_iff.1 ((map_fst_namesFrom 0 p).trans hnone)
  obtain ⟨items, hitems⟩ :=
    exists_adds_tokens ((numberedNames 0 (p.tokens false)).lookup ·) hp
  rw [Program.parse, htokens]
  exact ⟨_, Program.ofTokens_of_adds (by rw [hnames]; rfl) hitems⟩

/-! ## Refused patterns -/

/-- The pattern does not compile, and nothing that is asked of it has an answer, unless no input is
given. -/
structure Refused (p : Pattern) : Prop where
  compiled : ∀ scope, ∃ e, compile scope p.expression = .error e
  displayed : ∀ options, ∃ e, Source.displayed p.expression options = .error e
  occursIn : ∀ input options, ∃ e, p.occursIn (some input) options = .error e
  spans : ∀ input options, ∃ e, p.spans (some input) options = .error e
  extracted : ∀ input options, ∃ e, p.extract (some input) options = .error e
  reported : ∀ cases options, cases ≠ [] → ∃ e, Report.run p.expression cases options = .error e

theorem refused_of_compile (h : ∀ scope, ∃ e, compile scope p.expression = .error e) :
    p.Refused := by
  obtain ⟨anywhere, hanywhere⟩ := h .anywhere
  obtain ⟨wholeInput, hwholeInput⟩ := h .wholeInput
  constructor
  · exact h
  · intro options
    rw [Source.displayed, hanywhere]
    exact ⟨_, rfl⟩
  · intro input options
    rw [occursIn, Source.occursIn, hanywhere]
    exact ⟨_, rfl⟩
  · intro input options
    rw [spans, Source.spans, hwholeInput]
    exact ⟨_, rfl⟩
  · intro input options
    rw [extract, Source.extract, hanywhere]
    exact ⟨_, rfl⟩
  · intro cases options hcases
    exact ⟨_, Report.run_of_refused hanywhere hcases⟩

/-- A name that is read and not found in the text is refused before the engine reads anything. -/
theorem refused_of_undeclared {name : ReferenceName} (hname : name ∈ p.references)
    (hnone : name.readText ∉ p.scannedNames) : p.Refused := by
  refine refused_of_compile (fun scope => ?_)
  cases hundeclared : undeclaredName? p.expression with
  | none =>
    have hread := mem_references_expression.2 ⟨name, hname, name.readText_mem_references⟩
    have hfound := undeclaredName?_eq_none.1 hundeclared name.readText hread
    rw [declarations_expression] at hfound
    contradiction
  | some found =>
    rw [compile, hundeclared]
    exact ⟨_, rfl⟩

theorem refersByGroupNames_of_scanned (h : ∀ name ∈ p.references, name.text ∈ p.scannedNames) :
    p.RefersByGroupNames := by
  intro name hname
  have hscanned := h name hname
  rw [← declarations_expression] at hscanned
  exact isGroupName_of_mem_declarations hscanned

/-- A pattern that compiles refers to names that a group can have, as long as they hold no `>`. -/
theorem refersByGroupNames_of_compile (hplain : ∀ name ∈ p.references, greaterThan ∉ name.text)
    {scope : Scope} {program : Program} (h : compile scope p.expression = .ok program) :
    p.RefersByGroupNames := by
  obtain ⟨hundeclared, -⟩ := compile_eq_ok.1 h
  refine refersByGroupNames_of_scanned (fun name hname => ?_)
  have hread := (mem_references_of_plain hplain).2 ⟨name, hname, rfl⟩
  have hfound := undeclaredName?_eq_none.1 hundeclared name.text hread
  rwa [declarations_expression] at hfound

/-- A pattern that refers to a name of no group is refused if a name is read that its text does not
declare. Where names hold no `>`, it is refused as well if it has a named group; and if it has none,
and all names that it refers to are spelled in its text, it compiles. -/
theorem dangling_refused (hdangling : ∃ name ∈ p.references, name.text ∉ p.groupNames) :
    ((∃ name ∈ p.references, name.readText ∉ p.scannedNames) → p.Refused) ∧
      ((∀ name ∈ p.references, greaterThan ∉ name.text) →
        (p.groupNames ≠ [] → p.Refused) ∧
          (p.groupNames = [] → (∀ name ∈ p.references, name.text ∈ p.scannedNames) →
            ∀ scope, ∃ program, compile scope p.expression = .ok program)) := by
  refine ⟨fun ⟨name, hname, hnone⟩ => refused_of_undeclared hname hnone, fun hplain => ⟨?_, ?_⟩⟩
  · intro hnamed
    by_cases hscanned : ∀ name ∈ p.references, name.text ∈ p.scannedNames
    · obtain ⟨name, hname, hnone⟩ := hdangling
      refine refused_of_compile (fun scope => ?_)
      obtain ⟨e, hparse⟩ :=
        parse_dangling (refersByGroupNames_of_scanned hscanned) hnamed hname hnone scope
      rw [compile]
      split
      · exact ⟨_, rfl⟩
      · rw [hparse]
        exact ⟨_, rfl⟩
    · obtain ⟨name, hname, hnone⟩ : ∃ name ∈ p.references, name.text ∉ p.scannedNames := by
        simpa using hscanned
      rw [← ReferenceName.readText_eq (hplain name hname)] at hnone
      exact refused_of_undeclared hname hnone
  · intro hnone hscanned
    obtain ⟨program, hparse⟩ := parse_unread (refersByGroupNames_of_scanned hscanned) hnone
    have hundeclared : undeclaredName? p.expression = none := by
      rw [undeclaredName?_eq_none]
      intro found hfound
      obtain ⟨name, hname, rfl⟩ := (mem_references_of_plain hplain).1 hfound
      rw [declarations_expression]
      exact hscanned name hname
    have hcompile : compile .anywhere p.expression = .ok program := by
      rw [compile, hundeclared]
      show (Program.parse (engineText .anywhere p.expression)).mapError _ = _
      rw [hparse]
      rfl
    intro scope
    cases scope with
    | anywhere => exact ⟨_, hcompile⟩
    | wholeInput => exact ⟨_, PatternAlgebra.compile_wholeInput hcompile⟩

/-- A class that spells the opening of a group, another group, and a reference to the first. -/
def misspelled : Pattern :=
  sequence (charClass false (utf16 "(?<word>"))
    [namedGroup ⟨utf16 "digit", by decide⟩ (shorthand .digit),
      backreference ⟨utf16 "word", by decide⟩]

theorem misspelled_refused :
    (∃ name ∈ misspelled.references, name.text ∉ misspelled.groupNames) ∧
      (∀ name ∈ misspelled.references, greaterThan ∉ name.text) ∧ misspelled.groupNames ≠ [] ∧
      misspelled.Refused := by
  have hdangling : ∃ name ∈ misspelled.references, name.text ∉ misspelled.groupNames :=
    ⟨_, List.mem_singleton_self _, by decide⟩
  have hplain : ∀ name ∈ misspelled.references, greaterThan ∉ name.text := by decide
  have hnamed : misspelled.groupNames ≠ [] := by decide
  exact ⟨hdangling, hplain, hnamed, ((dangling_refused hdangling).2 hplain).1 hnamed⟩

/-- A class that spells the opening of a group, and a reference to it. -/
def spelled : Pattern :=
  sequence (charClass false (utf16 "(?<word>")) [backreference ⟨utf16 "word", by decide⟩]

/-- A group, and a reference to a name that goes on behind a `>`. -/
def cutShort : Pattern :=
  sequence (namedGroup ⟨utf16 "word", by decide⟩ (shorthand .digit))
    [backreference ⟨utf16 "word>b", by decide⟩]

/-- Two patterns that refer to a name of no group and match an input nevertheless. -/
theorem dangling_spans :
    (∃ name ∈ spelled.references, name.text ∉ spelled.groupNames) ∧
      spelled.spans (some (utf16 "<k<word>")) {} = .ok true ∧
      (∃ name ∈ cutShort.references, name.text ∉ cutShort.groupNames) ∧
      cutShort.spans (some (utf16 "11b>")) {} = .ok true := by
  refine ⟨⟨_, List.mem_singleton_self _, by decide⟩, ?_,
    ⟨_, List.mem_singleton_self _, by decide⟩, ?_⟩
  · decide +kernel
  · decide +kernel

end Pattern

end PatternAlgebra
