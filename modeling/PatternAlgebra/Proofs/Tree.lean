import PatternAlgebra.Proofs.Captures
import PatternAlgebra.Proofs.Parsing

/-!
# The tree that a pattern's text stands for

The text of a consistent pattern is read as exactly the tree that the pattern means, provided that
its counts are written exactly and that a counted body between square brackets is a single class.
Without the first proviso a count may be read as plain text, and without the second a quantifier may
apply to a part of its body only.
-/

namespace PatternAlgebra

/-- The counts of a quantifier. -/
def Quantifier.counts (q : Quantifier) : List Nat := q.least :: q.most?.toList

namespace Pattern

/-- A class of units written in square brackets. -/
def isClass : Pattern → Bool
  | charClass _ _ | charRange _ | multiRange _ _ => true
  | _ => false

/-- Counts below `2 ^ 53`, and counted bodies between square brackets that have the text of a single
class. -/
structure Faithful (p : Pattern) : Prop where
  exact : ∀ r ∈ p.repetitions, ∀ n ∈ r.2.counts, n < 2 ^ 53
  single : ∀ r ∈ p.repetitions, r.2.inner?.isSome → r.1.expression.head? = some openBracket →
    r.1.expression.getLast? = some closeBracket →
    ∃ c, isClass c = true ∧ r.1.expression = c.expression

theorem faithful_of_isClass {p : Pattern}
    (hexact : ∀ r ∈ p.repetitions, ∀ n ∈ r.2.counts, n < 2 ^ 53)
    (hclass : ∀ r ∈ p.repetitions, r.2.inner?.isSome → r.1.expression.head? = some openBracket →
      r.1.isClass = true) : p.Faithful :=
  ⟨hexact, fun r hr hcounted hhead _ => ⟨r.1, hclass r hr hcounted hhead, rfl⟩⟩

theorem repetitionsAll_eq_flatMap (ps : List Pattern) :
    repetitionsAll ps = ps.flatMap repetitions := by
  induction ps with
  | nil => rfl
  | cons p ps ih => rw [repetitionsAll, ih, List.flatMap_cons]

/-- What is repeated refers to nothing that the pattern does not refer to. -/
theorem references_subset_of_mem_repetitions {p : Pattern} {r : Pattern × Quantifier}
    (h : r ∈ p.repetitions) : r.1.references ⊆ p.references := by
  induction p using induct with
  | sequence first others hfirst hothers =>
    rw [repetitions, repetitionsAll_eq_flatMap] at h
    rw [references, referencesAll_eq_flatMap]
    rcases List.mem_append.1 h with h | h
    · exact fun name hname => List.mem_append_left _ (hfirst h hname)
    · obtain ⟨q, hq, h⟩ := List.mem_flatMap.1 h
      exact fun name hname =>
        List.mem_append_right _ (List.mem_flatMap.2 ⟨q, hq, hothers q hq h hname⟩)
  | repeated body q hbody =>
    rcases List.mem_cons.1 h with rfl | h
    · exact fun _ hname => hname
    · exact hbody h
  | group body hbody | namedGroup name body hbody => exact hbody h
  | literal | either | anyUnit | shorthand | anchor | charClass | charRange | multiRange
  | backreference => contradiction

/-- Two ways to read quantifiers that agree on the repetitions of a pattern give it the same items. -/
theorem items_congr {rep rep' : Repetition} {index : Text → Nat} {p : Pattern}
    (h : ∀ r ∈ p.repetitions, ∀ n,
      rep r.2 r.1 (r.1.items rep index n) = rep' r.2 r.1 (r.1.items rep index n)) (n : Nat) :
    p.items rep index n = p.items rep' index n := by
  induction p using inductParts (Q := fun ps =>
      (∀ r ∈ repetitionsAll ps, ∀ n,
        rep r.2 r.1 (r.1.items rep index n) = rep' r.2 r.1 (r.1.items rep index n)) →
      ∀ n, itemsAll rep index n ps = itemsAll rep' index n ps) generalizing n with
  | sequence first others hparts => exact hparts h n
  | repeated body q hbody =>
    rw [items, items, ← hbody (fun r hr => h r (List.mem_cons_of_mem _ hr))]
    exact h (body, q) List.mem_cons_self n
  | group body hbody | namedGroup name body hbody => simp [hbody h]
  | literal | either | anyUnit | shorthand | anchor | charClass | charRange | multiRange
  | backreference | nil => rfl
  | cons q qs hq hqs h n =>
    obtain ⟨hown, hrest⟩ := List.forall_mem_append.1 h
    simp [hq hown, hqs hrest]

end Pattern

/-! ## Quantifiers that are read as they are meant -/

namespace Quantifier

/-- Counts that are written exactly make one quantifier. -/
theorem tokens_of_exact {q : Quantifier} (h : ∀ n ∈ q.counts, n < 2 ^ 53) :
    q.tokens = [.quantifier q.least q.most?] := by
  have hleast : q.least < 2 ^ 53 := h _ List.mem_cons_self
  have hmost : ∀ n, q.most? = some n → n < 2 ^ 53 :=
    fun n hn => h n (List.mem_cons_of_mem _ (Option.mem_toList.2 hn))
  have hbraces : ∀ inner, q.inner? = some inner →
      bracesTokens inner = [.quantifier q.least q.most?] := by
    intro inner hinner
    rcases inner_cases hinner with ⟨least, most, hread, -, hexact⟩ | ⟨-, ⟨n, hn, hbig⟩ | hbig⟩
    · obtain ⟨rfl, rfl⟩ := hexact hmost hleast
      exact bracesTokens_of_counts hread
    · exact absurd (hmost n hn) (Nat.not_lt.2 hbig)
    · exact absurd hleast (Nat.not_lt.2 hbig)
  cases q with
  | optional | oneOrMore | zeroOrMore => rfl
  | exactly | between | atLeast => exact hbraces _ rfl

/-- Such a quantifier is read as it is meant, unless it stands without a group behind several items. -/
theorem asRead_eq_asMeant {q : Quantifier} {body : Pattern} {items : List Regex}
    (hexact : ∀ n ∈ q.counts, n < 2 ^ 53)
    (hsingle : q.groups body.expression = false → ∃ r, items = [r]) :
    q.asRead body items = q.asMeant body items := by
  rw [asRead, asMeant, tokens_of_exact hexact]
  split
  · rfl
  next hg =>
    obtain ⟨r, rfl⟩ := hsingle (by simpa using hg)
    rfl

end Quantifier

/-- Tokens add the same items wherever they stand. -/
theorem Adds.items_unique {resolve : Text → Option Nat} {ts : List Token}
    {i j : Nat → List Regex} {m n : Nat} (hi : Adds resolve ts i m) (hj : Adds resolve ts j n) :
    i = j := by
  funext k
  have hreadings := Except.ok.inj ((hi ⟨{}, [], k⟩).symm.trans (hj ⟨{}, [], k⟩))
  have hitems : (i k).reverse ++ [] = (j k).reverse ++ [] :=
    congrArg (fun r => r.level.items) hreadings
  rwa [List.append_nil, List.append_nil, List.reverse_inj] at hitems

theorem Adds.items_of_atomTokens {resolve : Text → Option Nat} {ts : List Token}
    {items : Nat → List Regex} {count : Nat} (h : Adds resolve ts items count)
    (hts : Pattern.AtomTokens ts) : ∃ r, ∀ n, items n = [r] := by
  rcases hts with ⟨set, rfl⟩ | ⟨a, rfl⟩
  · exact ⟨_, fun n => congrFun (h.items_unique (.one set)) n⟩
  · exact ⟨_, fun n => congrFun (h.items_unique (Adds.assertion a).encloses.grouped) n⟩

namespace Pattern

theorem atomTokens_of_isClass {named : Bool} {c : Pattern} (hc : c.isClass = true) :
    AtomTokens (c.tokens named) := by
  cases c with
  | charClass | charRange | multiRange => exact .inl ⟨_, rfl⟩
  | literal | either | sequence | repeated | anyUnit | shorthand | anchor | group | namedGroup
  | backreference => contradiction

theorem refersByGroupNames_of_isClass {c : Pattern} (hc : c.isClass = true) :
    c.RefersByGroupNames := by
  cases c with
  | charClass | charRange | multiRange => exact fun _ hname => nomatch hname
  | literal | either | sequence | repeated | anyUnit | shorthand | anchor | group | namedGroup
  | backreference => contradiction

/-- Where no group is put around a text, its tokens are those of a single atom, provided that text
between square brackets is that of a class. -/
theorem atomTokens_of_not_needsGrouping {named : Bool} {p : Pattern} (hp : p.RefersByGroupNames)
    (hclass : p.expression.head? = some openBracket → p.expression.getLast? = some closeBracket →
      ∃ c, isClass c = true ∧ p.expression = c.expression)
    (h : needsGrouping p.expression = false) : AtomTokens (p.tokens named) := by
  rcases not_needsGrouping h with hstop | ⟨u, hescaped⟩ | hbracketed
  · exact atomTokens_of_fullStop hp hstop
  · exact atomTokens_of_escaped hp hescaped
  · obtain ⟨c, hc, htext⟩ := hclass hbracketed.first hbracketed.last
    rw [tokens_eq_of_expression_eq hp (refersByGroupNames_of_isClass hc) htext]
    exact atomTokens_of_isClass hc

theorem Consistent.readItems_of_atomTokens {p : Pattern} (hp : p.Consistent)
    (h : AtomTokens (p.tokens true)) : ∃ r, p.readItems = [r] := by
  obtain ⟨r, hr⟩ := hp.adds_readItems.items_of_atomTokens h
  exact ⟨r, hr 0⟩

theorem Faithful.atomTokens {p : Pattern} (hf : p.Faithful) (hp : p.RefersByGroupNames)
    {r : Pattern × Quantifier} (hr : r ∈ p.repetitions) (hg : r.2.groups r.1.expression = false) :
    AtomTokens (r.1.tokens true) := by
  have hbody : r.1.RefersByGroupNames :=
    fun name hname => hp name (references_subset_of_mem_repetitions hr hname)
  rw [Quantifier.groups, Bool.or_eq_false_iff, Option.isNone_eq_false_iff] at hg
  exact atomTokens_of_not_needsGrouping hbody (hf.single r hr hg.1) hg.2

/-- The text of such a pattern is read as the pattern means it. -/
theorem Faithful.items_eq {p : Pattern} (hf : p.Faithful) (hp : p.RefersByGroupNames)
    (index : Text → Nat) (n : Nat) :
    p.items Quantifier.asRead index n = p.items Quantifier.asMeant index n := by
  refine items_congr (fun r hr k => ?_) n
  refine Quantifier.asRead_eq_asMeant (hf.exact r hr) (fun hg => ?_)
  have hadds : Adds (fun name => some (index name)) (r.1.tokens true) _ _ :=
    adds_tokens (fun name hname => hp name (references_subset_of_mem_repetitions hr hname))
      (fun _ _ => rfl)
  obtain ⟨item, hitem⟩ := hadds.items_of_atomTokens (hf.atomTokens hp hr hg)
  exact ⟨item, hitem k⟩

/-- The text of a consistent and faithful pattern is read as exactly the tree that the pattern means.
The groups of that tree are those of the pattern in the order in which they open, and a name refers
to the group that has it. -/
theorem parse_eq_tree {p : Pattern} (hp : p.Consistent) (hf : p.Faithful) :
    Program.parse (engineText .anywhere p.expression) =
        .ok ⟨p.tree, p.namesFrom 0, p.groupCount⟩ ∧
      p.tree.captures =
        (p.capturing.zipIdx 1).map (numberedCapture Quantifier.asMeant p.groupNumber) ∧
      ∀ name ∈ p.references, ∃ g given, (g, p.groupNumber name.text) ∈ p.capturing.zipIdx 1 ∧
        g.name = some given ∧ given.text = name.text := by
  refine ⟨?_, ?_, fun name => hp.groupNumber_spec⟩
  · rw [parse_anywhere hp, readItems, hf.items_eq hp.refersByGroupNames]
    rfl
  · rw [tree, Regex.captures_sequenceOf, captures_items Quantifier.asMeant_keepsCaptures]

/-- The count three. -/
def three : Count := ⟨⟨0x4008000000000000⟩, 3, by decide⟩

/-- A class of units with a meaning, a choice with an empty text in it, an anchor and a reference,
all of them repeated, some in groups. -/
def nested : Pattern :=
  sequence
    (namedGroup ⟨utf16 "a", by decide⟩ (repeated (charClass false (utf16 "]^-\\")) (.exactly three)))
    [group (repeated (group (either (utf16 "(") [[], utf16 "|?"])) .zeroOrMore),
      repeated (anchor .inputStart) (.atLeast three),
      repeated (backreference ⟨utf16 "a", by decide⟩) .optional]

theorem nested_parses :
    nested.Consistent ∧ nested.Faithful ∧
      Program.parse (engineText .anywhere nested.expression) =
        .ok ⟨nested.tree, nested.namesFrom 0, nested.groupCount⟩ := by
  have hp : nested.Consistent := ⟨by decide, by decide⟩
  have hf : nested.Faithful := faithful_of_isClass (by decide) (by decide)
  exact ⟨hp, hf, (parse_eq_tree hp hf).1⟩

end Pattern

end PatternAlgebra
