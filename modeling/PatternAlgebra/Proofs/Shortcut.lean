import PatternAlgebra.Proofs.Compilation
import PatternAlgebra.Proofs.Tree

/-!
# Quantifiers without a group

A counted quantifier goes behind a text without a group where a textual test takes the text for one
atom. The test is exact but for texts in square brackets on one line that consist of several terms:
there the quantifier applies to the last term only (`shortcut_exact`). The counts are any digits with
bounds in order, leading zeros included. How the terms are repeated is not a matter of this test.
-/

namespace PatternAlgebra

open Lowering

/-! ## Counts as they are written -/

/-- Decimal digits, one or more. -/
structure DigitText where
  units : Text
  nonempty : units ≠ []
  digits : units.all Text.isDigit = true

namespace DigitText

/-- The number that the digits stand for. -/
def value (d : DigitText) : Nat := d.units.foldl (fun n u => 10 * n + (u.toNat - 0x30)) 0

theorem digitsFrom_append {t rest : Text} (ht : t.all Text.isDigit = true)
    (hrest : endsNumber rest = true) (n : Nat) :
    digitsFrom n (t ++ rest) = (t.foldl (fun n u => 10 * n + (u.toNat - 0x30)) n, rest) := by
  induction t generalizing n with
  | nil => exact digitsFrom_of_endsNumber hrest n
  | cons u t ih =>
    rw [List.all_cons, Bool.and_eq_true] at ht
    rw [List.cons_append, digitsFrom_digit ht.1]
    exact ih ht.2 _

theorem exists_cons (d : DigitText) : ∃ u t, d.units = u :: t ∧ Text.isDigit u = true := by
  obtain ⟨units, hne, hdigits⟩ := d
  cases units with
  | nil => exact absurd rfl hne
  | cons u t =>
    rw [List.all_cons, Bool.and_eq_true] at hdigits
    exact ⟨u, t, rfl, hdigits.1⟩

theorem number?_append (d : DigitText) {rest : Text} (hrest : endsNumber rest = true) :
    number? (d.units ++ rest) = some (d.value, rest) := by
  have hread := digitsFrom_append d.digits hrest 0
  obtain ⟨u, t, hunits, hu⟩ := d.exists_cons
  rw [value]
  rw [hunits] at hread ⊢
  rw [List.cons_append, digitsFrom_digit hu, Nat.mul_zero, Nat.zero_add] at hread
  rw [List.cons_append, number?, if_pos hu, hread]

end DigitText

/-- The counts of a counted quantifier as they are written, bounds in order. -/
inductive WrittenCounts where
  | exactly (count : DigitText)
  | atLeast (count : DigitText)
  | between (least most : DigitText) (ordered : least.value ≤ most.value)

namespace WrittenCounts

/-- What stands between the braces. -/
def inner : WrittenCounts → Text
  | exactly count => count.units
  | atLeast count => count.units ++ [comma]
  | between least most _ => least.units ++ comma :: most.units

/-- The text of the quantifier. -/
def text (q : WrittenCounts) : Text := braced q.inner

def least : WrittenCounts → Nat
  | exactly count | atLeast count => count.value
  | between least _ _ => least.value

def most? : WrittenCounts → Option Nat
  | exactly count => some count.value
  | atLeast _ => none
  | between _ most _ => some most.value

theorem counts?_inner (q : WrittenCounts) (rest : Text) :
    counts? (q.inner ++ closeBrace :: rest) = some ((q.least, q.most?), rest) := by
  cases q with
  | exactly count => exact counts?_of_closed (count.number?_append (endsNumber_closeBrace rest))
  | atLeast count =>
    rw [inner, List.append_assoc]
    exact counts?_of_open (count.number?_append (endsNumber_comma _))
  | between least most ordered =>
    have hmost := most.number?_append (endsNumber_closeBrace rest)
    have hleast := least.number?_append (endsNumber_comma (most.units ++ closeBrace :: rest))
    obtain ⟨u, t, hunits, hu⟩ := most.exists_cons
    rw [inner, List.append_assoc, List.cons_append]
    rw [hunits, List.cons_append] at hmost hleast ⊢
    exact counts?_of_between hleast (ne_closeBrace_of_isDigit hu) hmost

theorem countsInOrder_least (q : WrittenCounts) : countsInOrder q.least q.most? = true := by
  cases q with
  | exactly count => simp [countsInOrder, least, most?]
  | atLeast count => rfl
  | between least most ordered => simp [countsInOrder, WrittenCounts.least, most?, ordered]

/-- Counts in order are cut as one quantifier, whatever follows them. -/
theorem lexes (named : Bool) (q : WrittenCounts) :
    Lexes named q.text [.quantifier q.least q.most?] :=
  lexes_of_counts named q.counts?_inner q.countsInOrder_least

theorem inert_text (q : WrittenCounts) : Inert q.text := by
  have hdigits : ∀ d : DigitText, Inert d.units := by
    intro d
    apply Inert.of_forall_ne
    rintro u hu rfl
    have hdigit := List.all_eq_true.1 d.digits _ hu
    contradiction
  have hinner : Inert q.inner := by
    cases q with
    | exactly count => exact hdigits count
    | atLeast count => exact (hdigits count).append (.unit (by decide))
    | between least most ordered =>
      exact (hdigits least).append (.cons (by decide) (hdigits most))
  exact .cons (by decide) (hinner.append (.unit (by decide)))

end WrittenCounts

/-! ## Terms -/

/-- The terms of a text, in order: what stands in the last branch outside all brackets, each with the
quantifier behind it. -/
def Program.terms (t : Text) : Except SyntaxError (List Regex) :=
  (tokenize t).bind (fun ts =>
    (Reading.run ((numberedNames 0 ts).lookup ·) {} ts).map (fun r => r.level.items.reverse))

theorem Program.terms_of_adds {t : Text} {ts : List Token} {items : Nat → List Regex} {count : Nat}
    (htokens : tokenize t = .ok ts) (hitems : Adds ((numberedNames 0 ts).lookup ·) ts items count) :
    terms t = .ok (items 0) := by
  rw [terms, htokens]
  show Except.map _ (Reading.run _ {} ts) = _
  rw [hitems]
  show Except.ok ((items 0).reverse ++ []).reverse = _
  rw [List.append_nil, List.reverse_reverse]

/-! ## Putting a quantifier behind a pattern -/

theorem quantify_eq (t q : Text) :
    quantify t q = (if needsGrouping t then grouped t else t) ++ q := by
  unfold quantify
  split <;> rfl

namespace Pattern

variable {p : Pattern}

/-- The tokens of a pattern with a quantifier behind it. -/
def quantifiedTokens (named : Bool) (p : Pattern) (q : WrittenCounts) : List Token :=
  groupedTokens (needsGrouping p.expression) (p.tokens named) ++ [.quantifier q.least q.most?]

/-- The items of a pattern with a quantifier behind it: the quantifier takes the last one, which is
the whole if there is a group around it. -/
def quantifiedItems (p : Pattern) (q : WrittenCounts) : List Regex :=
  extendItems (if needsGrouping p.expression then [Regex.sequenceOf p.readItems] else p.readItems)
    (.quantifier q.least q.most?)

theorem lexes_quantify (named : Bool) (hp : p.RefersByGroupNames) (q : WrittenCounts) :
    Lexes named (lower (quantify p.expression q.text)) (p.quantifiedTokens named q) := by
  rw [quantify_eq, lower_behind p.endsQuoting_expression q.inert_text]
  exact lexes_behind (lexes_expression named hp) (q.lexes named) _

theorem numberedNames_quantifiedTokens (named : Bool) (p : Pattern) (q : WrittenCounts) :
    numberedNames 0 (p.quantifiedTokens named q) = p.namesFrom 0 := by
  have hqs : OpensNone [.quantifier q.least q.most?] := .cons (fun _ _ => rfl) .nil
  have hnames := numberedNames_behind (p.numberedNames_tokens named) hqs
    (needsGrouping p.expression) 0 []
  rwa [List.append_nil, numberedNames, List.append_nil] at hnames

theorem Consistent.tokenize_quantify (hp : p.Consistent) (q : WrittenCounts) :
    tokenize (engineText .anywhere (quantify p.expression q.text)) =
      .ok (p.quantifiedTokens true q) := by
  rw [engineText, tokenize_of_lexes (fun named => lexes_quantify named hp.refersByGroupNames q),
    numberedNames_quantifiedTokens, quantifiedTokens, hp.tokens_isEmpty]
  rfl

theorem Consistent.adds_quantifiedTokens (hp : p.Consistent) (q : WrittenCounts) :
    ∃ items, Adds ((p.namesFrom 0).lookup ·) (p.quantifiedTokens true q) items p.groupCount ∧
      items 0 = p.quantifiedItems q :=
  ⟨_, adds_behind hp.refersByGroupNames hp.adds_readItems id rfl, rfl⟩

/-- What a pattern with a quantifier behind it is read as. -/
theorem Consistent.parse_quantify (hp : p.Consistent) (q : WrittenCounts) :
    Program.parse (engineText .anywhere (quantify p.expression q.text)) =
        .ok { p.program with regex := Regex.sequenceOf (p.quantifiedItems q) } ∧
      Program.terms (engineText .anywhere (quantify p.expression q.text)) =
        .ok (p.quantifiedItems q) := by
  obtain ⟨items, hadds, hitems⟩ := hp.adds_quantifiedTokens q
  have hdistinct := hp.repeatedName?_eq_none
  rw [← numberedNames_quantifiedTokens true p q] at hadds hdistinct
  constructor
  · rw [Program.parse, hp.tokenize_quantify]
    show Program.ofTokens _ = _
    rw [Program.ofTokens_of_adds hdistinct hadds, hitems, numberedNames_quantifiedTokens]
    rfl
  · rw [Program.terms_of_adds (hp.tokenize_quantify q) hadds, hitems]

/-! ## One quantified term -/

theorem Consistent.terms_expression (hp : p.Consistent) :
    Program.terms (engineText .anywhere p.expression) = .ok p.readItems := by
  have hadds := hp.adds_readItems
  rw [← numberedNames_tokens_eq true] at hadds
  exact Program.terms_of_adds hp.tokenize_expression hadds

theorem Consistent.length_readItems_of_atomTokens (hp : p.Consistent)
    (h : AtomTokens (p.tokens true)) : p.readItems.length = 1 := by
  obtain ⟨r, hr⟩ := hp.readItems_of_atomTokens h
  rw [hr]
  rfl

/-- Where no group is put around a text there is something in it. -/
theorem Consistent.readItems_ne_nil (hp : p.Consistent) (h : needsGrouping p.expression = false) :
    p.readItems ≠ [] :=
  hp.adds_readItems.items_ne_nil
    (repeatableAfter_of_not_needsGrouping hp.refersByGroupNames h false) 0

/-- The quantifier takes the whole where there is a group, and else where there is one term. -/
theorem Consistent.quantifiedItems_eq_iff (hp : p.Consistent) (q : WrittenCounts) :
    p.quantifiedItems q = [.loop p.program.regex q.least q.most?] ↔
      needsGrouping p.expression = true ∨ p.readItems.length = 1 := by
  cases hgroups : needsGrouping p.expression with
  | true =>
    rw [quantifiedItems, if_pos hgroups]
    exact ⟨fun _ => .inl rfl, fun _ => rfl⟩
  | false =>
    have hne := hp.readItems_ne_nil hgroups
    obtain ⟨init, last, hitems⟩ : ∃ init last, p.readItems = init ++ [last] :=
      ⟨_, _, (List.dropLast_concat_getLast hne).symm⟩
    have hregex : p.program.regex = Regex.sequenceOf (init ++ [last]) := by
      rw [← hitems]
      rfl
    rw [quantifiedItems, hgroups, if_neg Bool.false_ne_true, hregex, hitems, extendItems_quantifier,
      List.length_append]
    cases init with
    | nil => exact ⟨fun _ => .inr rfl, fun _ => rfl⟩
    | cons first init => simp

/-- Brackets on one line with several terms are all that is left without a group wrongly. -/
theorem Consistent.groups_or_single_iff (hp : p.Consistent) :
    needsGrouping p.expression = true ∨ p.readItems.length = 1 ↔
      ¬(BracketedLine p.expression ∧ 1 < p.readItems.length) := by
  constructor
  · rintro (hgroups | hsingle) ⟨hline, hseveral⟩
    · -- Only the class without members is grouped, and that is a single term.
      have hclass : p.expression = (charClass false []).expression :=
        hline.eq_of_needsGrouping hgroups
      have hatom : AtomTokens (p.tokens true) := by
        rw [tokens_eq_of_expression_eq hp.refersByGroupNames
          (refersByGroupNames_of_isClass rfl) hclass]
        exact atomTokens_of_isClass rfl
      have hlength := hp.length_readItems_of_atomTokens hatom
      omega
    · omega
  · intro hnot
    cases hgroups : needsGrouping p.expression with
    | true => exact .inl rfl
    | false =>
      apply Or.inr
      rcases not_needsGrouping hgroups with hstop | ⟨u, hescaped⟩ | hline
      · apply hp.length_readItems_of_atomTokens
        exact atomTokens_of_fullStop hp.refersByGroupNames hstop
      · apply hp.length_readItems_of_atomTokens
        exact atomTokens_of_escaped hp.refersByGroupNames hescaped
      · have hpos := List.length_pos_iff.2 (hp.readItems_ne_nil hgroups)
        have hle : ¬1 < p.readItems.length := fun h => hnot ⟨hline, h⟩
        omega

/-- A text is read as one term, which repeats what another text is read as. -/
def ReadsAsRepeated (t : Text) (body : Program) (least : Nat) (most : Option Nat) : Prop :=
  Program.parse t = .ok { body with regex := .loop body.regex least most } ∧
    Program.terms t = .ok [.loop body.regex least most]

/-- Counts behind the text of a consistent pattern repeat all of it, whether a group is put around it
or not, unless the text stands between square brackets on one line and has several terms. -/
theorem shortcut_exact (hp : p.Consistent) (q : WrittenCounts) :
    ∃ body terms, Program.parse (engineText .anywhere p.expression) = .ok body ∧
      Program.terms (engineText .anywhere p.expression) = .ok terms ∧
      body.regex = Regex.sequenceOf terms ∧
      (ReadsAsRepeated (engineText .anywhere (quantify p.expression q.text)) body q.least q.most? ↔
        ¬(BracketedLine p.expression ∧ 1 < terms.length)) := by
  refine ⟨p.program, p.readItems, parse_anywhere hp, hp.terms_expression, rfl, ?_⟩
  obtain ⟨hparse, hterms⟩ := hp.parse_quantify q
  rw [← hp.groups_or_single_iff, ← hp.quantifiedItems_eq_iff q]
  constructor
  · intro hreads
    exact Except.ok.inj (hterms.symm.trans hreads.2)
  · intro hitems
    rw [hitems] at hparse hterms
    exact ⟨hparse, hterms⟩

/-- A class, a group and a closing bracket: text between square brackets that is three terms. -/
def bracketEnded : Pattern :=
  sequence (charClass true (utf16 "a]")) [group (literal (utf16 "x")), literal (utf16 "]")]

/-- Two or three rounds, the two with a leading zero. -/
def twoOrThree : WrittenCounts :=
  .between ⟨utf16 "02", by decide, by decide⟩ ⟨utf16 "3", by decide, by decide⟩ (by decide)

theorem bracketEnded_shortcut :
    bracketEnded.Consistent ∧ ∃ body terms,
      Program.parse (engineText .anywhere bracketEnded.expression) = .ok body ∧
      Program.terms (engineText .anywhere bracketEnded.expression) = .ok terms ∧
      BracketedLine bracketEnded.expression ∧ terms.length = 3 ∧
      ¬ReadsAsRepeated (engineText .anywhere (quantify bracketEnded.expression (utf16 "{02,3}")))
        body 2 (some 3) := by
  have hp : bracketEnded.Consistent := ⟨by decide, by decide⟩
  obtain ⟨body, terms, hbody, hterms, -, hiff⟩ := shortcut_exact hp twoOrThree
  have hline : BracketedLine bracketEnded.expression := ⟨by decide, by decide, by decide⟩
  have hlength : terms.length = 3 := by
    rw [← Except.ok.inj (hp.terms_expression.symm.trans hterms)]
    rfl
  refine ⟨hp, body, terms, hbody, hterms, hline, hlength, ?_⟩
  intro hreads
  apply hiff.1 hreads
  exact ⟨hline, by omega⟩

end Pattern

end PatternAlgebra
