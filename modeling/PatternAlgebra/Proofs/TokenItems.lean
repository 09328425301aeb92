import PatternAlgebra.Proofs.Items
import PatternAlgebra.Proofs.Tokens

/-!
# Items of a pattern's tokens

The tokens of a pattern add its items (`adds_tokens`): no quantifier stands behind something that
cannot be repeated, and brackets pair. A quantifier is read as its text has it, so the items are those
of `Quantifier.asRead`. Nothing is said here about counts being small or bodies being grouped well.
-/

namespace PatternAlgebra

open Lowering

/-! ## Braces that hold no counts -/

/-- Quantifiers in the tokens apply, even at the beginning. -/
def Applies (ts : List Token) : Prop := ∀ b, quantifiersApply b ts = true

theorem applies_plain {t : Text} (ht : ∀ u ∈ t, isMetacharacter u = false) {ts : List Token}
    (hts : Applies ts) : Applies (t.map unitToken ++ ts) := by
  induction t with
  | nil => exact hts
  | cons u t ih =>
    intro b
    rw [List.map_cons, unitToken_of_not_metacharacter (ht u List.mem_cons_self)]
    exact ih (fun v hv => ht v (List.mem_cons_of_mem u hv)) true

theorem isMetacharacter_of_isDigit {u : CodeUnit} (h : Text.isDigit u = true) :
    isMetacharacter u = false :=
  Pattern.isMetacharacter_of_isWord (by rw [h, Bool.or_true])

theorem applies_decimal (n : Nat) {ts : List Token} (hts : Applies ts) :
    Applies ((decimalText n).map unitToken ++ ts) :=
  applies_plain (fun _ hu => isMetacharacter_of_isDigit (isDigit_of_mem_decimalText hu)) hts

/-- Digits and full stops, one token each. -/
theorem applies_mantissa {t : Text} (ht : ∀ u ∈ t, Text.isDigit u = true ∨ u = fullStop)
    {ts : List Token} (hts : Applies ts) : Applies (t.map unitToken ++ ts) := by
  induction t with
  | nil => exact hts
  | cons u t ih =>
    intro b
    have hrest := ih (fun v hv => ht v (List.mem_cons_of_mem u hv)) true
    rcases ht u List.mem_cons_self with hu | rfl
    · rw [List.map_cons, unitToken_of_not_metacharacter (isMetacharacter_of_isDigit hu)]
      exact hrest
    · exact hrest

/-- The plus sign in a written count repeats the `e` before it. -/
theorem applies_count (c : Count) {ts : List Token} (hts : Applies ts) :
    Applies (c.text.map unitToken ++ ts) := by
  rcases c.text_cases with ⟨n, hn⟩ | ⟨lead, mantissa, exponent, htext, hlead, hmantissa⟩
  · rw [hn.text]
    exact applies_decimal n hts
  · have hunits : ∀ u ∈ lead :: mantissa, Text.isDigit u = true ∨ u = fullStop := by
      intro u hu
      rcases List.mem_cons.1 hu with rfl | hu
      · exact .inl hlead
      · exact hmantissa u hu
    have hexponent : Applies (.one (.only 0x65) :: .quantifier 1 none ::
        ((decimalText exponent).map unitToken ++ ts)) :=
      fun _ => applies_decimal exponent hts false
    rw [htext, List.map_append, List.append_assoc]
    exact applies_mantissa hunits hexponent

namespace Quantifier

theorem applies_inner {q : Quantifier} {inner : Text} (h : q.inner? = some inner) :
    Applies ((inner ++ [closeBrace]).map unitToken) := by
  have hclose : Applies ([closeBrace].map unitToken) := fun _ => rfl
  have hcomma : ∀ ts, Applies ts → Applies (unitToken comma :: ts) := fun ts hts _ => hts true
  cases q with
  | optional | oneOrMore | zeroOrMore => contradiction
  | exactly count =>
    obtain rfl := Option.some.inj h
    rw [List.map_append]
    exact applies_count count hclose
  | between bounds =>
    obtain rfl := Option.some.inj h
    rw [List.append_assoc, List.map_append, List.cons_append, List.map_cons, List.map_append]
    exact applies_count bounds.least (hcomma _ (applies_count bounds.most hclose))
  | atLeast count =>
    obtain rfl := Option.some.inj h
    rw [List.append_assoc, List.map_append, List.map_append]
    exact applies_count count (hcomma _ hclose)

/-- The tokens of a quantifier can stand behind what can be repeated. -/
theorem quantifiersApply_tokens (q : Quantifier) : quantifiersApply true q.tokens = true := by
  have hbraces : ∀ inner, q.inner? = some inner →
      quantifiersApply true (bracesTokens inner) = true := by
    intro inner h
    rw [bracesTokens]
    split
    · rfl
    · exact applies_inner h true
  cases q with
  | optional | oneOrMore | zeroOrMore => rfl
  | exactly | between | atLeast => exact hbraces _ rfl

end Quantifier

/-! ## What a quantifier stands behind -/

/-- The units that a pattern's text can end in where it cannot be repeated. -/
def endsUnrepeatable (u : CodeUnit) : Bool :=
  u == questionMark || u == asterisk || u == plus || u == closeBrace || u == caret || u == dollar

theorem Quantifier.endsUnrepeatable_suffix {q : Quantifier} {u : CodeUnit}
    (h : q.suffix.getLast? = some u) : endsUnrepeatable u = true := by
  have hbraced : ∀ inner, (braced inner).getLast? = some u → u = closeBrace := by
    intro inner hu
    rw [braced, ← List.cons_append, List.getLast?_concat] at hu
    exact (Option.some.inj hu).symm
  cases q with
  | optional | oneOrMore | zeroOrMore =>
    obtain rfl := Option.some.inj h
    rfl
  | exactly | between | atLeast => exact hbraced _ h ▸ rfl

theorem repeatableAfter_literalTokens {t : Text} (h : t ≠ []) (b : Bool) :
    repeatableAfter b (literalTokens t) = true := repeatableAfter_map (fun _ => rfl) h b

namespace Pattern

theorem tokens_eq_of_expression_eq {named : Bool} {p q : Pattern} (hp : p.RefersByGroupNames)
    (hq : q.RefersByGroupNames) (h : p.expression = q.expression) :
    p.tokens named = q.tokens named := by
  have htokens := (lexes_expression named hp).tokens_eq
  rw [h, (lexes_expression named hq).tokens_eq] at htokens
  exact (Except.ok.inj htokens).symm

theorem tokens_eq_nil {named : Bool} {p : Pattern} (hp : p.RefersByGroupNames)
    (h : p.expression = []) : p.tokens named = [] :=
  tokens_eq_of_expression_eq (q := literal []) hp (fun _ hname => nomatch hname) h

/-- Of patterns one after another the last one that has a text decides. -/
theorem repeatableAfter_flatMap {named : Bool} {ps : List Pattern} {u : CodeUnit}
    (h : ∀ p ∈ ps, p.RefersByGroupNames ∧
      (p.expression.getLast? = some u → ∀ b, repeatableAfter b (p.tokens named) = true))
    (hu : (ps.flatMap expression).getLast? = some u) (b : Bool) :
    repeatableAfter b (ps.flatMap (tokens named)) = true := by
  induction ps generalizing b with
  | nil => contradiction
  | cons p ps ih =>
    have hrest := ih (fun q hq => h q (List.mem_cons_of_mem p hq))
    rw [List.flatMap_cons, repeatableAfter_append]
    rw [List.flatMap_cons, List.getLast?_append] at hu
    by_cases hempty : ps.flatMap expression = []
    · have htokens : ps.flatMap (tokens named) = [] := by
        rw [List.flatMap_eq_nil_iff] at hempty ⊢
        exact fun q hq => tokens_eq_nil (h q (List.mem_cons_of_mem p hq)).1 (hempty q hq)
      rw [hempty, List.getLast?_nil, Option.none_or] at hu
      rw [htokens]
      exact (h p List.mem_cons_self).2 hu b
    · rw [List.getLast?_eq_some_getLast hempty, Option.some_or,
        ← List.getLast?_eq_some_getLast hempty] at hu
      exact hrest hu _

/-- The tokens of a text that ends in none of these units can be repeated. -/
theorem repeatableAfter_tokens {named : Bool} {p : Pattern} (hp : p.RefersByGroupNames)
    {u : CodeUnit} (hu : p.expression.getLast? = some u) (hends : endsUnrepeatable u = false)
    (b : Bool) : repeatableAfter b (p.tokens named) = true := by
  induction p using induct generalizing b with
  | literal t =>
    refine repeatableAfter_literalTokens ?_ b
    rintro rfl
    contradiction
  | either first others =>
    cases others with
    | nil =>
      refine repeatableAfter_literalTokens ?_ b
      rintro rfl
      contradiction
    | cons second others => exact repeatableAfter_concat b (_ :: _) .closing
  | sequence first others hfirst hothers =>
    rw [expression, expressions_eq_flatMap, ← List.flatMap_cons] at hu
    rw [tokens, tokensAll_eq_flatMap, ← List.flatMap_cons]
    refine repeatableAfter_flatMap (fun q hq => ?_) hu b
    rcases List.mem_cons.1 hq with rfl | hq
    · exact ⟨hp.first, hfirst hp.first⟩
    · exact ⟨hp.others hq, hothers q hq (hp.others hq)⟩
  | repeated body q hbody =>
    have hne : q.suffix ≠ [] := by cases q <;> exact List.cons_ne_nil _ _
    rw [expression, q.apply_eq, List.getLast?_append, List.getLast?_eq_some_getLast hne,
      Option.some_or, ← List.getLast?_eq_some_getLast hne] at hu
    rw [Quantifier.endsUnrepeatable_suffix hu] at hends
    contradiction
  | anyUnit | shorthand | charClass | charRange | multiRange => rfl
  | anchor a =>
    cases a with
    | lineStart | lineEnd =>
      obtain rfl := Option.some.inj hu
      contradiction
    | inputStart | inputEnd => rfl
  | group body | namedGroup name body => exact repeatableAfter_concat b (_ :: _) .closing
  | backreference name =>
    cases named with
    | true => rfl
    | false => exact repeatableAfter_literalTokens (List.cons_ne_nil _ _) b

/-- The tokens of a single atom: one for a unit, or an assertion between brackets. -/
def AtomTokens (ts : List Token) : Prop :=
  (∃ set, ts = [.one set]) ∨ ∃ a, ts = [.opening .plain, .assertion a, .closing]

theorem atomTokens_of_escaped {named : Bool} {p : Pattern} (hp : p.RefersByGroupNames)
    {u : CodeUnit} (h : p.expression = [backslash, u]) : AtomTokens (p.tokens named) := by
  have htokens := (lexes_expression named hp).tokens_eq
  rw [h, lower_escape, lower_nil, List.append_nil, lowerEscape] at htokens
  by_cases hA : u = upperA
  · rw [if_pos hA, (lexes_inputAnchors named).1.tokens_eq] at htokens
    exact .inr ⟨.inputStart, (Except.ok.inj htokens).symm⟩
  by_cases hz : u = lowerZ
  · rw [if_neg hA, if_pos hz, (lexes_inputAnchors named).2.tokens_eq] at htokens
    exact .inr ⟨.inputEnd, (Except.ok.inj htokens).symm⟩
  rw [if_neg hA, if_neg hz] at htokens
  by_cases hk : (named && u == lowerK) = true
  · have herror : tokenFrom named backslash [u] = .error .badReference := by
      rw [tokenFrom, if_pos rfl]
      unfold escapeToken
      dsimp only
      rw [if_pos hk]
    rw [tokens_error herror] at htokens
    contradiction
  · have hset : ∃ set, tokenFrom named backslash [u] = .ok (.one set, []) := by
      rw [tokenFrom, if_pos rfl]
      unfold escapeToken
      dsimp only
      rw [if_neg hk]
      split
      · exact ⟨_, rfl⟩
      · exact ⟨_, rfl⟩
    obtain ⟨set, hset⟩ := hset
    rw [tokens_cons hset, tokens_nil] at htokens
    exact .inl ⟨set, (Except.ok.inj htokens).symm⟩

theorem AtomTokens.repeatableAfter {ts : List Token} (h : AtomTokens ts) (b : Bool) :
    repeatableAfter b ts = true := by
  rcases h with ⟨set, rfl⟩ | ⟨a, rfl⟩ <;> rfl

theorem atomTokens_of_fullStop {named : Bool} {p : Pattern} (hp : p.RefersByGroupNames)
    (h : p.expression = [fullStop]) : AtomTokens (p.tokens named) := by
  rw [tokens_eq_of_expression_eq (q := anyUnit) hp (fun _ hname => nomatch hname) h]
  exact .inl ⟨.anyOnLine, rfl⟩

end Pattern

/-- Text between square brackets on one line. -/
structure BracketedLine (t : Text) : Prop where
  first : t.head? = some openBracket
  last : t.getLast? = some closeBracket
  line : t.any Text.isLineTerminator = false

theorem bracketedLine_of_isBracketed {t : Text} (h : isBracketed t = true) : BracketedLine t := by
  unfold isBracketed at h
  split at h
  next rest =>
    simp only [Bool.and_eq_true, beq_iff_eq, Bool.not_eq_true'] at h
    obtain ⟨⟨-, hlast⟩, hline⟩ := h
    obtain ⟨init, rfl⟩ := List.getLast?_eq_some_iff.1 hlast
    rw [List.dropLast_concat] at hline
    refine ⟨rfl, List.getLast?_concat (l := openBracket :: init), ?_⟩
    rw [List.any_cons, List.any_append, hline]
    decide
  · contradiction

/-- Text that is not grouped before a quantifier: a full stop, a quoted unit, or text between square
brackets on one line. -/
theorem not_needsGrouping {t : Text} (h : needsGrouping t = false) :
    t = [fullStop] ∨ (∃ u, t = [backslash, u]) ∨ BracketedLine t := by
  rw [needsGrouping, Bool.not_eq_false', Bool.or_eq_true, Bool.or_eq_true] at h
  rcases h with (h | h) | h
  · exact .inl (by simpa using h)
  · exact .inr (.inr (bracketedLine_of_isBracketed h))
  · unfold isEscapedUnit at h
    split at h
    · exact .inr (.inl ⟨_, rfl⟩)
    · contradiction

/-- Text between square brackets on one line is grouped only if there is nothing between them. -/
theorem BracketedLine.eq_of_needsGrouping {t : Text} (h : BracketedLine t)
    (hgroups : needsGrouping t = true) : t = [openBracket, closeBracket] := by
  obtain ⟨hfirst, hlast, hline⟩ := h
  obtain ⟨rest, rfl⟩ := List.head?_eq_some_iff.1 hfirst
  cases rest with
  | nil => contradiction
  | cons u rest =>
    rw [List.getLast?_cons_cons] at hlast
    obtain ⟨init, hinit⟩ := List.getLast?_eq_some_iff.1 hlast
    rw [hinit] at hline hgroups ⊢
    cases init with
    | nil => rfl
    | cons v init =>
      have hbracketed : isBracketed (openBracket :: (v :: init ++ [closeBracket])) = true := by
        show (decide (2 ≤ (v :: init ++ [closeBracket]).length) && _ == some closeBracket &&
          !(v :: init ++ [closeBracket]).dropLast.any Text.isLineTerminator) = true
        rw [List.any_cons, List.any_append, Bool.or_eq_false_iff, Bool.or_eq_false_iff] at hline
        rw [List.getLast?_concat, List.dropLast_concat, hline.2.1]
        simp
      rw [needsGrouping, hbracketed, Bool.or_true, Bool.true_or] at hgroups
      contradiction

namespace Pattern

/-- What a quantifier stands behind without a group can be repeated. -/
theorem repeatableAfter_of_not_needsGrouping {named : Bool} {p : Pattern} (hp : p.RefersByGroupNames)
    (h : needsGrouping p.expression = false) (b : Bool) :
    repeatableAfter b (p.tokens named) = true := by
  rcases not_needsGrouping h with hstop | ⟨u, hescaped⟩ | hbracketed
  · exact (atomTokens_of_fullStop hp hstop).repeatableAfter b
  · exact (atomTokens_of_escaped hp hescaped).repeatableAfter b
  · exact repeatableAfter_tokens hp hbracketed.last (by decide) b

/-! ## The items of a pattern's tokens -/

theorem adds_literal (resolve : Text → Option Nat) (t : Text) :
    Adds resolve (literalTokens t) (fun _ => literalItems t) 0 := by
  have h : Adds resolve ((t.map UnitSet.only).map .one) (fun _ => (t.map UnitSet.only).map .one) 0 :=
    .map_one (t.map .only)
  rwa [List.map_map, List.map_map] at h

theorem adds_choice (resolve : Text → Option Nat) (first : Text) (others : List Text) :
    Adds resolve (choiceTokens first others) (fun _ => choiceItems first others) 0 := by
  cases others with
  | nil => exact adds_literal resolve first
  | cons second others =>
    exact (encloses_bars (adds_literal resolve) first (second :: others)).grouped

theorem adds_anchor (resolve : Text → Option Nat) (a : Anchor) :
    Adds resolve a.tokens (fun _ => [.assertion a]) 0 := by
  cases a with
  | lineStart | lineEnd => exact .assertion _
  | inputStart => exact (Adds.assertion .inputStart).encloses.grouped
  | inputEnd => exact (Adds.assertion .inputEnd).encloses.grouped

/-- Quantifiers behind the tokens of a pattern take the whole if these are in a group, and else the
last item. -/
theorem adds_behind {named : Bool} {resolve : Text → Option Nat} {p : Pattern}
    {items : Nat → List Regex} {count : Nat} {groups : Bool} {qs : List Token}
    (hp : p.RefersByGroupNames) (h : Adds resolve (p.tokens named) items count)
    (hgroups : needsGrouping p.expression = true → groups = true)
    (hqs : quantifiersApply true qs = true) :
    Adds resolve (groupedTokens groups (p.tokens named) ++ qs)
      (fun k => qs.foldl extendItems (if groups then [Regex.sequenceOf (items k)] else items k))
      count := by
  cases groups with
  | true =>
    exact h.encloses.grouped.extend (fun b => repeatableAfter_concat b (_ :: _) .closing) hqs
  | false =>
    have hbare : needsGrouping p.expression = false :=
      Bool.eq_false_iff.2 (fun hneeds => Bool.false_ne_true (hgroups hneeds))
    exact h.extend (repeatableAfter_of_not_needsGrouping hp hbare) hqs

/-- The tokens of a pattern add its items, if its references have groups. -/
theorem adds_tokens {resolve : Text → Option Nat} {index : Text → Nat} {p : Pattern}
    (hp : p.RefersByGroupNames)
    (hindex : ∀ name ∈ p.references, resolve name.text = some (index name.text)) :
    Adds resolve (p.tokens true) (fun k => p.items Quantifier.asRead index k) p.groupCount := by
  induction p using inductParts (Q := fun ps =>
      (∀ name ∈ referencesAll ps, isGroupName name.text = true) →
        (∀ name ∈ referencesAll ps, resolve name.text = some (index name.text)) →
          Adds resolve (tokensAll true ps) (fun k => itemsAll Quantifier.asRead index k ps)
            (capturingAll ps).length) with
  | literal t => exact adds_literal resolve t
  | either first others => exact adds_choice resolve first others
  | sequence first others hparts => exact hparts hp hindex
  | repeated body q hbody =>
    exact adds_behind hp (hbody hp hindex) q.groups_of_needsGrouping q.quantifiersApply_tokens
  | anyUnit | shorthand | charClass | charRange | multiRange => exact .one _
  | anchor a => exact adds_anchor resolve a
  | group body hbody => exact (hbody hp hindex).encloses.captured none
  | namedGroup name body hbody => exact (hbody hp hindex).encloses.captured (some name.text)
  | backreference name => exact .reference (hindex name List.mem_cons_self)
  | nil => exact .nil
  | cons q qs hq hqs hnames hindex =>
    obtain ⟨hown, hrest⟩ := List.forall_mem_append.1 hnames
    obtain ⟨hownIndex, hrestIndex⟩ := List.forall_mem_append.1 hindex
    rw [capturingAll, List.length_append]
    exact (hq hown hownIndex).append (hqs hrest hrestIndex)

end Pattern

end PatternAlgebra
