import PatternAlgebra.Proofs.Repetition

/-!
# Counts as the engine reads them

The braces of a quantifier whose counts are below `10 ^ 21` are read as one quantifier with these
counts: with the counts themselves below `2 ^ 53`, and with numbers that round to them from there on.
With a greater count there is an exponent between the braces, and they are no quantifier: each of
their units is read for itself. In no case are they refused. What is repeated has to refer to names
that a group can have; other names may leave a bracket open in front of the braces.
-/

namespace PatternAlgebra

namespace Quantifier

variable {q : Quantifier} {least : Count} {most? : Option Count}

/-- The tokens of a counted quantifier are those of its braces. -/
theorem tokens_eq_bracesTokens {inner : Text} (h : q.inner? = some inner) :
    q.tokens = bracesTokens inner ∧ q.suffix = braced inner := by
  cases q with
  | optional | oneOrMore | zeroOrMore => contradiction
  | exactly | between | atLeast =>
    obtain rfl := Option.some.inj h
    exact ⟨rfl, rfl⟩

theorem exists_inner (h : q.bounds? = some (least, most?)) : ∃ inner, q.inner? = some inner := by
  cases q with
  | optional | oneOrMore | zeroOrMore => contradiction
  | exactly | between | atLeast => exact ⟨_, rfl⟩

/-- Braces with counts below `10 ^ 21` are one quantifier. -/
theorem tokens_of_lt (hq : q.bounds? = some (least, most?))
    (hlt : ∀ c ∈ least :: most?.toList, c.value < 10 ^ 21) :
    ∃ l m?, q.tokens = [.quantifier l m?] ∧ least.WrittenAs l ∧
      Option.Rel Count.WrittenAs most? m? := by
  obtain ⟨inner, hinner⟩ := exists_inner hq
  obtain ⟨l, m?, hread, hl, hm⟩ := counts?_inner_of_lt hinner hq hlt
  refine ⟨l, m?, ?_, hl, hm⟩
  rw [(tokens_eq_bracesTokens hinner).1, bracesTokens_of_counts hread]

/-- Braces with a count from `10 ^ 21` on are read unit by unit. -/
theorem tokens_of_le (hq : q.bounds? = some (least, most?))
    (hle : ∃ c ∈ least :: most?.toList, 10 ^ 21 ≤ c.value) :
    q.tokens = q.suffix.map unitToken := by
  obtain ⟨inner, hinner⟩ := exists_inner hq
  obtain ⟨htokens, hsuffix⟩ := tokens_eq_bracesTokens hinner
  rw [htokens, hsuffix, bracesTokens_of_none (counts?_inner_of_le hinner hq hle)]
  rfl

end Quantifier

namespace Pattern

variable {p : Pattern} {q : Quantifier} {least : Count} {most? : Option Count}

/-- Behind what is repeated the braces are read by themselves: as one quantifier with the counts if
these are below `10 ^ 21`, and else unit by unit. -/
theorem counts_read (hp : p.RefersByGroupNames) (hq : q.bounds? = some (least, most?)) :
    ∃ ts, (∀ named, Lexes named q.suffix ts) ∧
      tokenize (engineText .anywhere (repeated p q).expression) =
        .ok (groupedTokens (q.groups p.expression) (p.tokens (!p.groupNames.isEmpty)) ++ ts) ∧
      ((∀ c ∈ least :: most?.toList, c.value < 10 ^ 21) →
        ∃ l m?, ts = [.quantifier l m?] ∧ least.WrittenAs l ∧
          Option.Rel Count.WrittenAs most? m?) ∧
      ((∃ c ∈ least :: most?.toList, 10 ^ 21 ≤ c.value) → ts = q.suffix.map unitToken) := by
  have hrepeated : (repeated p q).RefersByGroupNames := hp
  exact ⟨q.tokens, fun named => q.lexes_suffix named, tokenize_expression hrepeated,
    Quantifier.tokens_of_lt hq, Quantifier.tokens_of_le hq⟩

/-- The double `2 ^ 60`, as a count. -/
def quintillion : Count := ⟨⟨0x43B0000000000000⟩, 2 ^ 60, by decide⟩

/-- A digit twice. -/
def twins : Pattern :=
  sequence (namedGroup ⟨utf16 "twin", by decide⟩ (shorthand .digit))
    [backreference ⟨utf16 "twin", by decide⟩]

theorem twins_counts_read :
    twins.RefersByGroupNames ∧
      (∃ l m, tokenize (engineText .anywhere
            (repeated twins (.between ⟨three, quintillion, by decide⟩)).expression) =
          .ok (groupedTokens true (twins.tokens true) ++ [.quantifier l (some m)]) ∧
        three.WrittenAs l ∧ quintillion.WrittenAs m) ∧
      tokenize (engineText .anywhere
          (repeated twins (.between ⟨three, sextillion, by decide⟩)).expression) =
        .ok (groupedTokens true (twins.tokens true) ++ (utf16 "{3,1e+21}").map unitToken) := by
  have hconsistent : twins.Consistent := ⟨by decide, by decide⟩
  have hp := hconsistent.refersByGroupNames
  refine ⟨hp, ?_, ?_⟩
  · obtain ⟨ts, -, htokens, hcounts, -⟩ :=
      counts_read hp (q := .between ⟨three, quintillion, by decide⟩) rfl
    obtain ⟨l, m?, rfl, hl, hm⟩ := hcounts (by decide)
    cases hm with
    | some hm => exact ⟨l, _, htokens, hl, hm⟩
  · obtain ⟨ts, -, htokens, -, hunits⟩ :=
      counts_read hp (q := .between ⟨three, sextillion, by decide⟩) rfl
    have hsuffix : (Quantifier.between ⟨three, sextillion, by decide⟩).suffix =
        utf16 "{3,1e+21}" := by decide +kernel
    have hts := hunits ⟨sextillion, List.mem_cons_of_mem _ List.mem_cons_self, by decide⟩
    rw [hts, hsuffix] at htokens
    exact htokens

/-- A letter that is to stand there `10 ^ 21` times. The braces are read unit by unit, and a single
letter with the rest of the text behind it is spanned. -/
theorem sextillion_spans :
    (literal (utf16 "a")).exactly sextillion.number =
        .ok (repeated (literal (utf16 "a")) (.exactly sextillion)) ∧
      tokenize (Quantifier.exactly sextillion).suffix =
        .ok [.one (.only 0x7B), .one (.only 0x31), .one (.only 0x65), .quantifier 1 none,
          .one (.only 0x32), .one (.only 0x31), .one (.only 0x7D)] ∧
      (repeated (literal (utf16 "a")) (.exactly sextillion)).spans (some (utf16 "a{1e21}")) {} =
        .ok true := by
  refine ⟨exactly_of_toNat _ sextillion.exact, ?_, ?_⟩
  · decide +kernel
  · decide +kernel

end Pattern

end PatternAlgebra
