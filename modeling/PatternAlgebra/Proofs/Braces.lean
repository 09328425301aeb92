import PatternAlgebra.Proofs.CountText
import PatternAlgebra.Proofs.Lexing

/-!
# Quantifiers as tokens

The text of a quantifier stands behind what it applies to. Counts that are written by digits make
one quantifier of the braces. With a count in scientific form the braces and everything between them
are plain units, but for the plus sign of the exponent, which repeats the `e` before it.
-/

namespace PatternAlgebra

/-! ## Reading counts -/

theorem endsNumber_closeBrace (rest : Text) : endsNumber (closeBrace :: rest) = true := rfl

theorem endsNumber_comma (rest : Text) : endsNumber (comma :: rest) = true := rfl

theorem counts?_of_closed {t rest : Text} {n : Nat} (h : number? t = some (n, closeBrace :: rest)) :
    counts? t = some ((n, some n), rest) := by
  unfold counts?
  rw [h]
  rfl

theorem counts?_of_open {t rest : Text} {n : Nat}
    (h : number? t = some (n, comma :: closeBrace :: rest)) :
    counts? t = some ((n, none), rest) := by
  unfold counts?
  rw [h]
  rfl

theorem counts?_exactly (n : Nat) (rest : Text) :
    counts? (decimalText n ++ closeBrace :: rest) = some ((n, some n), rest) :=
  counts?_of_closed (number?_decimalText n (endsNumber_closeBrace rest))

theorem counts?_atLeast (n : Nat) (rest : Text) :
    counts? (decimalText n ++ comma :: closeBrace :: rest) = some ((n, none), rest) :=
  counts?_of_open (number?_decimalText n (endsNumber_comma _))

theorem isDigit_closeBrace : Text.isDigit closeBrace = false := by decide

/-- Behind a number and a comma a second number is read, unless the brace is closed. -/
theorem counts?_of_comma {t rest : Text} {n : Nat} {u : CodeUnit}
    (ht : number? t = some (n, comma :: u :: rest)) (hu : u ≠ closeBrace) :
    counts? t =
      match number? (u :: rest) with
      | some (most, closeBrace :: after) => some ((n, some most), after)
      | _ => none := by
  unfold counts?
  rw [ht]
  split
  next h => contradiction
  next h =>
    have := (List.cons.inj (Prod.mk.inj (Option.some.inj h)).2).1
    exact absurd this (by decide)
  next h =>
    have := (List.cons.inj (List.cons.inj (Prod.mk.inj (Option.some.inj h)).2).2).1
    exact absurd this hu
  next h =>
    obtain ⟨rfl, hrest⟩ := Prod.mk.inj (Option.some.inj h)
    obtain rfl := (List.cons.inj hrest).2
    rfl
  next h => exact absurd rfl (h n (u :: rest))

/-- Behind a number and a comma a second number is read, which the brace has to close. -/
theorem counts?_of_between {t rest after : Text} {least most : Nat} {u : CodeUnit}
    (ht : number? t = some (least, comma :: u :: rest)) (hu : u ≠ closeBrace)
    (hrest : number? (u :: rest) = some (most, closeBrace :: after)) :
    counts? t = some ((least, some most), after) := by
  rw [counts?_of_comma ht hu, hrest]
  rfl

theorem ne_closeBrace_of_isDigit {u : CodeUnit} (hu : Text.isDigit u = true) : u ≠ closeBrace := by
  rintro rfl
  rw [isDigit_closeBrace] at hu
  contradiction

theorem counts?_comma {n : Nat} {u : CodeUnit} {t : Text} (hu : Text.isDigit u = true) :
    counts? (decimalText n ++ comma :: u :: t) =
      match number? (u :: t) with
      | some (most, closeBrace :: rest) => some ((n, some most), rest)
      | _ => none :=
  counts?_of_comma (number?_decimalText n (endsNumber_comma _)) (ne_closeBrace_of_isDigit hu)

theorem counts?_between (least most : Nat) (rest : Text) :
    counts? (decimalText least ++ comma :: (decimalText most ++ closeBrace :: rest)) =
      some ((least, some most), rest) := by
  have hm : number? (decimalText most ++ closeBrace :: rest) = some (most, closeBrace :: rest) :=
    number?_decimalText most (endsNumber_closeBrace rest)
  obtain ⟨u, t, ht, hu⟩ := decimalText_eq_cons most
  rw [ht, List.cons_append] at hm ⊢
  exact counts?_of_between (number?_decimalText least (endsNumber_comma _))
    (ne_closeBrace_of_isDigit hu) hm

/-- Digits that a text in scientific form begins with end at its full stop or at its `e`. -/
theorem number?_scientific {t : Text} (h : Decimal.Scientific t) (rest : Text) :
    ∃ n u after, number? (t ++ rest) = some (n, u :: after) ∧ (u = fullStop ∨ u = 0x65) := by
  obtain ⟨lead, mantissa, exponent, rfl, hlead, hmantissa⟩ := h
  have hdigits : ∀ (m : Text) (n : Nat), (∀ u ∈ m, Text.isDigit u = true ∨ u = fullStop) →
      ∀ tail, ∃ k u after, digitsFrom n (m ++ 0x65 :: tail) = (k, u :: after) ∧
        (u = fullStop ∨ u = 0x65) := by
    intro m
    induction m with
    | nil => exact fun n _ tail => ⟨n, 0x65, tail, rfl, .inr rfl⟩
    | cons v m ih =>
      intro n hm tail
      rcases hm v List.mem_cons_self with hv | rfl
      · obtain ⟨k, u, after, hread, hu⟩ :=
          ih (10 * n + (v.toNat - 0x30)) (fun u hu => hm u (List.mem_cons_of_mem v hu)) tail
        exact ⟨k, u, after, by rw [List.cons_append, digitsFrom_digit hv, hread], hu⟩
      · exact ⟨n, fullStop, m ++ 0x65 :: tail, rfl, .inl rfl⟩
  obtain ⟨k, u, after, hread, hu⟩ :=
    hdigits mantissa (lead.toNat - 0x30) hmantissa (plus :: (decimalText exponent ++ rest))
  refine ⟨k, u, after, ?_, hu⟩
  simp only [List.cons_append, List.append_assoc, number?, hlead, if_true, hread]

theorem counts?_scientific {t : Text} (h : Decimal.Scientific t) (rest : Text) :
    counts? (t ++ rest) = none := by
  obtain ⟨n, u, after, hread, hu⟩ := number?_scientific h rest
  unfold counts?
  rw [hread]
  rcases hu with rfl | rfl <;> rfl

theorem counts?_comma_scientific {t : Text} (h : Decimal.Scientific t) (n : Nat) (rest : Text) :
    counts? (decimalText n ++ comma :: (t ++ rest)) = none := by
  obtain ⟨m, u, after, hread, hu⟩ := number?_scientific h rest
  obtain ⟨lead, mantissa, exponent, rfl, hlead, -⟩ := h
  rw [List.cons_append, List.cons_append] at hread ⊢
  rw [counts?_comma hlead, hread]
  rcases hu with rfl | rfl <;> rfl

/-! ## Units of written counts -/

/-- A unit that a written count can hold. -/
def isCountUnit (u : CodeUnit) : Bool :=
  Text.isDigit u || u == fullStop || u == 0x65 || u == plus

theorem isCountUnit_of_mem_text {c : Count} {u : CodeUnit} (h : u ∈ c.text) :
    isCountUnit u = true := by
  rcases c.text_cases with ⟨n, hn⟩ | ⟨lead, mantissa, exponent, htext, hlead, hall⟩
  · rw [hn.text] at h
    simp [isCountUnit, isDigit_of_mem_decimalText h]
  · rw [htext] at h
    simp only [List.cons_append, List.mem_cons, List.mem_append] at h
    rcases h with rfl | h | rfl | rfl | h
    · simp [isCountUnit, hlead]
    · rcases hall u h with hu | rfl
      · simp [isCountUnit, hu]
      · rfl
    · rfl
    · rfl
    · simp [isCountUnit, isDigit_of_mem_decimalText h]

theorem ne_of_isCountUnit {u v : CodeUnit} (hu : isCountUnit u = true)
    (hv : isCountUnit v = false) : u ≠ v := by
  rintro rfl
  rw [hu] at hv
  contradiction

/-! ## The text of a quantifier -/

/-- The tokens of braces: a quantifier if they hold counts, and else one token for each unit. -/
def bracesTokens (inner : Text) : List Token :=
  match counts? (inner ++ [closeBrace]) with
  | some (counts, _) => [.quantifier counts.1 counts.2]
  | none => .one (.only openBrace) :: (inner ++ [closeBrace]).map unitToken

theorem bracesTokens_of_counts {inner : Text} {counts : Nat × Option Nat}
    (h : ∀ rest, counts? (inner ++ closeBrace :: rest) = some (counts, rest)) :
    bracesTokens inner = [.quantifier counts.1 counts.2] := by
  rw [bracesTokens, h []]

theorem bracesTokens_of_none {inner : Text}
    (h : ∀ rest, counts? (inner ++ closeBrace :: rest) = none) :
    bracesTokens inner = .one (.only openBrace) :: (inner ++ [closeBrace]).map unitToken := by
  rw [bracesTokens, h []]

theorem tokenFrom_openBrace (named : Bool) (rest : Text) :
    tokenFrom named openBrace rest = braceToken rest := by
  rw [tokenFrom, if_neg (by decide), if_neg (by decide), if_neg (by decide), if_pos rfl]

/-- Braces that hold counts in order are cut as one quantifier. -/
theorem lexes_of_counts (named : Bool) {inner : Text} {least : Nat} {most : Option Nat}
    (hread : ∀ rest, counts? (inner ++ closeBrace :: rest) = some ((least, most), rest))
    (horder : countsInOrder least most = true) :
    Lexes named (braced inner) [.quantifier least most] := by
  refine .of_tokenFrom (fun rest => ?_)
  rw [tokenFrom_openBrace, braceToken, List.append_assoc, List.singleton_append, hread]
  simp only [horder, if_true]

namespace Quantifier

/-- What stands between the braces of a counted quantifier. -/
def inner? : Quantifier → Option Text
  | optional | oneOrMore | zeroOrMore => none
  | exactly count => some count.text
  | between bounds => some (bounds.least.text ++ comma :: bounds.most.text)
  | atLeast count => some (count.text ++ [comma])

/-- The text of a quantifier, behind what it applies to. -/
def suffix : Quantifier → Text
  | optional => [questionMark]
  | oneOrMore => [plus]
  | zeroOrMore => [asterisk]
  | exactly count => braced count.text
  | between bounds => braced (bounds.least.text ++ comma :: bounds.most.text)
  | atLeast count => braced (count.text ++ [comma])

/-- Whether a quantifier puts the text before it into a group. -/
def groups (q : Quantifier) (t : Text) : Bool := q.inner?.isNone || needsGrouping t

theorem groups_of_needsGrouping (q : Quantifier) {t : Text} (h : needsGrouping t = true) :
    q.groups t = true := by
  rw [groups, h, Bool.or_true]

/-- The tokens of a quantifier's text. -/
def tokens : Quantifier → List Token
  | optional => [.quantifier 0 (some 1)]
  | oneOrMore => [.quantifier 1 none]
  | zeroOrMore => [.quantifier 0 none]
  | exactly count => bracesTokens count.text
  | between bounds => bracesTokens (bounds.least.text ++ comma :: bounds.most.text)
  | atLeast count => bracesTokens (count.text ++ [comma])

theorem apply_eq (q : Quantifier) (t : Text) :
    q.apply t = (if q.groups t then grouped t else t) ++ q.suffix := by
  cases q with
  | optional | oneOrMore | zeroOrMore => rfl
  | exactly | between | atLeast =>
    by_cases h : needsGrouping t <;> simp [apply, quantify, groups, inner?, suffix, h]

/-- The least and the greatest count of a counted quantifier. One that is open has no greatest. -/
def bounds? : Quantifier → Option (Count × Option Count)
  | optional | oneOrMore | zeroOrMore => none
  | exactly count => some (count, some count)
  | between bounds => some (bounds.least, some bounds.most)
  | atLeast count => some (count, none)

section Bounds

variable {q : Quantifier} {inner : Text} {least : Count} {most? : Option Count}

theorem exists_bounds (h : q.inner? = some inner) :
    ∃ least most?, q.bounds? = some (least, most?) := by
  cases q with
  | optional | oneOrMore | zeroOrMore => contradiction
  | exactly | between | atLeast => exact ⟨_, _, rfl⟩

/-- The counts are in order, and they are how often the quantifier repeats. -/
theorem values_of_bounds (h : q.bounds? = some (least, most?)) :
    q.least = least.value ∧ q.most? = most?.map Count.value ∧
      ∀ most, most? = some most → least.value ≤ most.value := by
  cases q with
  | optional | oneOrMore | zeroOrMore => contradiction
  | exactly count =>
    obtain ⟨rfl, rfl⟩ := Prod.mk.inj (Option.some.inj h)
    exact ⟨rfl, rfl, fun most hmost => Option.some.inj hmost ▸ Nat.le_refl _⟩
  | between bounds =>
    obtain ⟨rfl, rfl⟩ := Prod.mk.inj (Option.some.inj h)
    exact ⟨rfl, rfl, fun most hmost => Option.some.inj hmost ▸ bounds.ordered⟩
  | atLeast count =>
    obtain ⟨rfl, rfl⟩ := Prod.mk.inj (Option.some.inj h)
    exact ⟨rfl, rfl, fun most hmost => nomatch hmost⟩

/-- Counts below `10 ^ 21` are read as the numbers by whose digits they are written. -/
theorem counts?_inner_of_lt (hinner : q.inner? = some inner)
    (hq : q.bounds? = some (least, most?))
    (hlt : ∀ c ∈ least :: most?.toList, c.value < 10 ^ 21) :
    ∃ l m?, (∀ rest, counts? (inner ++ closeBrace :: rest) = some ((l, m?), rest)) ∧
      least.WrittenAs l ∧ Option.Rel Count.WrittenAs most? m? := by
  obtain ⟨l, hl⟩ := Count.exists_writtenAs (hlt least List.mem_cons_self)
  cases q with
  | optional | oneOrMore | zeroOrMore => contradiction
  | exactly count =>
    obtain rfl := Option.some.inj hinner
    obtain ⟨rfl, rfl⟩ := Prod.mk.inj (Option.some.inj hq)
    refine ⟨l, some l, fun rest => ?_, hl, .some hl⟩
    rw [hl.text, counts?_exactly]
  | between bounds =>
    obtain rfl := Option.some.inj hinner
    obtain ⟨rfl, rfl⟩ := Prod.mk.inj (Option.some.inj hq)
    obtain ⟨m, hm⟩ := Count.exists_writtenAs
      (hlt bounds.most (List.mem_cons_of_mem _ List.mem_cons_self))
    refine ⟨l, some m, fun rest => ?_, hl, .some hm⟩
    rw [hl.text, hm.text, List.append_assoc, List.cons_append, counts?_between]
  | atLeast count =>
    obtain rfl := Option.some.inj hinner
    obtain ⟨rfl, rfl⟩ := Prod.mk.inj (Option.some.inj hq)
    refine ⟨l, none, fun rest => ?_, hl, .none⟩
    rw [hl.text, List.append_assoc, List.singleton_append, counts?_atLeast]

/-- One count from `10 ^ 21` on, and no counts are read. -/
theorem counts?_inner_of_le (hinner : q.inner? = some inner)
    (hq : q.bounds? = some (least, most?))
    (hle : ∃ c ∈ least :: most?.toList, 10 ^ 21 ≤ c.value) (rest : Text) :
    counts? (inner ++ closeBrace :: rest) = none := by
  obtain ⟨c, hc, hle⟩ := hle
  have hscientific := Count.scientific_text hle
  cases q with
  | optional | oneOrMore | zeroOrMore => contradiction
  | exactly count =>
    obtain rfl := Option.some.inj hinner
    obtain ⟨rfl, rfl⟩ := Prod.mk.inj (Option.some.inj hq)
    obtain rfl : c = count := by simpa using hc
    exact counts?_scientific hscientific _
  | between bounds =>
    obtain rfl := Option.some.inj hinner
    obtain ⟨rfl, rfl⟩ := Prod.mk.inj (Option.some.inj hq)
    rw [List.append_assoc]
    by_cases hleast : bounds.least.value < 10 ^ 21
    · obtain ⟨l, hl⟩ := Count.exists_writtenAs hleast
      rcases List.mem_cons.1 hc with rfl | hc
      · exact absurd hleast (Nat.not_lt.2 hle)
      · obtain rfl := List.mem_singleton.1 hc
        rw [hl.text, List.cons_append]
        exact counts?_comma_scientific hscientific l _
    · exact counts?_scientific (Count.scientific_text (Nat.not_lt.1 hleast)) _
  | atLeast count =>
    obtain rfl := Option.some.inj hinner
    obtain ⟨rfl, rfl⟩ := Prod.mk.inj (Option.some.inj hq)
    obtain rfl : c = count := by simpa using hc
    rw [List.append_assoc]
    exact counts?_scientific hscientific _

/-- What is written for counts in order is in order for the engine, where great counts are all
infinite. -/
theorem countsInOrder_of_writtenAs {l : Nat} {m? : Option Nat} (hl : least.WrittenAs l)
    (hm : Option.Rel Count.WrittenAs most? m?)
    (horder : ∀ most, most? = some most → least.value ≤ most.value) :
    countsInOrder l m? = true := by
  cases hm with
  | none => rfl
  | @some most m hm =>
    have hle := horder most rfl
    simp only [countsInOrder, Bool.or_eq_true, decide_eq_true_eq]
    by_cases hsmall : most.value < 2 * Double.fractionCount
    · rw [hl.exact (by omega), hm.exact hsmall]
      exact .inl hle
    · exact .inr (hm.infinite (Nat.not_lt.1 hsmall))

/-- How the braces of a counted quantifier are read: as counts in order, which are the quantifier's
own below `2 ^ 53`, or not as counts, which needs a count in scientific form. -/
theorem inner_cases (h : q.inner? = some inner) :
    (∃ least most, (∀ rest, counts? (inner ++ closeBrace :: rest) = some ((least, most), rest)) ∧
      countsInOrder least most = true ∧
      ((∀ n, q.most? = some n → n < 2 * Double.fractionCount) →
        q.least < 2 * Double.fractionCount → least = q.least ∧ most = q.most?)) ∨
    ((∀ rest, counts? (inner ++ closeBrace :: rest) = none) ∧
      ((∃ n, q.most? = some n ∧ 2 * Double.fractionCount ≤ n) ∨
        2 * Double.fractionCount ≤ q.least)) := by
  obtain ⟨least, most?, hq⟩ := exists_bounds h
  obtain ⟨hleast, hmost, horder⟩ := values_of_bounds hq
  rw [hleast, hmost]
  by_cases hlt : ∀ c ∈ least :: most?.toList, c.value < 10 ^ 21
  · obtain ⟨l, m?, hread, hl, hm⟩ := counts?_inner_of_lt h hq hlt
    refine .inl ⟨l, m?, hread, countsInOrder_of_writtenAs hl hm horder, fun hsmall hleast => ?_⟩
    cases hm with
    | none => exact ⟨hl.exact hleast, rfl⟩
    | some hm => exact ⟨hl.exact hleast, congrArg some (hm.exact (hsmall _ rfl))⟩
  · simp only [Classical.not_forall, Nat.not_lt] at hlt
    obtain ⟨c, hc, hle⟩ := hlt
    have hgreat : 2 * Double.fractionCount ≤ c.value := by
      unfold Double.fractionCount
      omega
    refine .inr ⟨counts?_inner_of_le h hq ⟨c, hc, hle⟩, ?_⟩
    rcases List.mem_cons.1 hc with rfl | hc
    · exact .inr hgreat
    · rw [Option.mem_toList.1 hc]
      exact .inl ⟨c.value, rfl, hgreat⟩

end Bounds

theorem isCountUnit_of_mem_inner {q : Quantifier} {inner : Text} (h : q.inner? = some inner)
    {u : CodeUnit} (hu : u ∈ inner) : isCountUnit u = true ∨ u = comma := by
  cases q with
  | optional | oneOrMore | zeroOrMore => contradiction
  | exactly count =>
    obtain rfl := Option.some.inj h
    exact .inl (isCountUnit_of_mem_text hu)
  | atLeast count =>
    obtain rfl := Option.some.inj h
    rcases List.mem_append.1 hu with hu | hu
    · exact .inl (isCountUnit_of_mem_text hu)
    · exact .inr (by simpa using hu)
  | between bounds =>
    obtain rfl := Option.some.inj h
    rcases List.mem_append.1 hu with hu | hu
    · exact .inl (isCountUnit_of_mem_text hu)
    · rcases List.mem_cons.1 hu with rfl | hu
      · exact .inr rfl
      · exact .inl (isCountUnit_of_mem_text hu)

theorem ne_of_mem_inner {q : Quantifier} {inner : Text} (h : q.inner? = some inner)
    {u v : CodeUnit} (hu : u ∈ inner) (hv : isCountUnit v = false) (hc : v ≠ comma) : u ≠ v := by
  rcases isCountUnit_of_mem_inner h hu with hu | rfl
  · exact ne_of_isCountUnit hu hv
  · exact hc.symm

/-- Braces are cut by themselves, whether they are read as counts or not. -/
theorem lexes_braced (named : Bool) {q : Quantifier} {inner : Text} (h : q.inner? = some inner) :
    Lexes named (braced inner) (bracesTokens inner) := by
  rcases inner_cases h with ⟨least, most, hread, horder, -⟩ | ⟨hread, -⟩
  · rw [bracesTokens_of_counts hread]
    exact lexes_of_counts named hread horder
  · rw [bracesTokens_of_none hread]
    have hinside : Lexes named (inner ++ [closeBrace]) ((inner ++ [closeBrace]).map unitToken) := by
      refine .map_unitToken (fun u hu => ?_)
      rcases List.mem_append.1 hu with hu | hu
      · have hne : ∀ {v : CodeUnit}, isCountUnit v = false → v ≠ comma → u ≠ v :=
          fun hv hc => ne_of_mem_inner h hu hv hc
        exact ⟨hne (by decide) (by decide), hne (by decide) (by decide), hne (by decide) (by decide),
          hne (by decide) (by decide)⟩
      · obtain rfl := List.mem_singleton.1 hu
        decide
    intro rest
    have hopen : tokenFrom named openBrace (inner ++ [closeBrace] ++ rest) =
        .ok (.one (.only openBrace), inner ++ [closeBrace] ++ rest) := by
      rw [tokenFrom_openBrace, braceToken, List.append_assoc, List.singleton_append, hread]
    rw [braced, List.cons_append, tokens_cons hopen, hinside rest]
    exact Except.map_map_append (PatternAlgebra.tokens named rest) [.one (.only openBrace)] _

/-- The text of a quantifier is cut by itself. -/
theorem lexes_suffix (named : Bool) (q : Quantifier) : Lexes named q.suffix q.tokens := by
  cases q with
  | optional | oneOrMore | zeroOrMore =>
    exact .unit (by decide) (by decide) (by decide) (by decide)
  | exactly count => exact lexes_braced (q := .exactly count) named rfl
  | between bounds => exact lexes_braced (q := .between bounds) named rfl
  | atLeast count => exact lexes_braced (q := .atLeast count) named rfl

end Quantifier

end PatternAlgebra
