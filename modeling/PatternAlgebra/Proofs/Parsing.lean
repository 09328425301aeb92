import Mathlib.Data.List.Basic
import PatternAlgebra.Matching.Compile
import PatternAlgebra.Proofs.Spanning
import PatternAlgebra.Proofs.TokenItems

/-!
# Parsing the text of a pattern

The lowered text of a consistent pattern is read as the pattern's items, with its names and its
number of groups, alone (`parse_anywhere`) and where it has to span the input (`parse_wholeInput`).
Only the engine's part is settled here, not the search for undeclared names before it.
-/

namespace PatternAlgebra

open Lowering

/-! ## Names of groups -/

/-- Tokens that open no capturing group. -/
def OpensNone (ts : List Token) : Prop :=
  ∀ n rest, numberedNames n (ts ++ rest) = numberedNames n rest

namespace OpensNone

theorem nil : OpensNone [] := fun _ _ => rfl

theorem cons {t : Token} {ts : List Token}
    (ht : ∀ n rest, numberedNames n (t :: rest) = numberedNames n rest) (hts : OpensNone ts) :
    OpensNone (t :: ts) :=
  fun n rest => (ht n (ts ++ rest)).trans (hts n rest)

theorem append {s t : List Token} (hs : OpensNone s) (ht : OpensNone t) : OpensNone (s ++ t) := by
  intro n rest
  rw [List.append_assoc, hs, ht]

theorem map {α : Type} {f : α → Token}
    (hf : ∀ a n rest, numberedNames n (f a :: rest) = numberedNames n rest) (l : List α) :
    OpensNone (l.map f) := by
  induction l with
  | nil => exact nil
  | cons a l ih => exact cons (hf a) ih

theorem literal (t : Text) : OpensNone (literalTokens t) := map (fun _ _ _ => rfl) t

theorem bars (ts : List Text) : OpensNone ([Token.bar].intercalate (ts.map literalTokens)) := by
  induction ts with
  | nil => exact nil
  | cons t ts ih =>
    cases ts with
    | nil => simpa using literal t
    | cons t' ts =>
      simp only [List.map_cons, List.intercalate_cons_cons] at ih ⊢
      exact ((literal t).append (cons (fun _ _ => rfl) nil)).append ih

theorem choice (first : Text) (others : List Text) : OpensNone (choiceTokens first others) := by
  cases others with
  | nil => exact literal first
  | cons second others =>
    exact cons (fun _ _ => rfl)
      ((bars (first :: second :: others)).append (cons (fun _ _ => rfl) nil))

theorem units (t : Text) : OpensNone (t.map unitToken) := by
  refine map (fun u n rest => ?_) t
  unfold unitToken
  split <;> rfl

theorem quantifier (q : Quantifier) : OpensNone q.tokens := by
  have hbraces : ∀ inner, OpensNone (bracesTokens inner) := by
    intro inner
    rw [bracesTokens]
    split
    · exact cons (fun _ _ => rfl) nil
    · exact cons (fun _ _ => rfl) (units _)
  cases q with
  | optional | oneOrMore | zeroOrMore => exact cons (fun _ _ => rfl) nil
  | exactly | between | atLeast => exact hbraces _

end OpensNone

/-- A group that captures nothing around tokens, and what opens none behind them, give no names. -/
theorem numberedNames_behind {ts qs : List Token} {names : Nat → List (Text × Nat)} {count : Nat}
    (hts : ∀ n rest, numberedNames n (ts ++ rest) = names n ++ numberedNames (n + count) rest)
    (hqs : OpensNone qs) (groups : Bool) (n : Nat) (rest : List Token) :
    numberedNames n (groupedTokens groups ts ++ qs ++ rest) =
      names n ++ numberedNames (n + count) rest := by
  cases groups with
  | true =>
    show numberedNames n (((ts ++ [.closing]) ++ qs) ++ rest) = _
    rw [List.append_assoc, List.append_assoc, hts]
    show names n ++ numberedNames _ (qs ++ rest) = _
    rw [hqs]
  | false =>
    show numberedNames n ((ts ++ qs) ++ rest) = _
    rw [List.append_assoc, hts, hqs]

namespace Pattern

/-- The names that a pattern's tokens give are the pattern's. -/
theorem numberedNames_tokens (named : Bool) (p : Pattern) (n : Nat) (rest : List Token) :
    numberedNames n (p.tokens named ++ rest) =
      p.namesFrom n ++ numberedNames (n + p.groupCount) rest := by
  induction p using inductParts (Q := fun ps => ∀ n rest,
      numberedNames n (tokensAll named ps ++ rest) =
        ((capturingAll ps).zipIdx (n + 1)).filterMap numberedName ++
          numberedNames (n + (capturingAll ps).length) rest) generalizing n rest with
  | literal t => exact OpensNone.literal t n rest
  | either first others => exact OpensNone.choice first others n rest
  | sequence first others hparts => exact hparts n rest
  | repeated body q hbody =>
    exact numberedNames_behind hbody (OpensNone.quantifier q) _ n rest
  | anchor a => cases a <;> rfl
  | group body hbody =>
    rw [tokens, List.cons_append, List.append_assoc]
    show numberedNames (n + 1) (body.tokens named ++ _) =
      body.namesFrom (n + 1) ++ numberedNames (n + (body.groupCount + 1)) rest
    rw [hbody, Nat.add_right_comm]
    rfl
  | namedGroup name body hbody =>
    rw [tokens, List.cons_append, List.append_assoc]
    show (name.text, n + 1) :: numberedNames (n + 1) (body.tokens named ++ _) =
      (name.text, n + 1) :: body.namesFrom (n + 1) ++
        numberedNames (n + (body.groupCount + 1)) rest
    rw [hbody, Nat.add_right_comm]
    rfl
  | backreference name =>
    cases named with
    | true => rfl
    | false => exact OpensNone.literal _ n rest
  | anyUnit | shorthand | charClass | charRange | multiRange | nil => rfl
  | cons q qs hq hqs n rest =>
    rw [tokensAll, List.append_assoc, hq, hqs, capturingAll, filterMap_zipIdx_append,
      List.length_append, List.append_assoc, Nat.add_right_comm n 1 q.capturing.length,
      ← Nat.add_assoc n q.capturing.length]
    rfl

/-- Without references it does not matter how they are read. -/
theorem tokens_of_references_nil {p : Pattern} (hp : p.references = []) (named : Bool) :
    p.tokens named = p.tokens true := by
  induction p using induct with
  | sequence first others hfirst hothers =>
    simp only [references, referencesAll_eq_flatMap, List.append_eq_nil_iff,
      List.flatMap_eq_nil_iff] at hp
    simp only [tokens, tokensAll_eq_flatMap, hfirst hp.1]
    congr 1
    exact List.flatMap_congr (fun q hq => hothers q hq (hp.2 q hq))
  | repeated body q hbody | group body hbody | namedGroup name body hbody => simp [hbody hp]
  | backreference name => contradiction
  | literal | either | anyUnit | shorthand | anchor | charClass | charRange | multiRange => rfl

end Pattern

/-! ## Parsing -/

/-- Tokens open a named group if they give a name. -/
theorem any_opensNamed (ts : List Token) (n : Nat) :
    ts.any Token.opensNamed = !(numberedNames n ts).isEmpty := by
  fun_induction numberedNames n ts with
  | case1 | case2 => rfl
  | case3 n ts ih => exact ih
  | case4 n t ts hnamed hunnamed ih =>
    have ht : t.opensNamed = false := by
      unfold Token.opensNamed
      split
      next name => exact absurd rfl (hnamed name)
      · rfl
    rw [List.any_cons, ht, Bool.false_or]
    exact ih

theorem repeatedName?_eq_none {names : List (Text × Nat)} :
    repeatedName? names = none ↔ (names.map Prod.fst).Nodup := by
  induction names with
  | nil => exact ⟨fun _ => List.nodup_nil, fun _ => rfl⟩
  | cons entry names ih =>
    have hany : (names.any (fun e => e.1 == entry.1)) = true ↔ entry.1 ∈ names.map Prod.fst := by
      simp only [List.any_eq_true, List.mem_map, beq_iff_eq]
    rw [repeatedName?, List.map_cons, List.nodup_cons, ← hany, ← ih]
    split
    next hrepeated => simp [hrepeated]
    next hrepeated => simp [hrepeated]

/-- Tokens that add items and give distinct names are read as these items. -/
theorem Program.ofTokens_of_adds {ts : List Token} {items : Nat → List Regex} {count : Nat}
    (hdistinct : repeatedName? (numberedNames 0 ts) = none)
    (hitems : Adds ((numberedNames 0 ts).lookup ·) ts items count) :
    ofTokens ts = .ok ⟨Regex.sequenceOf (items 0), numberedNames 0 ts, count⟩ := by
  obtain ⟨r, hrun, hfinish, hopened⟩ := hitems.finish_run
  rw [ofTokens]
  simp only [hdistinct, hrun, hfinish, hopened]
  rfl

/-- A text that is cut in one way or the other as names are read is cut as its own names have it. -/
theorem tokenize_of_lexes {t : Text} {ts : Bool → List Token} (h : ∀ named, Lexes named t (ts named)) :
    tokenize t = .ok (ts (!(numberedNames 0 (ts false)).isEmpty)) := by
  rw [tokenize, (h false).tokens_eq]
  simp only [any_opensNamed _ 0]
  cases !(numberedNames 0 (ts false)).isEmpty with
  | true => exact (h true).tokens_eq
  | false => rfl

namespace Pattern

/-- The tokens of a pattern alone give the pattern's names. -/
theorem numberedNames_tokens_eq (named : Bool) (p : Pattern) :
    numberedNames 0 (p.tokens named) = p.namesFrom 0 := by
  have h := numberedNames_tokens named p 0 []
  rwa [List.append_nil, numberedNames, List.append_nil] at h

/-- The text of a pattern is cut into its tokens. Whether there are references among them depends on
the pattern's groups. -/
theorem tokenize_expression {p : Pattern} (hp : p.RefersByGroupNames) :
    tokenize (engineText .anywhere p.expression) = .ok (p.tokens (!p.groupNames.isEmpty)) := by
  rw [← map_fst_namesFrom 0, List.isEmpty_map, ← numberedNames_tokens_eq false]
  exact tokenize_of_lexes (fun named => lexes_expression named hp)

/-- A consistent pattern without a named group has no references. -/
theorem Consistent.tokens_isEmpty {p : Pattern} (hp : p.Consistent) :
    p.tokens (!(p.namesFrom 0).isEmpty) = p.tokens true := by
  rw [← List.isEmpty_map (f := Prod.fst), map_fst_namesFrom]
  by_cases hnone : p.groupNames = []
  · have hnil : p.references = [] := by
      rw [List.eq_nil_iff_forall_not_mem]
      intro name hname
      have hdeclared := hp.declared name hname
      rw [hnone] at hdeclared
      contradiction
    rw [tokens_of_references_nil hnil]
  · rw [List.isEmpty_eq_false_iff.2 hnone]
    rfl

theorem Consistent.tokenize_expression {p : Pattern} (hp : p.Consistent) :
    tokenize (engineText .anywhere p.expression) = .ok (p.tokens true) := by
  rw [Pattern.tokenize_expression hp.refersByGroupNames, ← map_fst_namesFrom 0, List.isEmpty_map,
    hp.tokens_isEmpty]

/-- The names that a pattern refers to are those of its groups. -/
theorem Consistent.lookup_references {p : Pattern} (hp : p.Consistent) :
    ∀ name ∈ p.references, (p.namesFrom 0).lookup name.text = some (p.groupNumber name.text) :=
  fun name hname => lookup_groupNumber (hp.declared name hname)

/-- The items that a pattern's text is read as. -/
def readItems (p : Pattern) : List Regex := p.items Quantifier.asRead p.groupNumber 0

/-- The tokens of a consistent pattern add its items. -/
theorem Consistent.adds_readItems {p : Pattern} (hp : p.Consistent) :
    Adds ((p.namesFrom 0).lookup ·) (p.tokens true)
      (fun k => p.items Quantifier.asRead p.groupNumber k) p.groupCount :=
  adds_tokens hp.refersByGroupNames hp.lookup_references

theorem Consistent.repeatedName?_eq_none {p : Pattern} (hp : p.Consistent) :
    repeatedName? (p.namesFrom 0) = none := by
  rw [PatternAlgebra.repeatedName?_eq_none, map_fst_namesFrom]
  exact hp.distinct

/-- The text of a consistent pattern is read as the pattern's items. -/
theorem parse_anywhere {p : Pattern} (hp : p.Consistent) :
    Program.parse (engineText .anywhere p.expression) =
      .ok ⟨Regex.sequenceOf p.readItems, p.namesFrom 0, p.groupCount⟩ := by
  have hdistinct := hp.repeatedName?_eq_none
  have hitems := hp.adds_readItems
  rw [← numberedNames_tokens_eq true] at hdistinct hitems ⊢
  rw [Program.parse, hp.tokenize_expression]
  exact Program.ofTokens_of_adds hdistinct hitems

/-- The text that has to span the input is read as the pattern's items between two assertions. -/
theorem parse_wholeInput {p : Pattern} (hp : p.Consistent) :
    Program.parse (engineText .wholeInput p.expression) =
      .ok ⟨Regex.sequenceOf [.assertion .inputStart, Regex.sequenceOf p.readItems,
        .assertion .inputEnd], p.namesFrom 0, p.groupCount⟩ :=
  Program.parse_spanning (parse_anywhere hp)

end Pattern

end PatternAlgebra
