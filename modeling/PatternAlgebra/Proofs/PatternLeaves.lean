import PatternAlgebra.Proofs.Dangling
import PatternAlgebra.Proofs.Leaves

/-!
# Leaves of a pattern's expression

The anchors of a pattern are the assertions of its expression, in the same order, and where the input
has to be spanned the two assertions on its ends stand around them (`assertions_of_compile`). Texts,
classes and counts add none, whatever they hold: a `^` in a literal stays a `^`. In the same way only a
negated class of the pattern becomes one of its expression. Patterns that refer to a name with a `>` in
it are left out, as what stands behind the `>` is read as expression text.
-/

namespace PatternAlgebra

/-! ## Plain tokens -/

/-- Whether a token is neither an assertion nor a negated class. -/
def Token.isPlain : Token → Bool
  | .assertion _ | .one (.members true _) => false
  | _ => true

theorem all_isPlain_literalTokens (t : Text) : (literalTokens t).all Token.isPlain = true := by
  rw [literalTokens, List.all_map, List.all_eq_true]
  exact fun _ _ => rfl

theorem all_isPlain_bars (ts : List Text) :
    ([Token.bar].intercalate (ts.map literalTokens)).all Token.isPlain = true := by
  induction ts with
  | nil => rfl
  | cons t ts ih =>
    cases ts with
    | nil =>
      rw [List.map_singleton, List.intercalate_singleton]
      exact all_isPlain_literalTokens t
    | cons t' ts =>
      rw [List.map_cons, List.map_cons, List.intercalate_cons_cons, List.all_append, List.all_append,
        all_isPlain_literalTokens]
      exact ih

theorem all_isPlain_choiceTokens (first : Text) (others : List Text) :
    (choiceTokens first others).all Token.isPlain = true := by
  cases others with
  | nil => exact all_isPlain_literalTokens first
  | cons second others =>
    show ([Token.bar].intercalate ((first :: second :: others).map literalTokens) ++
      [Token.closing]).all Token.isPlain = true
    rw [List.all_append, all_isPlain_bars]
    rfl

theorem isPlain_unitToken {u : CodeUnit} (hcaret : u ≠ caret) (hdollar : u ≠ dollar) :
    (unitToken u).isPlain = true := by
  unfold unitToken
  split <;> first | rfl | contradiction

/-- Counts are plain, even where their braces are no quantifier. -/
theorem all_isPlain_bracesTokens {q : Quantifier} {inner : Text} (h : q.inner? = some inner) :
    (bracesTokens inner).all Token.isPlain = true := by
  rw [bracesTokens]
  split
  · rfl
  · show ((inner ++ [closeBrace]).map unitToken).all Token.isPlain = true
    rw [List.all_map, List.all_eq_true]
    intro u hu
    rcases List.mem_append.1 hu with hu | hu
    · exact isPlain_unitToken (q.ne_of_mem_inner h hu (by decide) (by decide))
        (q.ne_of_mem_inner h hu (by decide) (by decide))
    · obtain rfl := List.mem_singleton.1 hu
      rfl

theorem all_isPlain_quantifierTokens (q : Quantifier) : q.tokens.all Token.isPlain = true := by
  cases q with
  | optional | oneOrMore | zeroOrMore => rfl
  | exactly count => exact all_isPlain_bracesTokens (q := .exactly count) rfl
  | between bounds => exact all_isPlain_bracesTokens (q := .between bounds) rfl
  | atLeast count => exact all_isPlain_bracesTokens (q := .atLeast count) rfl

theorem all_isPlain_referenceTokens (named : Bool) (name : ReferenceName) :
    (name.tokens named).all Token.isPlain = true := by
  cases named with
  | true => rfl
  | false => exact all_isPlain_literalTokens _

theorem marked_of_isPlain {ts : List Token} (h : ts.all Token.isPlain = true) :
    ts.filter (!·.isPlain) = [] := by
  rw [List.filter_eq_nil_iff]
  intro t ht
  rw [List.all_eq_true.1 h t ht]
  exact Bool.false_ne_true

/-! ## Nodes -/

namespace Pattern

mutual

/-- The nodes of a pattern, each in front of those below it. -/
def nodes : Pattern → List Pattern
  | sequence first others => sequence first others :: (first.nodes ++ nodesAll others)
  | repeated body q => repeated body q :: body.nodes
  | group body => group body :: body.nodes
  | namedGroup name body => namedGroup name body :: body.nodes
  | p => [p]

/-- The nodes of some patterns, one after another. -/
def nodesAll : List Pattern → List Pattern
  | [] => []
  | p :: ps => p.nodes ++ nodesAll ps

end

/-- The token of an anchor or of a negated class. -/
def mark? : Pattern → Option Token
  | anchor a => some (.assertion a)
  | charClass true members => some (.one (.members true (members.map (fun u => .range u u))))
  | _ => none

/-- The tokens of a pattern that are not plain stand for its anchors and its negated classes. -/
theorem marked_tokens (named : Bool) (p : Pattern) :
    (p.tokens named).filter (!·.isPlain) = p.nodes.filterMap mark? := by
  induction p using inductParts (Q := fun ps =>
      (tokensAll named ps).filter (!·.isPlain) = (nodesAll ps).filterMap mark?) with
  | literal t => exact marked_of_isPlain (all_isPlain_literalTokens t)
  | either first others => exact marked_of_isPlain (all_isPlain_choiceTokens first others)
  | sequence first others hparts => exact hparts
  | repeated body q hbody =>
    have hgrouped : ∀ grouped, (groupedTokens grouped (body.tokens named)).filter (!·.isPlain) =
        body.nodes.filterMap mark? := by
      intro grouped
      cases grouped with
      | true =>
        show (body.tokens named ++ [Token.closing]).filter (!·.isPlain) = _
        rw [List.filter_append, hbody]
        exact List.append_nil _
      | false => exact hbody
    rw [tokens, List.filter_append, hgrouped, marked_of_isPlain (all_isPlain_quantifierTokens q),
      List.append_nil]
    rfl
  | anyUnit | shorthand | charRange | multiRange | nil => rfl
  | anchor a => cases a <;> rfl
  | charClass negated members => cases negated <;> rfl
  | group body hbody | namedGroup name body hbody =>
    show (body.tokens named ++ [Token.closing]).filter (!·.isPlain) = _
    rw [List.filter_append, hbody]
    exact List.append_nil _
  | backreference name => exact marked_of_isPlain (all_isPlain_referenceTokens named name)
  | cons q qs hq hqs => rw [tokensAll, List.filter_append, hq, hqs, nodesAll, List.filterMap_append]

/-- A negated class among the tokens of a pattern is one of its nodes. -/
theorem exists_negatedClass {named : Bool} {p : Pattern} {items : List ClassItem}
    (h : .one (.members true items) ∈ p.tokens named) :
    ∃ members, charClass true members ∈ p.nodes := by
  have hmarked : .one (.members true items) ∈ (p.tokens named).filter (!·.isPlain) :=
    List.mem_filter.2 ⟨h, rfl⟩
  rw [marked_tokens] at hmarked
  obtain ⟨node, hnode, hmark⟩ := List.mem_filterMap.1 hmarked
  unfold mark? at hmark
  split at hmark
  · exact nomatch Option.some.inj hmark
  next members => exact ⟨members, hnode⟩
  · contradiction

end Pattern

/-! ## Assertions -/

/-- The anchor of an assertion. -/
def Token.anchor? : Token → Option Anchor
  | .assertion a => some a
  | _ => none

/-- The anchor of an assertion. -/
def Regex.anchor? : Regex → Option Anchor
  | assertion a => some a
  | _ => none

/-- The anchors that an expression asserts, from left to right. -/
def Regex.assertions (r : Regex) : List Anchor := r.leaves.filterMap anchor?

/-- The anchors that an expression asserts are those of its tokens. -/
theorem Program.assertions_ofTokens {ts : List Token} {program : Program}
    (h : ofTokens ts = .ok program) :
    program.regex.assertions = ts.filterMap Token.anchor? := by
  have hleaf : ∀ t : Token,
      (t.leaf? (program.names.lookup ·)).bind Regex.anchor? = t.anchor? := by
    intro t
    cases t with
    | reference name =>
      show ((program.names.lookup name).map Regex.reference).bind Regex.anchor? = none
      cases program.names.lookup name <;> rfl
    | one | assertion | opening | closing | bar | quantifier => rfl
  rw [Regex.assertions, leaves_ofTokens h, List.filterMap_filterMap]
  simp only [hleaf]

namespace Pattern

/-- The anchor that a pattern is. -/
def anchor? : Pattern → Option Anchor
  | anchor a => some a
  | _ => none

/-- The anchors of a pattern, from left to right. -/
def anchors (p : Pattern) : List Anchor := p.nodes.filterMap anchor?

theorem anchors_tokens (named : Bool) (p : Pattern) :
    (p.tokens named).filterMap Token.anchor? = p.anchors := by
  have hplain : ∀ t : Token, (if (!t.isPlain) = true then t.anchor? else none) = t.anchor? := by
    intro t
    cases t with
    | one units =>
      show (if _ then none else none) = none
      rw [ite_self]
    | assertion | reference | opening | closing | bar | quantifier => rfl
  have hmark : ∀ node : Pattern, node.mark?.bind Token.anchor? = node.anchor? := by
    intro node
    cases node with
    | charClass negated members => cases negated <;> rfl
    | literal | either | sequence | repeated | anyUnit | shorthand | anchor | charRange | multiRange
    | group | namedGroup | backreference => rfl
  calc (p.tokens named).filterMap Token.anchor?
      = ((p.tokens named).filter (!·.isPlain)).filterMap Token.anchor? := by
        rw [List.filterMap_filter]
        simp only [hplain]
    _ = p.anchors := by
        rw [marked_tokens, List.filterMap_filterMap, anchors]
        simp only [hmark]

end Pattern

/-! ## Compiled patterns -/

namespace Scope

/-- The tokens that are read in a scope. -/
def tokens (scope : Scope) (ts : List Token) : List Token :=
  match scope with
  | .anywhere => ts
  | .wholeInput => Program.spanningTokens ts

/-- The anchors that are asserted in a scope. -/
def anchors (scope : Scope) (within : List Anchor) : List Anchor :=
  match scope with
  | .anywhere => within
  | .wholeInput => .inputStart :: (within ++ [.inputEnd])

theorem anchors_tokens (scope : Scope) (ts : List Token) :
    (scope.tokens ts).filterMap Token.anchor? = scope.anchors (ts.filterMap Token.anchor?) := by
  cases scope with
  | anywhere => rfl
  | wholeInput =>
    show .inputStart :: (ts ++ .closing :: Anchor.inputEnd.tokens).filterMap Token.anchor? = _
    rw [List.filterMap_append]
    rfl

end Scope

namespace Pattern

variable {p : Pattern} {scope : Scope} {program : Program}

/-- What a pattern is compiled to is read from its tokens. -/
theorem ofTokens_of_compile (hp : p.RefersByGroupNames)
    (h : compile scope p.expression = .ok program) :
    Program.ofTokens (scope.tokens (p.tokens (!p.groupNames.isEmpty))) = .ok program := by
  have htokens : tokenize (engineText scope p.expression) =
      .ok (scope.tokens (p.tokens (!p.groupNames.isEmpty))) := by
    cases scope with
    | anywhere => exact tokenize_expression hp
    | wholeInput => exact Program.tokenize_spanning (tokenize_expression hp)
  obtain ⟨-, hparse⟩ := compile_eq_ok.1 h
  rw [Program.parse, htokens] at hparse
  exact hparse

/-- The assertions of a compiled pattern are its anchors, in their order. -/
theorem assertions_of_compile (hp : p.RefersByGroupNames)
    (h : compile scope p.expression = .ok program) :
    program.regex.assertions = scope.anchors p.anchors := by
  rw [Program.assertions_ofTokens (ofTokens_of_compile hp h), scope.anchors_tokens, anchors_tokens]

/-- A class of a compiled pattern is not negated if none of the pattern's is. -/
theorem not_negated_of_compile (hp : p.RefersByGroupNames)
    (h : compile .anywhere p.expression = .ok program)
    (hclasses : ∀ members, charClass true members ∉ p.nodes) (items : List ClassItem) :
    .one (.members true items) ∉ program.regex.leaves := by
  intro hleaf
  obtain ⟨t, ht, hnamed⟩ := Program.exists_token_of_mem_leaves (ofTokens_of_compile hp h) hleaf
  cases t with
  | one units =>
    obtain rfl : units = .members true items := Regex.one.inj (Option.some.inj hnamed)
    obtain ⟨members, hnode⟩ := exists_negatedClass ht
    exact hclasses members hnode
  | reference name =>
    obtain ⟨index, -, hindex⟩ := Option.map_eq_some_iff.1 hnamed
    contradiction
  | assertion a => exact nomatch Option.some.inj hnamed
  | opening | closing | bar | quantifier => contradiction

end Pattern

end PatternAlgebra
