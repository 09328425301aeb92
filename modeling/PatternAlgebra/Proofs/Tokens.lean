import PatternAlgebra.Proofs.Braces
import PatternAlgebra.Proofs.Groups
import PatternAlgebra.Proofs.Lowering

/-!
# The tokens of a pattern

The tokens of a pattern are given by recursion on it, and its lowered text is cut into exactly these
(`lexes_expression`), next to any other text and inside any other pattern. The one condition is that
names are referred to that a group can have. How the tokens are put together is not decided here: a
counted quantifier stands behind the tokens of its body, grouped or not.
-/

namespace PatternAlgebra

open Lowering

/-- The tokens of a text that stands for itself. -/
def literalTokens (t : Text) : List Token := t.map (fun u => .one (.only u))

/-- The tokens of a choice between texts. -/
def choiceTokens (first : Text) : List Text → List Token
  | [] => literalTokens first
  | others =>
    .opening .plain :: ([Token.bar].intercalate ((first :: others).map literalTokens) ++ [.closing])

/-- The tokens of an anchor. Those on the input are lowered to groups. -/
def Anchor.tokens (a : Anchor) : List Token :=
  match a with
  | .lineStart | .lineEnd => [.assertion a]
  | .inputStart | .inputEnd => [.opening .plain, .assertion a, .closing]

/-- The tokens of a reference, which without named groups is plain text. -/
def ReferenceName.tokens (named : Bool) (name : ReferenceName) : List Token :=
  if named then [.reference name.text]
  else literalTokens (lowerK :: lessThan :: (name.text ++ [greaterThan]))

/-- Tokens in a group that captures nothing, if they are to be grouped. -/
def groupedTokens (grouped : Bool) (ts : List Token) : List Token :=
  if grouped then .opening .plain :: (ts ++ [.closing]) else ts

namespace Pattern

mutual

/-- The tokens of a pattern. `named` says whether names are read as references. -/
@[simp] def tokens (named : Bool) : Pattern → List Token
  | literal t => literalTokens t
  | either first others => choiceTokens first others
  | sequence first others => first.tokens named ++ tokensAll named others
  | repeated body quantifier =>
    groupedTokens (quantifier.groups body.expression) (body.tokens named) ++ quantifier.tokens
  | anyUnit => [.one .anyOnLine]
  | shorthand s => [.one (.members false [.shorthand s false])]
  | anchor a => a.tokens
  | charClass negated members => [.one (.members negated (members.map (fun u => .range u u)))]
  | charRange r => [.one (.members false [.range r.first r.last])]
  | multiRange first others =>
    [.one (.members false ((first :: others).map (fun r => .range r.first r.last)))]
  | group body => .opening (.captured none) :: (body.tokens named ++ [.closing])
  | namedGroup name body =>
    .opening (.captured (some name.text)) :: (body.tokens named ++ [.closing])
  | backreference name => name.tokens named

/-- The tokens of patterns, one after another. -/
def tokensAll (named : Bool) : List Pattern → List Token
  | [] => []
  | p :: ps => p.tokens named ++ tokensAll named ps

end

@[simp] theorem tokensAll_eq_flatMap (named : Bool) (ps : List Pattern) :
    tokensAll named ps = ps.flatMap (tokens named) := by
  induction ps with
  | nil => rfl
  | cons p ps ih => rw [tokensAll, ih, List.flatMap_cons]

end Pattern

/-! ## Lowering the text of a pattern -/

theorem inert_suffix (q : Quantifier) : Inert q.suffix := by
  have hbraced : ∀ inner, q.inner? = some inner → Inert (braced inner) := by
    intro inner h
    refine .cons (by decide) (.append (.of_forall_ne (fun u hu => ?_)) (.unit (by decide)))
    exact q.ne_of_mem_inner h hu (by decide) (by decide)
  cases q with
  | optional | oneOrMore | zeroOrMore => exact .unit (by decide)
  | exactly | between | atLeast => exact hbraced _ rfl

theorem endsQuoting_grouped (t : Text) : endsQuoting (grouped t) = false :=
  endsQuoting_concat (show closeParen ≠ backslash by decide) (openParen :: questionMark :: colon :: t)

theorem lower_grouped {t : Text} (h : endsQuoting t = false) :
    lower (grouped t) = grouped (lower t) := by
  simp (disch := decide) [grouped, lower_append h]

/-- What stands behind a text is lowered by itself, and so is the text, whether in a group or not. -/
theorem lower_behind {t suffix : Text} (ht : endsQuoting t = false) (hsuffix : Inert suffix)
    (groups : Bool) :
    lower ((if groups then grouped t else t) ++ suffix) =
      (if groups then grouped (lower t) else lower t) ++ suffix := by
  cases groups with
  | true =>
    show lower (grouped t ++ suffix) = grouped (lower t) ++ suffix
    rw [lower_append (endsQuoting_grouped t), lower_grouped ht, hsuffix.lower]
  | false =>
    show lower (t ++ suffix) = lower t ++ suffix
    rw [lower_append ht, hsuffix.lower]

/-- A quantifier groups text after lowering as it did before. -/
theorem lower_apply {t : Text} (h : endsQuoting t = false) (q : Quantifier) :
    lower (q.apply t) = (if q.groups t then grouped (lower t) else lower t) ++ q.suffix := by
  rw [q.apply_eq]
  exact lower_behind h (inert_suffix q) _

namespace Pattern

/-- No pattern's text ends in an unpaired backslash. -/
theorem endsQuoting_expression (p : Pattern) : endsQuoting p.expression = false := by
  induction p using induct with
  | literal t => exact (inert_escapeText t).endsQuoting
  | either first others => exact (inert_choiceText first others).endsQuoting
  | sequence first others hfirst hothers =>
    rw [expression, expressions_eq_flatMap, endsQuoting_append hfirst]
    exact endsQuoting_flatMap hothers
  | repeated body q hbody =>
    rw [expression, q.apply_eq]
    split
    · rw [endsQuoting_append (endsQuoting_grouped _), (inert_suffix q).endsQuoting]
    · rw [endsQuoting_append hbody, (inert_suffix q).endsQuoting]
  | anyUnit => rfl
  | shorthand s => cases s <;> rfl
  | anchor a => cases a <;> rfl
  | charClass negated members =>
    have hclose : closeBracket ≠ backslash := by decide
    cases negated with
    | true => exact endsQuoting_concat hclose (openBracket :: caret :: escapeClassText members)
    | false => exact endsQuoting_concat hclose (openBracket :: escapeClassText members)
  | charRange r => exact endsQuoting_concat (by decide) (openBracket :: r.classBody)
  | multiRange first others =>
    cases others with
    | nil => exact endsQuoting_concat (by decide) (openBracket :: first.classBody)
    | cons second others =>
      exact endsQuoting_concat (by decide)
        (openBracket :: (first :: second :: others).flatMap CharRange.classBody)
  | group body => exact endsQuoting_concat (by decide) (openParen :: body.expression)
  | namedGroup name body => exact endsQuoting_concat (by decide) (name.opening ++ body.expression)
  | backreference name =>
    exact endsQuoting_concat (by decide) (backslash :: lowerK :: lessThan :: name.text)

theorem lower_sequence (first : Pattern) (others : List Pattern) :
    lower (sequence first others).expression =
      lower first.expression ++ others.flatMap (fun p => lower p.expression) := by
  rw [expression, expressions_eq_flatMap, lower_append first.endsQuoting_expression,
    lower_flatMap (fun p _ => p.endsQuoting_expression)]

theorem inert_class (negated : Bool) (members : Text) :
    Inert (charClass negated members).expression := by
  have hmembers : Inert (escapeClassText members ++ [closeBracket]) :=
    (Inert.flatMap (fun u _ => inert_escapeInClass u)).append (.unit (by decide))
  cases negated with
  | true => exact .cons (by decide) (.cons (by decide) hmembers)
  | false => exact .cons (by decide) hmembers

theorem multiRange_expression (first : CharRange) (others : List CharRange) :
    (multiRange first others).expression =
      openBracket :: ((first :: others).flatMap CharRange.classBody ++ [closeBracket]) := by
  cases others with
  | nil => simp [CharRange.expression]
  | cons second others => rfl

theorem inert_multiRange (first : CharRange) (others : List CharRange) :
    Inert (multiRange first others).expression := by
  rw [multiRange_expression]
  exact .cons (by decide) ((Inert.flatMap (fun r _ => inert_classBody r)).append (.unit (by decide)))

theorem lower_group (body : Pattern) :
    lower (group body).expression = openParen :: (lower body.expression ++ [closeParen]) := by
  simp (disch := decide) [lower_append body.endsQuoting_expression]

theorem ne_backslash_of_isWord {u : CodeUnit} (h : (Text.isLetter u || Text.isDigit u) = true) :
    u ≠ backslash := by
  rintro rfl
  revert h
  decide

theorem forall_isWord {name : Text} (h : isGroupName name = true) :
    ∀ u ∈ name, (Text.isLetter u || Text.isDigit u) = true := by
  cases name with
  | nil => contradiction
  | cons v others =>
    rw [isGroupName, Bool.and_eq_true, List.all_eq_true] at h
    intro u hu
    rcases List.mem_cons.1 hu with rfl | hu
    · rw [h.1, Bool.true_or]
    · exact h.2 u hu

theorem inert_opening (name : GroupName) : Inert name.opening :=
  .cons (by decide) (.cons (by decide) (.cons (by decide)
    (.append (.of_forall_ne (fun u hu => ne_backslash_of_isWord (forall_isWord name.wellFormed u hu)))
      (.unit (by decide)))))

theorem lower_reference {name : ReferenceName} (h : isGroupName name.text = true) :
    lower name.expression = name.expression := by
  have htail : Inert (lessThan :: (name.text ++ [greaterThan])) :=
    .cons (by decide)
      (.append (.of_forall_ne (fun u hu => ne_backslash_of_isWord (forall_isWord h u hu)))
        (.unit (by decide)))
  rw [ReferenceName.expression, lower_escape, htail.lower]
  rfl

theorem lower_namedGroup (name : GroupName) (body : Pattern) :
    lower (namedGroup name body).expression =
      name.opening ++ (lower body.expression ++ [closeParen]) := by
  simp (disch := decide) [(inert_opening name).lower_append,
    lower_append body.endsQuoting_expression]

/-! ## What a pattern's text begins with -/

/-- A text that does not begin with a question mark, or goes on as one does that does not. -/
def keepsOpening (t : Text) : Prop :=
  ∀ rest : Text, rest.head? ≠ some questionMark → (t ++ rest).head? ≠ some questionMark

theorem keepsOpening_nil : keepsOpening [] := fun _ h => h

theorem keepsOpening_append {s t : Text} (hs : keepsOpening s) (ht : keepsOpening t) :
    keepsOpening (s ++ t) := by
  intro rest h
  rw [List.append_assoc]
  exact hs _ (ht rest h)

theorem keepsOpening_flatMap {α : Type} {f : α → Text} {l : List α}
    (h : ∀ a ∈ l, keepsOpening (f a)) : keepsOpening (l.flatMap f) := by
  induction l with
  | nil => exact keepsOpening_nil
  | cons a l ih =>
    rw [List.flatMap_cons]
    exact keepsOpening_append (h a List.mem_cons_self)
      (ih (fun b hb => h b (List.mem_cons_of_mem a hb)))

theorem keepsOpening_cons {u : CodeUnit} (hu : u ≠ questionMark) (t : Text) :
    keepsOpening (u :: t) :=
  fun _ _ => by simpa using hu

theorem keepsOpening_escapeText (t : Text) : keepsOpening (escapeText t) :=
  keepsOpening_flatMap (fun u _ => by
    unfold escapeUnit
    split
    · exact keepsOpening_cons (by decide) [u]
    next h =>
      refine keepsOpening_cons ?_ []
      rintro rfl
      exact h (by decide))

/-- The text of a pattern never begins with a question mark. -/
theorem keepsOpening_expression (p : Pattern) : keepsOpening p.expression := by
  induction p using induct with
  | literal t => exact keepsOpening_escapeText t
  | either first others =>
    cases others with
    | nil => exact keepsOpening_escapeText first
    | cons second others => exact keepsOpening_cons (by decide) _
  | sequence first others hfirst hothers =>
    rw [expression, expressions_eq_flatMap]
    exact keepsOpening_append hfirst (keepsOpening_flatMap hothers)
  | repeated body q hbody =>
    rw [expression, q.apply_eq]
    split
    · exact keepsOpening_cons (by decide) _
    next hgroups =>
      -- Without a group the body has a text of its own, and the quantifier does not come first.
      cases hbodyText : body.expression with
      | nil =>
        simp [Quantifier.groups, hbodyText, needsGrouping, isBracketed, isEscapedUnit] at hgroups
      | cons u t =>
        have hu : u ≠ questionMark := by
          have := hbody [] (by simp)
          simpa [hbodyText] using this
        exact keepsOpening_cons hu _
  | anyUnit => exact keepsOpening_cons (by decide) _
  | shorthand s => cases s <;> exact keepsOpening_cons (by decide) _
  | anchor a => cases a <;> exact keepsOpening_cons (by decide) _
  | charClass negated members => cases negated <;> exact keepsOpening_cons (by decide) _
  | multiRange first others => cases others <;> exact keepsOpening_cons (by decide) _
  | charRange | group | namedGroup | backreference => exact keepsOpening_cons (by decide) _

theorem head?_lower {t : Text} (h : t.head? ≠ some questionMark) :
    (lower t).head? ≠ some questionMark := by
  cases t with
  | nil => exact h
  | cons u t =>
    by_cases hu : u = backslash
    · subst hu
      cases t with
      | nil => decide
      | cons v t =>
        rw [lower_escape, lowerEscape]
        split
        · show some openParen ≠ some questionMark
          decide
        · split
          · show some openParen ≠ some questionMark
            decide
          · show some backslash ≠ some questionMark
            decide
    · rw [lower_unit hu]
      simpa using h

/-! ## Cutting the text of a pattern -/

theorem lexes_choiceText (named : Bool) (first : Text) (others : List Text) :
    Lexes named (choiceText first others) (choiceTokens first others) := by
  have hjoin : ∀ ts : List Text, Lexes named ([verticalBar].intercalate (ts.map escapeText))
      ([Token.bar].intercalate (ts.map literalTokens)) := by
    intro ts
    induction ts with
    | nil => exact .nil
    | cons t ts ih =>
      cases ts with
      | nil => simpa [literalTokens] using Lexes.escapeText t
      | cons t' ts =>
        simp only [List.map_cons, List.intercalate_cons_cons] at ih ⊢
        exact ((Lexes.escapeText t).append .bar).append ih
  cases others with
  | nil => exact Lexes.escapeText first
  | cons second others => exact .grouped (hjoin (first :: second :: others))

theorem lexes_inputAnchors (named : Bool) :
    Lexes named inputStartText [.opening .plain, .assertion .inputStart, .closing] ∧
      Lexes named inputEndText [.opening .plain, .assertion .inputEnd, .closing] := by
  have hstart : inputStartText =
      grouped (openParen :: questionMark :: startAssertionTail) := by decide
  have hend : inputEndText = grouped (openParen :: questionMark :: endAssertionTail) := by decide
  have hs : Lexes named (openParen :: questionMark :: startAssertionTail) [.assertion .inputStart] :=
    .of_tokenFrom (fun _ => rfl)
  have he : Lexes named (openParen :: questionMark :: endAssertionTail) [.assertion .inputEnd] :=
    .of_tokenFrom (fun _ => rfl)
  rw [hstart, hend]
  exact ⟨hs.grouped, he.grouped⟩

theorem lexes_anchor (named : Bool) (a : Anchor) : Lexes named (lower a.expression) a.tokens := by
  cases a with
  | lineStart => exact .unit (by decide) (by decide) (by decide) (by decide)
  | lineEnd => exact .unit (by decide) (by decide) (by decide) (by decide)
  | inputStart => exact (lexes_inputAnchors named).1
  | inputEnd => exact (lexes_inputAnchors named).2

theorem isMetacharacter_of_isWord {u : CodeUnit} (h : (Text.isLetter u || Text.isDigit u) = true) :
    isMetacharacter u = false := by
  cases hm : isMetacharacter u with
  | false => rfl
  | true =>
    have hword : (!(Text.isLetter u || Text.isDigit u)) = true :=
      of_isMetacharacter (P := fun m => !(Text.isLetter m || Text.isDigit m)) hm (by decide)
    rw [h] at hword
    contradiction

theorem escapeText_eq_self {t : Text} (h : ∀ u ∈ t, isMetacharacter u = false) :
    escapeText t = t := by
  induction t with
  | nil => rfl
  | cons u t ih =>
    have hu : escapeUnit u = [u] := by rw [escapeUnit, h u List.mem_cons_self]; rfl
    have hrest := ih (fun v hv => h v (List.mem_cons_of_mem u hv))
    simp [hu, hrest]

theorem lexes_reference (named : Bool) {name : ReferenceName} (h : isGroupName name.text = true) :
    Lexes named name.expression (name.tokens named) := by
  cases named with
  | true => exact .reference h
  | false =>
    have hplain : ∀ u ∈ lessThan :: (name.text ++ [greaterThan]), isMetacharacter u = false := by
      intro u hu
      simp only [List.mem_cons, List.mem_append, List.not_mem_nil, or_false] at hu
      rcases hu with rfl | hu | rfl
      · decide
      · exact isMetacharacter_of_isWord (forall_isWord h u hu)
      · decide
    have hk : Lexes false [backslash, lowerK] [.one (.only lowerK)] :=
      .of_tokenFrom (t := [lowerK]) (fun _ => rfl)
    have hname : Lexes false (escapeText (lessThan :: (name.text ++ [greaterThan])))
        (literalTokens (lessThan :: (name.text ++ [greaterThan]))) := .escapeText _
    rw [escapeText_eq_self hplain] at hname
    exact hk.append hname

theorem RefersByGroupNames.first {first : Pattern} {others : List Pattern}
    (h : (sequence first others).RefersByGroupNames) : first.RefersByGroupNames :=
  fun name hname => h name (List.mem_append_left _ hname)

theorem RefersByGroupNames.others {first : Pattern} {others : List Pattern}
    (h : (sequence first others).RefersByGroupNames) {p : Pattern} (hp : p ∈ others) :
    p.RefersByGroupNames := by
  intro name hname
  refine h name (List.mem_append_right _ ?_)
  rw [referencesAll_eq_flatMap]
  exact List.mem_flatMap.2 ⟨p, hp, hname⟩

/-- A text, in a group or not, and what stands behind it. -/
theorem lexes_behind {named : Bool} {t suffix : Text} {ts qs : List Token} (ht : Lexes named t ts)
    (hsuffix : Lexes named suffix qs) (groups : Bool) :
    Lexes named ((if groups then grouped t else t) ++ suffix) (groupedTokens groups ts ++ qs) := by
  cases groups with
  | true => exact ht.grouped.append hsuffix
  | false => exact ht.append hsuffix

/-- The lowered text of a pattern is cut into the pattern's tokens, whatever follows it. -/
theorem lexes_expression (named : Bool) {p : Pattern} (hp : p.RefersByGroupNames) :
    Lexes named (lower p.expression) (p.tokens named) := by
  induction p using induct with
  | literal t =>
    rw [expression, (inert_escapeText t).lower]
    exact .escapeText t
  | either first others =>
    rw [expression, (inert_choiceText first others).lower]
    exact lexes_choiceText named first others
  | sequence first others hfirst hothers =>
    rw [lower_sequence, tokens, tokensAll_eq_flatMap]
    exact (hfirst hp.first).append (.flatMap (fun q hq => hothers q hq (hp.others hq)))
  | repeated body q hbody =>
    rw [expression, lower_apply body.endsQuoting_expression, tokens]
    exact lexes_behind (hbody hp) (q.lexes_suffix named) _
  | anyUnit => exact .unit (by decide) (by decide) (by decide) (by decide)
  | shorthand s =>
    have hinert : Inert s.expression := by
      cases s <;> exact .escape (by decide) (by decide) (by decide)
    rw [expression, hinert.lower]
    exact .shorthand s
  | anchor a => exact lexes_anchor named a
  | charClass negated members =>
    rw [(inert_class negated members).lower]
    cases negated with
    | true => exact .negatedClass members
    | false => exact .plainClass members
  | charRange r =>
    have hsingle : (charRange r).expression = (multiRange r []).expression := rfl
    rw [hsingle, (inert_multiRange r []).lower, multiRange_expression]
    exact .ranges r []
  | multiRange first others =>
    rw [(inert_multiRange first others).lower, multiRange_expression]
    exact .ranges first others
  | group body hbody =>
    rw [lower_group]
    refine .captured (hbody hp) (head?_lower ?_)
    have := keepsOpening_expression body [] (by simp)
    rwa [List.append_nil] at this
  | namedGroup name body hbody =>
    rw [lower_namedGroup]
    exact (Lexes.opening name).append ((hbody hp).append .closing)
  | backreference name =>
    have hname : isGroupName name.text = true := hp name (List.mem_singleton_self name)
    rw [expression, lower_reference hname]
    exact lexes_reference named hname

end Pattern

end PatternAlgebra
