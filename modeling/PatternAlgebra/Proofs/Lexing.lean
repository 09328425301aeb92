import PatternAlgebra.Pattern.Expression
import PatternAlgebra.Regex.Lexer

/-!
# Texts that are cut by themselves

A text is cut by itself when its tokens do not depend on what follows it. Such texts can be put one
after another. Quoted units, classes, groups and references are of this sort; an opening bracket on
its own is not, as a question mark behind it would change it.
-/

namespace PatternAlgebra

/-- A text that is cut into these tokens, whatever follows it. -/
def Lexes (named : Bool) (t : Text) (ts : List Token) : Prop :=
  ∀ rest, tokens named (t ++ rest) = (tokens named rest).map (ts ++ ·)

theorem Except.map_map_append {ε α : Type} (x : Except ε (List α)) (s t : List α) :
    (x.map (t ++ ·)).map (s ++ ·) = x.map (s ++ t ++ ·) := by
  cases x with
  | error e => rfl
  | ok l => simp [Except.map]

theorem Except.map_nil_append {ε α : Type} (x : Except ε (List α)) : x.map ([] ++ ·) = x := by
  cases x <;> rfl

namespace Lexes

variable {named : Bool} {s t : Text} {ss ts : List Token} {u : CodeUnit}

theorem nil : Lexes named [] [] := fun rest => (Except.map_nil_append (tokens named rest)).symm

theorem append (hs : Lexes named s ss) (ht : Lexes named t ts) :
    Lexes named (s ++ t) (ss ++ ts) := by
  intro rest
  rw [List.append_assoc, hs, ht, Except.map_map_append]

theorem of_tokenFrom {token : Token}
    (h : ∀ rest, tokenFrom named u (t ++ rest) = .ok (token, rest)) :
    Lexes named (u :: t) [token] :=
  fun rest => tokens_cons (h rest)

theorem flatMap {α : Type} {f : α → Text} {g : α → List Token} {l : List α}
    (h : ∀ a ∈ l, Lexes named (f a) (g a)) : Lexes named (l.flatMap f) (l.flatMap g) := by
  induction l with
  | nil => exact nil
  | cons a l ih =>
    rw [List.flatMap_cons, List.flatMap_cons]
    exact (h a List.mem_cons_self).append (ih (fun b hb => h b (List.mem_cons_of_mem a hb)))

/-- The whole text is cut as a part of it would be. -/
theorem tokens_eq (h : Lexes named t ts) : tokens named t = .ok ts := by
  have := h []
  rw [List.append_nil, tokens_nil] at this
  simpa [Except.map] using this

/-! ## Units -/

/-- A unit that begins no longer token. -/
theorem unit (hb : u ≠ backslash) (hp : u ≠ openParen) (hc : u ≠ openBracket) (hr : u ≠ openBrace) :
    Lexes named [u] [unitToken u] :=
  of_tokenFrom (fun rest => by
    rw [tokenFrom, if_neg hb, if_neg hp, if_neg hc, if_neg hr, List.nil_append])

/-- Units that begin no longer token, one after another. -/
theorem map_unitToken {t : Text}
    (h : ∀ u ∈ t, u ≠ backslash ∧ u ≠ openParen ∧ u ≠ openBracket ∧ u ≠ openBrace) :
    Lexes named t (t.map unitToken) := by
  induction t with
  | nil => exact nil
  | cons u t ih =>
    obtain ⟨hb, hp, hc, hr⟩ := h u List.mem_cons_self
    exact (unit hb hp hc hr).append (ih (fun v hv => h v (List.mem_cons_of_mem u hv)))

end Lexes

/-- What holds of each of the metacharacters holds of a unit that is one. -/
theorem of_isMetacharacter {P : CodeUnit → Bool} {u : CodeUnit} (h : isMetacharacter u = true)
    (hall : [backslash, fullStop, asterisk, plus, questionMark, caret, dollar, openBrace, closeBrace,
      openParen, closeParen, openBracket, closeBracket, verticalBar, hyphen].all P = true) :
    P u = true := by
  refine List.all_eq_true.1 hall u ?_
  simpa [isMetacharacter, or_assoc] using h

theorem ne_of_isMetacharacter {u m : CodeUnit} (hu : isMetacharacter u = false)
    (hm : isMetacharacter m = true) : u ≠ m := by
  rintro rfl
  rw [hu] at hm
  contradiction

/-- Units that stand for themselves outside a class. -/
theorem unitToken_of_not_metacharacter {u : CodeUnit} (h : isMetacharacter u = false) :
    unitToken u = .one (.only u) := by
  simp only [isMetacharacter, Bool.or_eq_false_iff, beq_eq_false_iff_ne] at h
  unfold unitToken
  split <;> simp_all

/-- An escape that is no shorthand and no reference stands for its unit. -/
theorem escapeToken_of_ne {named : Bool} {u : CodeUnit} (hk : u ≠ lowerK)
    (hs : shorthand? u = none) (rest : Text) :
    escapeToken named (u :: rest) = .ok (.one (.only u), rest) := by
  have hcond : (named && u == lowerK) = false := by simp [hk]
  simp only [escapeToken, hcond, Bool.false_eq_true, if_false, hs]

theorem shorthand?_of_metacharacter {u : CodeUnit} (h : isMetacharacter u = true) :
    u ≠ lowerK ∧ shorthand? u = none := by
  have hunit : (u != lowerK && (shorthand? u).isNone) = true :=
    of_isMetacharacter (P := fun m => m != lowerK && (shorthand? m).isNone) h (by decide)
  simpa using hunit

/-- A name does not begin as an assertion on the input's start goes on. -/
theorem startAssertion_isPrefixOf {t : Text} {r : Text × Text}
    (h : NameText.bracketedName? t = some r) :
    startAssertionTail.isPrefixOf (lessThan :: t) = false := by
  have htail : startAssertionTail = lessThan :: 0x21 :: utf16 "[\\s\\S])" := by decide
  cases t with
  | nil => rfl
  | cons v t =>
    have hv : (0x21 : CodeUnit) ≠ v := by
      rintro rfl
      have hchar : NameText.nameChar? ((0x21 : CodeUnit) :: t) = some ('!', t) :=
        NameText.nameChar?_unit (by decide) (by decide) (by decide) t
      have hbegin : Identifier.canBegin '!' = false := by decide
      simp [NameText.bracketedName?, hchar, hbegin] at h
    rw [htail, List.isPrefixOf_cons_cons, List.isPrefixOf_cons_cons, beq_false_of_ne hv]
    rfl

theorem endAssertion_isPrefixOf (rest : Text) :
    endAssertionTail.isPrefixOf (lessThan :: rest) = false := by
  have htail : endAssertionTail = 0x21 :: utf16 "[\\s\\S])" := by decide
  rw [htail, List.isPrefixOf_cons_cons]
  rfl

theorem groupOpening_named {t name after : Text}
    (h : NameText.bracketedName? t = some (name, after)) :
    groupOpening (lessThan :: t) = .ok (.opening (.captured (some name)), after) := by
  unfold groupOpening
  rw [startAssertion_isPrefixOf h, if_neg Bool.false_ne_true, endAssertion_isPrefixOf,
    if_neg Bool.false_ne_true]
  split
  next heq => exact absurd (List.cons.inj heq).1 (by decide)
  next rest heq =>
    obtain rfl := (List.cons.inj heq).2
    rw [h]
  next hother => exact absurd rfl (hother t)

namespace Lexes

variable {named : Bool} {t : Text} {ts : List Token} {u : CodeUnit}

theorem escape (hk : u ≠ lowerK) (hs : shorthand? u = none) :
    Lexes named [backslash, u] [.one (.only u)] :=
  of_tokenFrom (t := [u]) (fun rest => by
    rw [tokenFrom, if_pos rfl, List.singleton_append, escapeToken_of_ne hk hs])

theorem escapeUnit (u : CodeUnit) : Lexes named (escapeUnit u) [.one (.only u)] := by
  unfold PatternAlgebra.escapeUnit
  split
  next h =>
    obtain ⟨hk, hs⟩ := shorthand?_of_metacharacter h
    exact escape hk hs
  next h =>
    have hplain : isMetacharacter u = false := by simpa using h
    rw [← unitToken_of_not_metacharacter hplain]
    exact unit (ne_of_isMetacharacter hplain (by decide)) (ne_of_isMetacharacter hplain (by decide))
      (ne_of_isMetacharacter hplain (by decide)) (ne_of_isMetacharacter hplain (by decide))

/-- Literal text is cut into its units. -/
theorem escapeText (t : Text) :
    Lexes named (escapeText t) (t.map (fun u => .one (.only u))) := by
  rw [← List.flatMap_singleton' (t.map _), List.flatMap_map]
  exact flatMap (fun u _ => escapeUnit u)

theorem shorthand (s : Shorthand) :
    Lexes named s.expression [.one (.members false [.shorthand s false])] := by
  have hread : ∀ v, v ≠ lowerK → shorthand? v = some (s, false) →
      Lexes named [backslash, v] [.one (.members false [.shorthand s false])] := by
    intro v hk hs
    refine of_tokenFrom (t := [v]) (fun rest => ?_)
    have hcond : (named && v == lowerK) = false := by simp [hk]
    rw [tokenFrom, if_pos rfl, List.singleton_append]
    simp only [escapeToken, hcond, Bool.false_eq_true, if_false, hs]
  cases s <;> exact hread _ (by decide) rfl

/-! ## Brackets -/

theorem closing : Lexes named [closeParen] [.closing] :=
  unit (by decide) (by decide) (by decide) (by decide)

theorem bar : Lexes named [verticalBar] [.bar] :=
  unit (by decide) (by decide) (by decide) (by decide)

theorem plainOpening : Lexes named [openParen, questionMark, colon] [.opening .plain] :=
  of_tokenFrom (t := [questionMark, colon]) (fun _ => rfl)

/-- A group that captures nothing. -/
theorem grouped (h : Lexes named t ts) :
    Lexes named (grouped t) (.opening .plain :: (ts ++ [.closing])) :=
  plainOpening.append (h.append closing)

/-- A group that captures by number. -/
theorem captured (h : Lexes named t ts) (hq : t.head? ≠ some questionMark) :
    Lexes named (openParen :: (t ++ [closeParen]))
      (.opening (.captured none) :: (ts ++ [.closing])) := by
  intro rest
  have hopen : tokenFrom named openParen (t ++ [closeParen] ++ rest) =
      .ok (.opening (.captured none), t ++ [closeParen] ++ rest) := by
    have hne : ∀ r, t ++ [closeParen] ++ rest ≠ questionMark :: r := by
      intro r hr
      cases t with
      | nil => exact absurd (List.cons.inj hr).1 (by decide)
      | cons v t => exact hq (by rw [(List.cons.inj hr).1]; rfl)
    rw [tokenFrom, if_neg (by decide), if_pos rfl]
    unfold openingToken
    split
    next r hr => exact absurd hr (hne r)
    · rfl
  rw [List.cons_append, tokens_cons hopen, h.append closing rest]
  exact Except.map_map_append (tokens named rest) [.opening (.captured none)] (ts ++ [.closing])

/-- The opening of a group that captures under a name. -/
theorem opening (name : GroupName) :
    Lexes named name.opening [.opening (.captured (some name.text))] := by
  refine of_tokenFrom (t := questionMark :: lessThan :: (name.text ++ [greaterThan])) (fun rest => ?_)
  rw [tokenFrom, if_neg (by decide), if_pos rfl]
  show groupOpening (lessThan :: (name.text ++ [greaterThan] ++ rest)) = _
  rw [List.append_assoc, List.singleton_append]
  exact groupOpening_named (NameText.bracketedName?_append name.wellFormed rest)

/-- A reference by name, where the text has named groups. -/
theorem reference {name : ReferenceName} (h : isGroupName name.text = true) :
    Lexes true name.expression [.reference name.text] := by
  refine of_tokenFrom (t := lowerK :: lessThan :: (name.text ++ [greaterThan])) (fun rest => ?_)
  have hread := NameText.bracketedName?_append h rest
  rw [tokenFrom, if_pos rfl, List.cons_append, List.cons_append, List.append_assoc,
    List.singleton_append]
  unfold escapeToken
  have hk : (true && lowerK == lowerK) = true := rfl
  dsimp only
  rw [if_pos hk]
  split
  next t heq =>
    obtain rfl := (List.cons.inj heq).2
    rw [hread]
  next hother => exact absurd rfl (hother _)

end Lexes

/-! ## Classes -/

/-- A part of a class that is read as these atoms, whatever follows it. -/
def ClassReads (named : Bool) (t : Text) (atoms : List ClassAtom) : Prop :=
  ∀ rest, classAtoms named (t ++ rest) =
    (classAtoms named rest).map (fun r => (atoms ++ r.1, r.2))

namespace ClassReads

variable {named : Bool} {s t : Text} {as bs : List ClassAtom} {u : CodeUnit}

theorem nil : ClassReads named [] [] := by
  intro rest
  show classAtoms named rest = _
  cases classAtoms named rest <;> rfl

theorem append (hs : ClassReads named s as) (ht : ClassReads named t bs) :
    ClassReads named (s ++ t) (as ++ bs) := by
  intro rest
  rw [List.append_assoc, hs, ht]
  cases classAtoms named rest with
  | error e => rfl
  | ok r => simp [Except.map]

theorem flatMap {α : Type} {f : α → Text} {g : α → List ClassAtom} {l : List α}
    (h : ∀ a ∈ l, ClassReads named (f a) (g a)) : ClassReads named (l.flatMap f) (l.flatMap g) := by
  induction l with
  | nil => exact nil
  | cons a l ih =>
    rw [List.flatMap_cons, List.flatMap_cons]
    exact (h a List.mem_cons_self).append (ih (fun b hb => h b (List.mem_cons_of_mem a hb)))

/-- A quoted unit of a class stands for itself, a hyphen too. -/
theorem escapeInClass (u : CodeUnit) : ClassReads named (escapeInClass [u]) [.single u] := by
  intro rest
  rw [escapeInClass_singleton]
  split
  next hu =>
    have hk : u ≠ lowerK ∧ shorthand? u = none := by
      simp only [classMetacharacters, List.mem_cons, List.not_mem_nil, or_false] at hu
      rcases hu with rfl | rfl | rfl | rfl <;> decide
    have hatom : ClassAtom.ofEscape u = .single u := by rw [ClassAtom.ofEscape, hk.2]
    rw [List.cons_append, List.singleton_append, classAtoms_escape (fun h => hk.1 h.2), hatom]
    rfl
  next hu =>
    simp only [classMetacharacters, List.mem_cons, List.not_mem_nil, or_false, not_or] at hu
    obtain ⟨hb, _, hc, hh⟩ := hu
    have hatom : ClassAtom.ofUnit u = .single u := if_neg hh
    rw [List.singleton_append, classAtoms_unit hc hb, hatom]
    rfl

theorem hyphen : ClassReads named [hyphen] [.dash] := by
  intro rest
  rw [List.singleton_append, classAtoms_unit (by decide) (by decide)]
  rfl

theorem escapeClassText (members : Text) :
    ClassReads named (escapeClassText members) (members.flatMap (fun u => [.single u])) :=
  flatMap (fun u _ => escapeInClass u)

theorem classBody (r : CharRange) :
    ClassReads named r.classBody [.single r.first, .dash, .single r.last] :=
  (escapeInClass r.first).append (hyphen.append (escapeInClass r.last))

end ClassReads

namespace ClassAtom

theorem items_singles (members : Text) :
    items (members.flatMap (fun u => [.single u])) = .ok (members.map (fun u => .range u u)) := by
  induction members with
  | nil => rfl
  | cons u members ih =>
    have hstep : items (.single u :: members.flatMap (fun u => [.single u])) =
        (items (members.flatMap (fun u => [.single u]))).map (item (.single u) :: ·) := by
      cases members <;> rfl
    rw [List.flatMap_cons, List.singleton_append, hstep, ih]
    rfl

theorem items_ranges (rs : List CharRange) :
    items (rs.flatMap (fun r => [.single r.first, .dash, .single r.last])) =
      .ok (rs.map (fun r => .range r.first r.last)) := by
  induction rs with
  | nil => rfl
  | cons r rs ih =>
    simp only [List.flatMap_cons, List.cons_append, List.nil_append, items, unit?, if_pos r.ordered,
      ih]
    rfl

end ClassAtom

theorem head?_escapeInClass_append (u : CodeUnit) (t : Text) :
    (escapeInClass [u] ++ t).head? ≠ some caret := by
  rw [escapeInClass_singleton]
  split
  · show some backslash ≠ some caret
    decide
  next hu =>
    simp only [classMetacharacters, List.mem_cons, not_or] at hu
    simpa using hu.2.1

theorem classHead_of_ne {t : Text} (h : t.head? ≠ some caret) : classHead t = (false, t) := by
  unfold classHead
  split
  · exact absurd rfl h
  · rfl

namespace Lexes

variable {named : Bool} {t : Text} {atoms : List ClassAtom} {items : List ClassItem}

/-- A class whose text is known atom by atom. -/
theorem classText {negated : Bool} (head : Text)
    (hhead : ∀ rest, classHead (head ++ (t ++ closeBracket :: rest)) =
      (negated, t ++ closeBracket :: rest))
    (ht : ClassReads named t atoms) (hitems : ClassAtom.items atoms = .ok items) :
    Lexes named (openBracket :: (head ++ (t ++ [closeBracket]))) [.one (.members negated items)] :=
  of_tokenFrom (fun rest => by
    have hatoms : classAtoms named (t ++ closeBracket :: rest) = .ok (atoms, rest) := by
      rw [ht, classAtoms_close]
      simp [Except.map]
    rw [tokenFrom, if_neg (by decide), if_neg (by decide), if_pos rfl]
    simp only [List.append_assoc, List.singleton_append, classToken, hhead, hatoms, hitems]
    rfl)

theorem negatedClass (members : Text) :
    Lexes named (openBracket :: caret :: (escapeClassText members ++ [closeBracket]))
      [.one (.members true (members.map (fun u => .range u u)))] :=
  classText [caret] (fun _ => rfl) (.escapeClassText members)
    (ClassAtom.items_singles members)

theorem plainClass (members : Text) :
    Lexes named (openBracket :: (escapeClassText members ++ [closeBracket]))
      [.one (.members false (members.map (fun u => .range u u)))] := by
  refine classText [] (fun rest => classHead_of_ne ?_) (.escapeClassText members)
    (ClassAtom.items_singles members)
  cases members with
  | nil =>
    show some closeBracket ≠ some caret
    decide
  | cons u members =>
    simp only [escapeClassText, List.flatMap_cons, List.nil_append, List.append_assoc]
    exact head?_escapeInClass_append u _

theorem ranges (first : CharRange) (others : List CharRange) :
    Lexes named (openBracket :: ((first :: others).flatMap CharRange.classBody ++ [closeBracket]))
      [.one (.members false ((first :: others).map (fun r => .range r.first r.last)))] := by
  refine classText [] (fun rest => classHead_of_ne ?_)
    (.flatMap (fun r _ => .classBody r)) (ClassAtom.items_ranges (first :: others))
  simp only [List.flatMap_cons, CharRange.classBody, List.nil_append, List.append_assoc]
  exact head?_escapeInClass_append first.first _

end Lexes

end PatternAlgebra
