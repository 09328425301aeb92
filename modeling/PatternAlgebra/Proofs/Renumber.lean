import PatternAlgebra.Proofs.Captures

/-!
# Groups with other numbers

The items of a pattern inside another one are its own items with its groups counted on
(`items_shift`). Items hold assertions only where the pattern has anchors, and references only to the
groups that its names have.
-/

namespace PatternAlgebra

namespace Regex

/-- The expression with other numbers for its groups and references. -/
@[simp] def renumber (f : Nat → Nat) : Regex → Regex
  | empty => empty
  | one units => one units
  | assertion a => assertion a
  | sequence a b => sequence (a.renumber f) (b.renumber f)
  | choice a b => choice (a.renumber f) (b.renumber f)
  | capture index body => capture (f index) (body.renumber f)
  | loop body least most => loop (body.renumber f) least most
  | reference index => reference (f index)

/-- The expression has no assertions and refers to these groups only. -/
def Closed (G : Nat → Prop) : Regex → Prop
  | empty | one _ => True
  | assertion _ => False
  | sequence a b | choice a b => a.Closed G ∧ b.Closed G
  | capture _ body | loop body _ _ => body.Closed G
  | reference index => G index

variable (f : Nat → Nat)

theorem groups_renumber (r : Regex) : (r.renumber f).groups = r.groups.map f := by
  induction r with
  | empty | one | assertion | reference => rfl
  | sequence a b iha ihb => simp [iha, ihb]
  | choice a b iha ihb => simp [iha, ihb]
  | capture index body ih => simp [ih]
  | loop body least most ih => simp [ih]

theorem renumber_sequenceOf (rs : List Regex) :
    (sequenceOf rs).renumber f = sequenceOf (rs.map (renumber f)) := by
  induction rs with
  | nil => rfl
  | cons r rs ih =>
    cases rs with
    | nil => rfl
    | cons r' rs => simp [ih]

theorem renumber_choiceOf (first : Regex) (others : List Regex) :
    (choiceOf first others).renumber f = choiceOf (first.renumber f) (others.map (renumber f)) := by
  induction others generalizing first with
  | nil => rfl
  | cons second others ih => simp [ih]

theorem closed_sequenceOf {G : Nat → Prop} {rs : List Regex} (h : ∀ r ∈ rs, r.Closed G) :
    (sequenceOf rs).Closed G := by
  induction rs with
  | nil => trivial
  | cons r rs ih =>
    cases rs with
    | nil => exact h r List.mem_cons_self
    | cons r' rs =>
      exact ⟨h r List.mem_cons_self, ih (fun r'' hr => h r'' (List.mem_cons_of_mem r hr))⟩

theorem closed_choiceOf {G : Nat → Prop} {first : Regex} {others : List Regex}
    (hfirst : first.Closed G) (hothers : ∀ r ∈ others, r.Closed G) :
    (choiceOf first others).Closed G := by
  induction others generalizing first with
  | nil => exact hfirst
  | cons second others ih =>
    exact ⟨hfirst, ih (hothers second List.mem_cons_self)
      (fun r hr => hothers r (List.mem_cons_of_mem second hr))⟩

end Regex

/-! ## Quantifiers as they are read -/

theorem map_renumber_extendItems (f : Nat → Nat) (items : List Regex) (t : Token) :
    (extendItems items t).map (Regex.renumber f) = extendItems (items.map (Regex.renumber f)) t := by
  cases t with
  | one units => simp [extendItems]
  | quantifier least most =>
    rcases List.eq_nil_or_concat items with rfl | ⟨init, last, rfl⟩
    · rfl
    · simp [extendItems]
  | assertion | reference | opening | closing | bar => rfl

theorem Quantifier.map_renumber_asRead (f : Nat → Nat) (q : Quantifier) (body : Pattern)
    (items : List Regex) :
    (q.asRead body items).map (Regex.renumber f) =
      q.asRead body (items.map (Regex.renumber f)) := by
  have hfold : ∀ (ts : List Token) (items : List Regex),
      (ts.foldl extendItems items).map (Regex.renumber f) =
        ts.foldl extendItems (items.map (Regex.renumber f)) := by
    intro ts
    induction ts with
    | nil => exact fun _ => rfl
    | cons t ts ih =>
      intro items
      rw [List.foldl_cons, List.foldl_cons, ih, map_renumber_extendItems]
  rw [asRead, asRead, hfold]
  split
  · rw [List.map_singleton, Regex.renumber_sequenceOf]
  · rfl

theorem closed_extendItems {G : Nat → Prop} {items : List Regex} (h : ∀ r ∈ items, r.Closed G)
    (t : Token) : ∀ r ∈ extendItems items t, r.Closed G := by
  cases t with
  | one units =>
    intro r hr
    rcases List.mem_append.1 hr with hr | hr
    · exact h r hr
    · obtain rfl := List.mem_singleton.1 hr
      trivial
  | quantifier least most =>
    intro r hr
    rcases List.mem_append.1 hr with hr | hr
    · exact h r (items.dropLast_subset hr)
    · obtain ⟨last, hlast, rfl⟩ := Option.map_eq_some_iff.1 (Option.mem_toList.1 hr)
      exact h last (List.mem_of_getLast? hlast)
  | assertion | reference | opening | closing | bar => exact h

theorem Quantifier.closed_asRead {G : Nat → Prop} {items : List Regex}
    (h : ∀ r ∈ items, r.Closed G) (q : Quantifier) (body : Pattern) :
    ∀ r ∈ q.asRead body items, r.Closed G := by
  have hfold : ∀ (ts : List Token) (items : List Regex), (∀ r ∈ items, r.Closed G) →
      ∀ r ∈ ts.foldl extendItems items, r.Closed G := by
    intro ts
    induction ts with
    | nil => exact fun _ h => h
    | cons t ts ih => exact fun items h => ih _ (closed_extendItems h t)
  refine hfold _ _ ?_
  split
  · intro r hr
    obtain rfl := List.mem_singleton.1 hr
    exact Regex.closed_sequenceOf h
  · exact h

/-! ## Items of patterns -/

theorem map_renumber_literalItems (f : Nat → Nat) (t : Text) :
    (literalItems t).map (Regex.renumber f) = literalItems t := by
  rw [literalItems, List.map_map]
  rfl

theorem map_renumber_choiceItems (f : Nat → Nat) (first : Text) (others : List Text) :
    (choiceItems first others).map (Regex.renumber f) = choiceItems first others := by
  have hbranch : ∀ t, (Regex.sequenceOf (literalItems t)).renumber f =
      Regex.sequenceOf (literalItems t) := by
    intro t
    rw [Regex.renumber_sequenceOf, map_renumber_literalItems]
  cases others with
  | nil => exact map_renumber_literalItems f first
  | cons second others =>
    show [Regex.renumber f (Regex.choiceOf _ _)] = _
    rw [Regex.renumber_choiceOf, hbranch, List.map_map]
    simp only [Function.comp_def, hbranch]
    rfl

theorem closed_literalItems {G : Nat → Prop} (t : Text) : ∀ r ∈ literalItems t, r.Closed G := by
  intro r hr
  obtain ⟨u, _, rfl⟩ := List.mem_map.1 hr
  trivial

namespace Pattern

mutual

/-- Whether a pattern has an anchor. -/
def hasAnchor : Pattern → Bool
  | sequence first others => first.hasAnchor || hasAnchorAll others
  | repeated body _ | group body | namedGroup _ body => body.hasAnchor
  | anchor _ => true
  | literal _ | either _ _ | anyUnit | shorthand _ | charClass _ _ | charRange _ | multiRange _ _
  | backreference _ => false

/-- Whether one of some patterns has an anchor. -/
def hasAnchorAll : List Pattern → Bool
  | [] => false
  | p :: ps => p.hasAnchor || hasAnchorAll ps

end

/-- Where a pattern stands behind other groups, its items have their numbers counted on. -/
theorem items_shift {index index' : Text → Nat} {k : Nat} {p : Pattern}
    (h : ∀ name ∈ p.references, index' name.text = index name.text + k) (n : Nat) :
    (p.items Quantifier.asRead index n).map (Regex.renumber (· + k)) =
      p.items Quantifier.asRead index' (n + k) := by
  induction p using inductParts (Q := fun ps =>
      (∀ name ∈ referencesAll ps, index' name.text = index name.text + k) → ∀ n,
        (itemsAll Quantifier.asRead index n ps).map (Regex.renumber (· + k)) =
          itemsAll Quantifier.asRead index' (n + k) ps) generalizing n with
  | literal t => exact map_renumber_literalItems _ t
  | either first others => exact map_renumber_choiceItems _ first others
  | sequence first others hparts => exact hparts h n
  | repeated body q hbody => simp [Quantifier.map_renumber_asRead, hbody h]
  | group body hbody | namedGroup name body hbody =>
    simp [Regex.renumber_sequenceOf, hbody h, Nat.add_right_comm n 1 k]
  | backreference name => simp [h name List.mem_cons_self]
  | anyUnit | shorthand | anchor | charClass | charRange | multiRange | nil => rfl
  | cons q qs hq hqs h n =>
    obtain ⟨hown, hrest⟩ := List.forall_mem_append.1 h
    simp [hq hown, hqs hrest, Nat.add_right_comm n _ k]

theorem closed_items {G : Nat → Prop} {index : Text → Nat} {p : Pattern}
    (hanchor : p.hasAnchor = false) (hindex : ∀ name ∈ p.references, G (index name.text)) (n : Nat) :
    ∀ r ∈ p.items Quantifier.asRead index n, r.Closed G := by
  induction p using inductParts (Q := fun ps => hasAnchorAll ps = false →
      (∀ name ∈ referencesAll ps, G (index name.text)) →
        ∀ n, ∀ r ∈ itemsAll Quantifier.asRead index n ps, r.Closed G) generalizing n with
  | literal t => exact closed_literalItems t
  | either first others =>
    cases others with
    | nil => exact closed_literalItems first
    | cons second others =>
      intro r hr
      obtain rfl := List.mem_singleton.1 hr
      refine Regex.closed_choiceOf (Regex.closed_sequenceOf (closed_literalItems first))
        (fun r hr => ?_)
      obtain ⟨t, _, rfl⟩ := List.mem_map.1 hr
      exact Regex.closed_sequenceOf (closed_literalItems t)
  | sequence first others hparts => exact hparts hanchor hindex n
  | repeated body q hbody => exact Quantifier.closed_asRead (hbody hanchor hindex n) q body
  | group body hbody | namedGroup name body hbody =>
    intro r hr
    obtain rfl := List.mem_singleton.1 hr
    exact Regex.closed_sequenceOf (hbody hanchor hindex (n + 1))
  | anchor a => contradiction
  | backreference name =>
    intro r hr
    obtain rfl := List.mem_singleton.1 hr
    exact hindex name List.mem_cons_self
  | anyUnit | shorthand | charClass | charRange | multiRange =>
    intro r hr
    obtain rfl := List.mem_singleton.1 hr
    trivial
  | nil => contradiction
  | cons q qs hq hqs hanchors hindex n r hr =>
    obtain ⟨hanchor, hanchors⟩ := Bool.or_eq_false_iff.1 hanchors
    obtain ⟨hown, hrest⟩ := List.forall_mem_append.1 hindex
    rcases List.mem_append.1 hr with hr | hr
    · exact hq hanchor hown n r hr
    · exact hqs hanchors hrest _ r hr

end Pattern

end PatternAlgebra
