import PatternAlgebra.Proofs.Items

/-!
# The groups of a pattern's items

The groups in the items of a pattern are its capturing groups, numbered as they open, and each holds
the items of its body with the numbers that these have there (`captures_items`). Quantifiers neither
add groups nor lose any, as they are meant and as they are read.
-/

namespace PatternAlgebra

namespace Regex

/-- The groups in an expression with what they capture, in the order in which they open. -/
@[simp] def captures : Regex → List (Nat × Regex)
  | empty | one _ | assertion _ | reference _ => []
  | sequence a b | choice a b => a.captures ++ b.captures
  | capture index body => (index, body) :: body.captures
  | loop body _ _ => body.captures

theorem groups_eq_map_captures (r : Regex) : r.groups = r.captures.map Prod.fst := by
  induction r with
  | empty | one | assertion | reference => rfl
  | sequence a b iha ihb => simp [iha, ihb]
  | choice a b iha ihb => simp [iha, ihb]
  | capture index body ih => simp [ih]
  | loop body least most ih => simp [ih]

theorem captures_sequenceOf (rs : List Regex) :
    (sequenceOf rs).captures = rs.flatMap captures := by
  induction rs with
  | nil => rfl
  | cons r rs ih =>
    cases rs with
    | nil => simp
    | cons r' rs => simp [ih]

theorem captures_choiceOf {first : Regex} {others : List Regex} (hfirst : first.captures = [])
    (hothers : ∀ r ∈ others, r.captures = []) : (choiceOf first others).captures = [] := by
  induction others generalizing first with
  | nil => exact hfirst
  | cons second others ih =>
    rw [choiceOf, captures, hfirst, ih (hothers second List.mem_cons_self)
      (fun r hr => hothers r (List.mem_cons_of_mem second hr)), List.nil_append]

end Regex

/-- A way to read quantifiers under which the items of the body keep their groups. -/
def Repetition.KeepsCaptures (rep : Repetition) : Prop :=
  ∀ q body items, (rep q body items).flatMap Regex.captures = items.flatMap Regex.captures

theorem Quantifier.asMeant_keepsCaptures : Repetition.KeepsCaptures asMeant := by
  intro q body items
  simp [asMeant, Regex.captures_sequenceOf]

theorem captures_extendItems (items : List Regex) (t : Token) :
    (extendItems items t).flatMap Regex.captures = items.flatMap Regex.captures := by
  cases t with
  | one units => simp [extendItems]
  | quantifier least most =>
    rcases List.eq_nil_or_concat items with rfl | ⟨init, last, rfl⟩
    · rfl
    · simp [extendItems]
  | assertion | reference | opening | closing | bar => rfl

theorem Quantifier.asRead_keepsCaptures : Repetition.KeepsCaptures asRead := by
  intro q body items
  have hfold : ∀ (ts : List Token) (items : List Regex),
      (ts.foldl extendItems items).flatMap Regex.captures = items.flatMap Regex.captures := by
    intro ts
    induction ts with
    | nil => exact fun _ => rfl
    | cons t ts ih =>
      intro items
      rw [List.foldl_cons, ih, captures_extendItems]
  rw [asRead, hfold]
  split
  · simp [Regex.captures_sequenceOf]
  · rfl

theorem captures_literalItems (t : Text) : (literalItems t).flatMap Regex.captures = [] := by
  rw [literalItems, List.flatMap_eq_nil_iff]
  intro r hr
  obtain ⟨u, _, rfl⟩ := List.mem_map.1 hr
  rfl

theorem captures_choiceItems (first : Text) (others : List Text) :
    (choiceItems first others).flatMap Regex.captures = [] := by
  have hbranch : ∀ t, (Regex.sequenceOf (literalItems t)).captures = [] := by
    intro t
    rw [Regex.captures_sequenceOf, captures_literalItems]
  cases others with
  | nil => exact captures_literalItems first
  | cons second others =>
    show Regex.captures _ ++ [] = []
    rw [List.append_nil]
    refine Regex.captures_choiceOf (hbranch first) (fun r hr => ?_)
    obtain ⟨t, _, rfl⟩ := List.mem_map.1 hr
    exact hbranch t

namespace Pattern

/-- A capturing group with its number, as an expression captures it. -/
def numberedCapture (rep : Repetition) (index : Text → Nat) (g : Capturing × Nat) : Nat × Regex :=
  (g.2, Regex.sequenceOf (g.1.body.items rep index g.2))

/-- The groups in the items of a pattern are the pattern's, in the same order. -/
theorem captures_items {rep : Repetition} (hrep : rep.KeepsCaptures) (index : Text → Nat)
    (p : Pattern) (n : Nat) :
    (p.items rep index n).flatMap Regex.captures =
      (p.capturing.zipIdx (n + 1)).map (numberedCapture rep index) := by
  induction p using inductParts (Q := fun ps => ∀ n,
      (itemsAll rep index n ps).flatMap Regex.captures =
        ((capturingAll ps).zipIdx (n + 1)).map (numberedCapture rep index)) generalizing n with
  | literal t => exact captures_literalItems t
  | either first others => exact captures_choiceItems first others
  | sequence first others hparts => exact hparts n
  | repeated body q hbody =>
    rw [items, hrep, hbody]
    rfl
  | group body hbody | namedGroup name body hbody =>
    simp [Regex.captures_sequenceOf, hbody, numberedCapture]
  | anyUnit | shorthand | anchor | charClass | charRange | multiRange | backreference => rfl
  | nil => rfl
  | cons q qs hq hqs n =>
    rw [itemsAll, List.flatMap_append, hq, hqs, capturingAll, List.zipIdx_append, List.map_append,
      Nat.add_right_comm]
    rfl

end Pattern

end PatternAlgebra
