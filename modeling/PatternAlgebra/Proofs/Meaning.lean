import PatternAlgebra.Proofs.Decides
import PatternAlgebra.Proofs.Tree

/-!
# What a pattern means

A pattern without references relates positions of a subject by recursion on its parts (`Relates`),
and the tree that it stands for decides this relation (`decides_items`). Which of several matches from
one position is preferred is not part of the relation.
-/

namespace PatternAlgebra

/-! ## Units and texts at a position -/

/-- Whether two texts are the same, unit by unit; under folding, after it. -/
def sameText (folding : Bool) (t t' : Text) : Prop :=
  if folding then t.map CaseFold.fold = t'.map CaseFold.fold else t = t'

namespace Subject

/-- The text stands from `i` up to `j`. -/
def Shows (s : Subject) (t : Text) (i j : Nat) : Prop :=
  j = i + t.length ∧ sameText s.options.ignoreCase t (s.slice ⟨i, j⟩)

/-- One unit stands from `i` up to `j`, and it is the same as a member; if the members are excluded,
it is the same as none of them. -/
def ShowsOne (s : Subject) (negated : Bool) (member : CodeUnit → Bool) (i j : Nat) : Prop :=
  j = i + 1 ∧ ∃ u, s.units[i]? = some u ∧
    ((∃ m, member m = true ∧ sameUnit s.options.ignoreCase m u = true) ↔ negated = false)

end Subject

/-! ## The relation of a pattern -/

/-- The relation of a repetition, given that of its body. -/
def Quantifier.Relates (R : Nat → Nat → Prop) : Quantifier → Nat → Nat → Prop
  | optional => fun i j => i = j ∨ R i j
  | oneOrMore => Relation.TransGen R
  | zeroOrMore => Relation.ReflTransGen R
  | exactly count => Rounds R count.value
  | between bounds => fun i j => ∃ k, bounds.least.value ≤ k ∧ k ≤ bounds.most.value ∧ Rounds R k i j
  | atLeast count => fun i j => ∃ k, count.value ≤ k ∧ Rounds R k i j

namespace Pattern

mutual

/-- The positions between which a pattern matches. A reference depends on more than positions and is
left out. -/
def Relates (s : Subject) : Pattern → Nat → Nat → Prop
  | literal t => s.Shows t
  | either first others => fun i j => ∃ t ∈ first :: others, s.Shows t i j
  | sequence first others => Relation.Comp (first.Relates s) (RelatesAll s others)
  | repeated body q => q.Relates (body.Relates s)
  | anyUnit => s.ShowsOne false (fun u => !Text.isLineTerminator u)
  | shorthand kind => s.ShowsOne false kind.contains
  | anchor a => fun i j => i = j ∧ a.holds s.units s.options.multiline i = true
  | charClass negated members => s.ShowsOne negated members.contains
  | charRange r => s.ShowsOne false r.contains
  | multiRange first others => s.ShowsOne false (fun u => (first :: others).any (·.contains u))
  | group body | namedGroup _ body => body.Relates s
  | backreference _ => fun _ _ => False

/-- The positions between which patterns match one after another. -/
def RelatesAll (s : Subject) : List Pattern → Nat → Nat → Prop
  | [] => Eq
  | p :: ps => Relation.Comp (p.Relates s) (RelatesAll s ps)

end

end Pattern

/-! ## Sets of units -/

theorem sameUnit_iff {folding : Bool} {u v : CodeUnit} :
    sameUnit folding u v = true ↔
      if folding then CaseFold.fold u = CaseFold.fold v else u = v := by
  cases folding <;> simp [sameUnit]

theorem ClassItem.accepts_iff {folding : Bool} {item : ClassItem} {u : CodeUnit} :
    item.accepts folding u = true ↔
      ∃ m, item.contains m = true ∧ sameUnit folding m u = true := by
  cases folding with
  | false => simp [accepts, sameUnit]
  | true =>
    rw [accepts, if_pos rfl, List.any_eq_true]
    constructor
    · rintro ⟨m, hm, hcontains⟩
      exact ⟨m, hcontains, sameUnit_iff.2 (CaseFold.mem_peers_iff.1 hm)⟩
    · rintro ⟨m, hcontains, hsame⟩
      exact ⟨m, CaseFold.mem_peers_iff.2 (sameUnit_iff.1 hsame), hcontains⟩

/-- A class accepts what is the same as a member, negation last. -/
theorem UnitSet.members_accepts_iff {items : List ClassItem} {member : CodeUnit → Bool}
    (h : ∀ m, member m = items.any (·.contains m)) (negated folding : Bool) (u : CodeUnit) :
    (members negated items).accepts folding u = true ↔
      ((∃ m, member m = true ∧ sameUnit folding m u = true) ↔ negated = false) := by
  have hany : items.any (·.accepts folding u) = true ↔
      ∃ m, member m = true ∧ sameUnit folding m u = true := by
    rw [List.any_eq_true]
    constructor
    · rintro ⟨item, hitem, haccepts⟩
      obtain ⟨m, hcontains, hsame⟩ := ClassItem.accepts_iff.1 haccepts
      exact ⟨m, by rw [h, List.any_eq_true]; exact ⟨item, hitem, hcontains⟩, hsame⟩
    · rintro ⟨m, hm, hsame⟩
      rw [h, List.any_eq_true] at hm
      obtain ⟨item, hitem, hcontains⟩ := hm
      exact ⟨item, hitem, ClassItem.accepts_iff.2 ⟨m, hcontains, hsame⟩⟩
  rw [accepts, ← hany]
  cases negated <;> cases items.any (·.accepts folding u) <;> decide

/-- A unit that ends a line has no other case. -/
theorem eq_of_fold_eq {u v : CodeUnit} (hu : Text.isLineTerminator u = true)
    (h : CaseFold.fold v = CaseFold.fold u) : v = u := by
  have hpeers : CaseFold.peers (CaseFold.fold u) = [u] := by
    simp only [Text.isLineTerminator, Bool.or_eq_true, beq_iff_eq] at hu
    obtain ((rfl | rfl) | rfl) | rfl := hu <;> decide
  have hmem : v ∈ CaseFold.peers (CaseFold.fold u) := CaseFold.mem_peers_iff.2 h
  rw [hpeers] at hmem
  exact List.mem_singleton.1 hmem

theorem UnitSet.anyOnLine_accepts_iff (folding : Bool) (u : CodeUnit) :
    anyOnLine.accepts folding u = true ↔
      ((∃ m, (!Text.isLineTerminator m) = true ∧ sameUnit folding m u = true) ↔ false = false) := by
  rw [accepts]
  constructor
  · intro h
    refine iff_of_true ⟨u, h, ?_⟩ rfl
    rw [sameUnit_iff]
    split <;> rfl
  · intro h
    obtain ⟨m, hm, hsame⟩ := h.2 rfl
    cases hu : Text.isLineTerminator u with
    | false => rfl
    | true =>
      have heq : m = u := by
        rw [sameUnit_iff] at hsame
        split at hsame
        · exact eq_of_fold_eq hu hsame
        · exact hsame
      rw [heq, hu] at hm
      contradiction

/-! ## Texts -/

/-- A piece of the subject begins with its first unit. -/
theorem Subject.slice_of_lt {s : Subject} {i j : Nat} (h : i < j) :
    s.slice ⟨i, j⟩ = (s.units[i]?).toList ++ s.slice ⟨i + 1, j⟩ := by
  rw [slice_eq, slice_eq, ← Array.getElem?_toList]
  obtain ⟨n, rfl⟩ : ∃ n, j = i + (n + 1) := ⟨j - i - 1, by omega⟩
  rw [Nat.add_sub_cancel_left, show i + (n + 1) - (i + 1) = n by omega]
  by_cases hi : i < s.units.toList.length
  · rw [List.drop_eq_getElem_cons hi, List.take_succ_cons, List.getElem?_eq_getElem hi]
    rfl
  · rw [List.drop_eq_nil_of_le (by omega), List.drop_eq_nil_of_le (by omega),
      List.getElem?_eq_none (by omega), List.take_nil, List.take_nil]
    rfl

theorem sameText_cons {folding : Bool} {u v : CodeUnit} {t t' : Text} :
    sameText folding (u :: t) (v :: t') ↔ sameUnit folding u v = true ∧ sameText folding t t' := by
  cases folding <;> simp [sameText, sameUnit]

theorem not_sameText_nil {folding : Bool} {u : CodeUnit} {t : Text} :
    ¬ sameText folding (u :: t) [] := by
  cases folding <;> simp [sameText]

theorem Subject.shows_nil {s : Subject} {i j : Nat} : s.Shows [] i j ↔ i = j := by
  constructor
  · rintro ⟨rfl, -⟩
    rfl
  · rintro rfl
    refine ⟨rfl, ?_⟩
    rw [slice_eq, Nat.sub_self]
    cases s.options.ignoreCase <;> rfl

theorem Subject.shows_cons {s : Subject} {u : CodeUnit} {t : Text} {i j : Nat} :
    s.Shows (u :: t) i j ↔
      ∃ v, s.units[i]? = some v ∧ sameUnit s.options.ignoreCase u v = true ∧ s.Shows t (i + 1) j := by
  have hlength : i + (u :: t).length = i + 1 + t.length := by
    rw [List.length_cons]
    omega
  constructor
  · rintro ⟨rfl, hsame⟩
    rw [slice_of_lt (by rw [List.length_cons]; omega), hlength] at hsame
    cases hv : s.units[i]? with
    | none =>
      have hslice : s.slice ⟨i + 1, i + 1 + t.length⟩ = [] := by
        have hi := Array.getElem?_eq_none_iff.1 hv
        rw [slice_eq, List.drop_eq_nil_of_le (by rw [Array.length_toList]; omega), List.take_nil]
      rw [hv, hslice] at hsame
      exact absurd hsame not_sameText_nil
    | some v =>
      rw [hv] at hsame
      obtain ⟨hunit, htext⟩ := sameText_cons.1 hsame
      exact ⟨v, rfl, hunit, hlength, hlength ▸ htext⟩
  · rintro ⟨v, hv, hunit, rfl, htext⟩
    refine ⟨hlength.symm, ?_⟩
    rw [slice_of_lt (by omega), hv]
    exact sameText_cons.2 ⟨hunit, htext⟩

/-! ## Numbers of rounds -/

namespace Quantifier

theorem least_le_most (q : Quantifier) {n : Nat} (h : q.most? = some n) : q.least ≤ n := by
  cases q with
  | optional =>
    obtain rfl := Option.some.inj h
    exact Nat.zero_le 1
  | oneOrMore | zeroOrMore | atLeast => contradiction
  | exactly count => exact Nat.le_of_eq (Option.some.inj h)
  | between bounds => exact Option.some.inj h ▸ bounds.ordered

/-- The relation of a repetition is that of some permitted number of rounds. -/
theorem relates_iff {R : Nat → Nat → Prop} {i j : Nat} (q : Quantifier) :
    q.Relates R i j ↔
      ∃ k, q.least ≤ k ∧ (∀ n, q.most? = some n → k ≤ n) ∧ Rounds R k i j := by
  cases q with
  | optional =>
    constructor
    · rintro (rfl | hR)
      · exact ⟨0, Nat.le_refl 0, fun _ _ => Nat.zero_le _, rfl⟩
      · exact ⟨1, Nat.zero_le 1, fun n hn => Nat.le_of_eq (Option.some.inj hn), Rounds.one_iff.2 hR⟩
    · rintro ⟨k, -, hk, hrounds⟩
      rcases Nat.le_one_iff_eq_zero_or_eq_one.1 (hk 1 rfl) with rfl | rfl
      · exact .inl hrounds
      · exact .inr (Rounds.one_iff.1 hrounds)
  | zeroOrMore =>
    show Relation.ReflTransGen R i j ↔ _
    rw [← Rounds.exists_iff_reflTransGen]
    constructor
    · rintro ⟨k, hrounds⟩
      exact ⟨k, Nat.zero_le k, fun _ hn => (nomatch hn), hrounds⟩
    · rintro ⟨k, -, -, hrounds⟩
      exact ⟨k, hrounds⟩
  | oneOrMore =>
    show Relation.TransGen R i j ↔ _
    rw [← Rounds.exists_pos_iff_transGen]
    constructor
    · rintro ⟨k, hk, hrounds⟩
      exact ⟨k, hk, fun _ hn => (nomatch hn), hrounds⟩
    · rintro ⟨k, hk, -, hrounds⟩
      exact ⟨k, hk, hrounds⟩
  | exactly count =>
    constructor
    · exact fun hrounds =>
        ⟨count.value, Nat.le_refl _, fun n hn => Nat.le_of_eq (Option.some.inj hn), hrounds⟩
    · rintro ⟨k, hleast, hmost, hrounds⟩
      obtain rfl := Nat.le_antisymm (hmost count.value rfl) hleast
      exact hrounds
  | between bounds =>
    constructor
    · rintro ⟨k, hleast, hmost, hrounds⟩
      exact ⟨k, hleast, fun n hn => Option.some.inj hn ▸ hmost, hrounds⟩
    · rintro ⟨k, hleast, hmost, hrounds⟩
      exact ⟨k, hleast, hmost _ rfl, hrounds⟩
  | atLeast count =>
    constructor
    · rintro ⟨k, hleast, hrounds⟩
      exact ⟨k, hleast, fun _ hn => (nomatch hn), hrounds⟩
    · rintro ⟨k, hleast, -, hrounds⟩
      exact ⟨k, hleast, hrounds⟩

end Quantifier

/-! ## Deciding the relation of a pattern -/

namespace Decides

variable {s : Subject}

theorem one (set : UnitSet) :
    Decides ((Regex.one set).outcomes s) (fun i j =>
      j = i + 1 ∧ ∃ u, s.units[i]? = some u ∧ set.accepts s.options.ignoreCase u = true) := by
  intro st j
  have haccepts : set.acceptsAt s st.position = true ↔
      ∃ u, s.units[st.position]? = some u ∧ set.accepts s.options.ignoreCase u = true := by
    rw [UnitSet.acceptsAt]
    cases s.units[st.position]? <;> simp
  show _ ↔ j = st.position + 1 ∧ _
  rw [← haccepts]
  constructor
  · rintro ⟨next, hnext, rfl⟩
    obtain ⟨haccept, rfl⟩ := Regex.mem_outcomes_one.1 hnext
    exact ⟨rfl, haccept⟩
  · rintro ⟨rfl, haccept⟩
    exact ⟨st.advance, Regex.mem_outcomes_one.2 ⟨haccept, rfl⟩, rfl⟩

theorem oneOf {set : UnitSet} {negated : Bool} {member : CodeUnit → Bool}
    (h : ∀ u, set.accepts s.options.ignoreCase u = true ↔
      ((∃ m, member m = true ∧ sameUnit s.options.ignoreCase m u = true) ↔ negated = false)) :
    Decides ((Regex.one set).outcomes s) (s.ShowsOne negated member) := by
  refine (one set).congr (fun i j => ?_)
  simp only [Subject.ShowsOne, h]

theorem assertion (a : Anchor) :
    Decides ((Regex.assertion a).outcomes s)
      (fun i j => i = j ∧ a.holds s.units s.options.multiline i = true) := by
  intro st j
  show _ ↔ st.position = j ∧ a.holds s.units s.options.multiline st.position = true
  simp [and_comm]

theorem capture {body : Regex} {R : Nat → Nat → Prop} (h : Decides (body.outcomes s) R) (n : Nat) :
    Decides ((Regex.capture n body).outcomes s) R := by
  intro st j
  rw [← h st j]
  simp

end Decides

namespace Regex

theorem outcomes_sequenceOf_cons (s : Subject) (r : Regex) (rs : List Regex) (st : State) :
    (sequenceOf (r :: rs)).outcomes s st =
      (r.outcomes s st).flatMap ((sequenceOf rs).outcomes s) := by
  cases rs with
  | nil =>
    show r.outcomes s st = (r.outcomes s st).flatMap (fun next => [next])
    simp
  | cons r' rs => rfl

theorem outcomes_sequenceOf_append (s : Subject) (rs rs' : List Regex) (st : State) :
    (sequenceOf (rs ++ rs')).outcomes s st =
      ((sequenceOf rs).outcomes s st).flatMap ((sequenceOf rs').outcomes s) := by
  induction rs generalizing st with
  | nil =>
    show _ = [st].flatMap _
    rw [List.flatMap_singleton, List.nil_append]
  | cons r rs ih =>
    rw [List.cons_append, outcomes_sequenceOf_cons, outcomes_sequenceOf_cons, List.flatMap_assoc]
    exact List.flatMap_congr (fun next _ => ih next)

end Regex

namespace Decides

variable {s : Subject} {R S : Nat → Nat → Prop}

theorem cons {r : Regex} {rs : List Regex} (hr : Decides (r.outcomes s) R)
    (hrs : Decides ((Regex.sequenceOf rs).outcomes s) S) :
    Decides ((Regex.sequenceOf (r :: rs)).outcomes s) (Relation.Comp R S) := by
  rw [funext (Regex.outcomes_sequenceOf_cons s r rs)]
  exact hr.comp hrs

theorem append {rs rs' : List Regex} (hrs : Decides ((Regex.sequenceOf rs).outcomes s) R)
    (hrs' : Decides ((Regex.sequenceOf rs').outcomes s) S) :
    Decides ((Regex.sequenceOf (rs ++ rs')).outcomes s) (Relation.Comp R S) := by
  rw [funext (Regex.outcomes_sequenceOf_append s rs rs')]
  exact hrs.comp hrs'

theorem literal (t : Text) :
    Decides ((Regex.sequenceOf (literalItems t)).outcomes s) (s.Shows t) := by
  induction t with
  | nil => exact pure.congr (fun _ _ => Subject.shows_nil.symm)
  | cons u t ih =>
    refine ((one (.only u)).cons ih).congr (fun i j => ?_)
    rw [Subject.shows_cons]
    constructor
    · rintro ⟨mid, ⟨rfl, v, hv, hsame⟩, htext⟩
      exact ⟨v, hv, hsame, htext⟩
    · rintro ⟨v, hv, hsame, htext⟩
      exact ⟨i + 1, ⟨rfl, v, hv, hsame⟩, htext⟩

theorem choice (first : Text) (others : List Text) :
    Decides ((Regex.choiceOf (Regex.sequenceOf (literalItems first))
        (others.map (fun t => Regex.sequenceOf (literalItems t)))).outcomes s)
      (fun i j => ∃ t ∈ first :: others, s.Shows t i j) := by
  induction others generalizing first with
  | nil => exact (literal first).congr (fun i j => by simp)
  | cons second others ih =>
    refine ((literal first).or (ih second)).congr (fun i j => ?_)
    simp only [List.mem_cons, exists_eq_or_imp]

/-- A loop decides the relation of its quantifier. -/
theorem repeated {body : Regex} (h : Decides (body.outcomes s) R) (q : Quantifier) :
    Decides ((Regex.loop body q.least q.most?).outcomes s) (q.Relates R) :=
  (h.loop (fun _ => q.least_le_most)).congr (fun _ _ => q.relates_iff.symm)

end Decides

namespace Pattern

/-- The tree of a pattern without references decides the pattern's relation. -/
theorem decides_items {p : Pattern} (hp : p.references = []) (s : Subject) (index : Text → Nat)
    (n : Nat) :
    Decides ((Regex.sequenceOf (p.items Quantifier.asMeant index n)).outcomes s) (p.Relates s) := by
  induction p using inductParts (Q := fun ps => referencesAll ps = [] → ∀ n,
      Decides ((Regex.sequenceOf (itemsAll Quantifier.asMeant index n ps)).outcomes s)
        (RelatesAll s ps)) generalizing n with
  | literal t => exact .literal t
  | either first others =>
    cases others with
    | nil => exact (Decides.literal first).congr (fun i j => by simp [Relates])
    | cons second others => exact .choice first (second :: others)
  | sequence first others hparts => exact hparts hp n
  | repeated body q hbody => exact (hbody hp n).repeated q
  | anyUnit => exact .oneOf (fun u => UnitSet.anyOnLine_accepts_iff _ u)
  | shorthand kind =>
    exact .oneOf (fun u => UnitSet.members_accepts_iff (fun m => by simp [ClassItem.contains]) _ _ u)
  | anchor a => exact .assertion a
  | charClass negated members =>
    refine .oneOf (fun u => UnitSet.members_accepts_iff (fun m => ?_) _ _ u)
    rw [Bool.eq_iff_iff, List.contains_iff_mem, List.any_eq_true]
    constructor
    · exact fun hm => ⟨.range m m, List.mem_map_of_mem hm, by simp [ClassItem.contains]⟩
    · rintro ⟨item, hitem, hcontains⟩
      obtain ⟨u, hu, rfl⟩ := List.mem_map.1 hitem
      simp only [ClassItem.contains, Bool.and_eq_true, decide_eq_true_eq] at hcontains
      exact UInt16.le_antisymm hcontains.1 hcontains.2 ▸ hu
  | charRange r =>
    exact .oneOf (fun u => UnitSet.members_accepts_iff
      (fun m => by simp [ClassItem.contains, CharRange.contains]) _ _ u)
  | multiRange first others =>
    refine .oneOf (fun u => UnitSet.members_accepts_iff (fun m => ?_) _ _ u)
    rw [List.any_map]
    rfl
  | group body hbody | namedGroup name body hbody => exact (hbody hp (n + 1)).capture _
  | backreference name => contradiction
  | nil => exact .pure
  | cons q qs hq hqs hp n =>
    obtain ⟨hown, hrest⟩ := List.append_eq_nil_iff.1 hp
    exact (hq hown n).append (hqs hrest _)

end Pattern

end PatternAlgebra
