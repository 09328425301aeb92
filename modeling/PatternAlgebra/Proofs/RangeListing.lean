import Mathlib.Data.List.Infix
import PatternAlgebra.Pattern.RangeSpec

/-!
# Specifications that list ranges

A specification that is written as ranges with text between them is read as exactly these ranges, in
order, whatever their bounds are: a bound may be a quotation mark or a hyphen itself. Between ranges
there must be no quotation mark, as a range might begin there. If some bounds are reversed, the first
such range is the fault; and a specification in which no range is written anywhere is refused as such
(`specification_read`).
-/

namespace PatternAlgebra

namespace RangeSpec

/-! ## Ranges as they are written -/

/-- The two quotation marks. -/
inductive Mark where
  | single
  | double

def Mark.unit : Mark → CodeUnit
  | single => 0x27
  | double => 0x22

/-- A unit between two quotation marks, alike or not, that does not end the line. -/
structure QuotedUnit where
  opening : Mark
  unit : CodeUnit
  closing : Mark
  onLine : Text.isLineTerminator unit = false

def QuotedUnit.text (q : QuotedUnit) : Text := [q.opening.unit, q.unit, q.closing.unit]

/-- A range as it can be written: two quoted units and a hyphen, with blanks around it. The bounds
need not be in order. -/
structure Spelling where
  first : QuotedUnit
  last : QuotedUnit
  before : Text
  after : Text
  before_blank : ∀ u ∈ before, Text.isBlank u = true
  after_blank : ∀ u ∈ after, Text.isBlank u = true

namespace Spelling

def text (w : Spelling) : Text :=
  w.first.text ++ (w.before ++ hyphen :: (w.after ++ w.last.text))

def bounds (w : Spelling) : CodeUnit × CodeUnit := (w.first.unit, w.last.unit)

end Spelling

/-- Text in which no range begins: it has no quotation mark. -/
abbrev Gap := { t : Text // ∀ u ∈ t, isQuote u = false }

def Gap.ofText (t : Text) (h : t.any isQuote = false) : Gap where
  val := t
  property := by
    intro u hu
    exact Bool.eq_false_iff.2 (List.any_eq_false.1 h u hu)

/-- A specification: text without ranges, and then ranges with the text behind each of them. -/
def listing (lead : Gap) (items : List (Spelling × Gap)) : Text :=
  lead.val ++ items.flatMap (fun item => item.1.text ++ item.2.val)

/-! ## Reading one range -/

theorem isQuote_iff {u : CodeUnit} : isQuote u = true ↔ ∃ m : Mark, m.unit = u := by
  rw [isQuote, Bool.or_eq_true, beq_iff_eq, beq_iff_eq]
  constructor
  · intro h
    rcases h with h | h
    · exact ⟨.single, h.symm⟩
    · exact ⟨.double, h.symm⟩
  · intro h
    obtain ⟨m, rfl⟩ := h
    cases m with
    | single => exact .inl rfl
    | double => exact .inr rfl

theorem quotedUnit?_text (q : QuotedUnit) (rest : Text) :
    quotedUnit? (q.text ++ rest) = some (q.unit, rest) := by
  have hopening : isQuote q.opening.unit = true := isQuote_iff.2 ⟨q.opening, rfl⟩
  have hclosing : isQuote q.closing.unit = true := isQuote_iff.2 ⟨q.closing, rfl⟩
  show (if isQuote q.opening.unit && !Text.isLineTerminator q.unit && isQuote q.closing.unit
    then some (q.unit, rest) else none) = _
  rw [hopening, q.onLine, hclosing]
  rfl

theorem exists_quotedUnit {t rest : Text} {u : CodeUnit} (h : quotedUnit? t = some (u, rest)) :
    ∃ q : QuotedUnit, q.unit = u ∧ t = q.text ++ rest := by
  unfold quotedUnit? at h
  split at h
  next opening unit closing after =>
    split at h
    next hquoted =>
      obtain ⟨rfl, rfl⟩ := Prod.mk.inj (Option.some.inj h)
      rw [Bool.and_eq_true, Bool.and_eq_true, Bool.not_eq_true'] at hquoted
      obtain ⟨⟨hopening, honLine⟩, hclosing⟩ := hquoted
      obtain ⟨first, rfl⟩ := isQuote_iff.1 hopening
      obtain ⟨last, rfl⟩ := isQuote_iff.1 hclosing
      exact ⟨⟨first, unit, last, honLine⟩, rfl, rfl⟩
    · contradiction
  · contradiction

/-- A quotation mark is no blank, so all blanks behind the hyphen are passed over. -/
theorem afterHyphen?_text {before after : Text} (hbefore : ∀ u ∈ before, Text.isBlank u = true)
    (hafter : ∀ u ∈ after, Text.isBlank u = true) (q : QuotedUnit) (rest : Text) :
    afterHyphen? (before ++ hyphen :: (after ++ (q.text ++ rest))) = some (q.text ++ rest) := by
  have hmark : Text.isBlank q.opening.unit = false := by cases q.opening <;> decide
  have hquoted : (q.text ++ rest).dropWhile Text.isBlank = q.text ++ rest := by
    show List.dropWhile _ (q.opening.unit :: _) = _
    rw [List.dropWhile_cons, hmark]
    rfl
  have hhyphen : ∀ t : Text, (hyphen :: t).dropWhile Text.isBlank = hyphen :: t := fun _ => rfl
  rw [afterHyphen?, List.dropWhile_append_of_pos hbefore, hhyphen]
  show some (List.dropWhile _ (after ++ (q.text ++ rest))) = _
  rw [List.dropWhile_append_of_pos hafter, hquoted]

theorem exists_blanks {t rest : Text} (h : afterHyphen? t = some rest) :
    ∃ before after : Text, (∀ u ∈ before, Text.isBlank u = true) ∧
      (∀ u ∈ after, Text.isBlank u = true) ∧ t = before ++ hyphen :: (after ++ rest) := by
  unfold afterHyphen? at h
  split at h
  next behind hbehind =>
    obtain rfl := Option.some.inj h
    have hhyphen : t.dropWhile Text.isBlank = hyphen :: behind := hbehind
    have hsplit : t.takeWhile Text.isBlank ++ hyphen :: behind = t := by
      rw [← hhyphen, List.takeWhile_append_dropWhile]
    refine ⟨t.takeWhile Text.isBlank, behind.takeWhile Text.isBlank, ?_, ?_, ?_⟩
    · exact List.all_eq_true.1 List.all_takeWhile
    · exact List.all_eq_true.1 List.all_takeWhile
    · rw [List.takeWhile_append_dropWhile, hsplit]
  · contradiction

theorem bounds?_text (w : Spelling) (rest : Text) :
    bounds? (w.text ++ rest) = some (w.bounds, rest) := by
  have htext : w.text ++ rest =
      w.first.text ++ (w.before ++ hyphen :: (w.after ++ (w.last.text ++ rest))) := by
    simp only [Spelling.text, List.append_assoc, List.cons_append]
  rw [bounds?, htext, quotedUnit?_text]
  show (afterHyphen? _).bind _ = _
  rw [afterHyphen?_text w.before_blank w.after_blank]
  show (quotedUnit? _).bind _ = _
  rw [quotedUnit?_text]
  rfl

/-- What is read as a range is written as one. -/
theorem exists_spelling {t rest : Text} {pair : CodeUnit × CodeUnit}
    (h : bounds? t = some (pair, rest)) : ∃ w : Spelling, w.bounds = pair ∧ t = w.text ++ rest := by
  simp only [bounds?, Option.bind_eq_bind, Option.pure_def, Option.bind_eq_some_iff, Prod.exists,
    Option.some.injEq, Prod.mk.injEq] at h
  obtain ⟨u, rest₁, hfirst, rest₂, hhyphen, v, rest₃, hlast, rfl, rfl⟩ := h
  obtain ⟨first, rfl, rfl⟩ := exists_quotedUnit hfirst
  obtain ⟨before, after, hbefore, hafter, rfl⟩ := exists_blanks hhyphen
  obtain ⟨last, rfl, rfl⟩ := exists_quotedUnit hlast
  refine ⟨⟨first, last, before, after, hbefore, hafter⟩, rfl, ?_⟩
  simp only [Spelling.text, List.append_assoc, List.cons_append]

theorem bounds?_eq_none_iff {t : Text} : bounds? t = none ↔ ∀ w : Spelling, ¬ w.text <+: t := by
  constructor
  · intro h w hw
    obtain ⟨rest, rfl⟩ := hw
    rw [bounds?_text] at h
    contradiction
  · intro h
    cases hread : bounds? t with
    | none => rfl
    | some found =>
      obtain ⟨w, -, rfl⟩ := exists_spelling hread
      exact absurd (List.prefix_append w.text found.2) (h w)

/-- A range begins with a quotation mark. -/
theorem bounds?_of_not_isQuote {u : CodeUnit} (hu : isQuote u = false) (t : Text) :
    bounds? (u :: t) = none := by
  rw [bounds?_eq_none_iff]
  intro w hw
  obtain ⟨rest, hrest⟩ := hw
  have hmark : w.first.opening.unit = u := (List.cons.inj hrest).1
  rw [← hmark, isQuote_iff.2 ⟨w.first.opening, rfl⟩] at hu
  contradiction

/-! ## Reading all ranges -/

theorem allBounds_nil : allBounds [] = [] := by
  rw [allBounds]
  rfl

theorem allBounds_of_bounds? {t rest : Text} {pair : CodeUnit × CodeUnit}
    (h : bounds? t = some (pair, rest)) : allBounds t = pair :: allBounds rest := by
  rw [allBounds]
  split
  next pair' rest' h' =>
    obtain ⟨rfl, rfl⟩ := Prod.mk.inj (Option.some.inj (h'.symm.trans h))
    rfl
  next h' =>
    rw [h] at h'
    contradiction

theorem allBounds_cons {u : CodeUnit} {t : Text} (h : bounds? (u :: t) = none) :
    allBounds (u :: t) = allBounds t := by
  rw [allBounds]
  split
  next h' =>
    rw [h] at h'
    contradiction
  · rfl

theorem allBounds_gap (gap : Gap) (t : Text) : allBounds (gap.val ++ t) = allBounds t := by
  obtain ⟨gap, hgap⟩ := gap
  induction gap with
  | nil => rfl
  | cons u gap ih =>
    obtain ⟨hu, hrest⟩ := List.forall_mem_cons.1 hgap
    rw [List.cons_append, allBounds_cons (bounds?_of_not_isQuote hu _)]
    exact ih hrest

/-- The ranges that are read are those that are written, in order. -/
theorem allBounds_listing (lead : Gap) (items : List (Spelling × Gap)) :
    allBounds (listing lead items) = items.map (fun item => item.1.bounds) := by
  rw [listing, allBounds_gap]
  induction items with
  | nil => exact allBounds_nil
  | cons item items ih =>
    rw [List.flatMap_cons, List.append_assoc, allBounds_of_bounds? (bounds?_text item.1 _),
      allBounds_gap, ih, List.map_cons]

/-- No range is read if and only if none is written anywhere. -/
theorem allBounds_eq_nil_iff {t : Text} :
    allBounds t = [] ↔ ∀ w : Spelling, ¬ w.text <:+: t := by
  induction t with
  | nil =>
    refine iff_of_true allBounds_nil (fun w hw => ?_)
    exact absurd (List.infix_nil.1 hw) (List.cons_ne_nil _ _)
  | cons u t ih =>
    cases hread : bounds? (u :: t) with
    | none =>
      rw [allBounds_cons hread, ih]
      refine forall_congr' (fun w => not_congr ?_)
      rw [List.infix_cons_iff]
      exact (or_iff_right (bounds?_eq_none_iff.1 hread w)).symm
    | some found =>
      obtain ⟨w, -, hw⟩ := exists_spelling hread
      rw [allBounds_of_bounds? hread]
      refine iff_of_false (List.cons_ne_nil _ _) (fun h => h w ?_)
      rw [hw]
      exact (List.prefix_append _ _).isInfix

/-! ## Building ranges -/

/-- Bounds in the wrong order. -/
def reversed (pair : CodeUnit × CodeUnit) : Bool := pair.2 < pair.1

theorem reversed_eq_false_iff {pair : CodeUnit × CodeUnit} :
    reversed pair = false ↔ pair.1 ≤ pair.2 := by
  rw [reversed, decide_eq_false_iff_not, UInt16.not_lt]

theorem between_of_reversed {pair : CodeUnit × CodeUnit} (h : reversed pair = true) :
    CharRange.between pair.1 pair.2 = .error (.reversedRange pair.1 pair.2) :=
  dif_neg (UInt16.not_le.2 (of_decide_eq_true h))

theorem ranges_eq_mapM (spec : Text) :
    ranges spec = (allBounds spec).mapM (fun pair => CharRange.between pair.1 pair.2) := rfl

/-- Ranges are built of bounds that are in order. -/
theorem mapM_between_of_ordered {pairs : List (CodeUnit × CodeUnit)}
    (h : ∀ pair ∈ pairs, pair.1 ≤ pair.2) :
    ∃ rs, pairs.mapM (fun pair => CharRange.between pair.1 pair.2) = .ok rs ∧
      rs.map (fun r => (r.first, r.last)) = pairs := by
  induction pairs with
  | nil => exact ⟨[], rfl, rfl⟩
  | cons pair pairs ih =>
    obtain ⟨hpair, hrest⟩ := List.forall_mem_cons.1 h
    obtain ⟨rs, hrs, hbounds⟩ := ih hrest
    have hbetween : CharRange.between pair.1 pair.2 = .ok ⟨pair.1, pair.2, hpair⟩ := dif_pos hpair
    refine ⟨⟨pair.1, pair.2, hpair⟩ :: rs, ?_, ?_⟩
    · rw [List.mapM_cons, hbetween, hrs]
      rfl
    · rw [List.map_cons, hbounds]

/-- Of several bounds in the wrong order the first are the fault. -/
theorem mapM_between_of_find? {pairs : List (CodeUnit × CodeUnit)} {pair : CodeUnit × CodeUnit}
    (h : pairs.find? reversed = some pair) :
    pairs.mapM (fun pair => CharRange.between pair.1 pair.2) =
      .error (.reversedRange pair.1 pair.2) := by
  induction pairs with
  | nil => contradiction
  | cons head pairs ih =>
    rw [List.mapM_cons]
    cases hhead : reversed head with
    | true =>
      rw [List.find?_cons_of_pos hhead] at h
      obtain rfl := Option.some.inj h
      rw [between_of_reversed hhead]
      rfl
    | false =>
      rw [List.find?_cons_of_neg (Bool.eq_false_iff.1 hhead)] at h
      have hbetween : CharRange.between head.1 head.2 =
          .ok ⟨head.1, head.2, reversed_eq_false_iff.1 hhead⟩ := dif_pos _
      rw [hbetween, ih h]
      rfl

end RangeSpec

namespace Pattern

open RangeSpec

variable {spec : Text}

theorem ofRangeSpec_of_ordered (hany : allBounds spec ≠ [])
    (h : ∀ pair ∈ allBounds spec, pair.1 ≤ pair.2) :
    ∃ first others, ofRangeSpec spec = .ok (multiRange first others) ∧
      (first :: others).map (fun r => (r.first, r.last)) = allBounds spec := by
  have hspec : spec ≠ [] := by
    intro hnil
    rw [hnil, allBounds_nil] at hany
    contradiction
  obtain ⟨rs, hrs, hbounds⟩ := mapM_between_of_ordered h
  rw [ofRangeSpec, if_neg hspec, ranges_eq_mapM, hrs]
  cases rs with
  | nil => exact absurd hbounds.symm hany
  | cons first others => exact ⟨first, others, rfl, hbounds⟩

theorem ofRangeSpec_of_reversed {pair : CodeUnit × CodeUnit}
    (h : (allBounds spec).find? reversed = some pair) :
    ofRangeSpec spec = .error (.reversedRange pair.1 pair.2) := by
  have hspec : spec ≠ [] := by
    intro hnil
    rw [hnil, allBounds_nil] at h
    contradiction
  rw [ofRangeSpec, if_neg hspec, ranges_eq_mapM, mapM_between_of_find? h]
  rfl

/-- A specification is refused as such if no range is read in it. -/
theorem ofRangeSpec_invalid_iff :
    (∃ fault, ofRangeSpec spec = .error fault ∧ fault.code = .invalidRangeSpec) ↔
      allBounds spec = [] := by
  constructor
  · intro h
    obtain ⟨fault, hrefused, hcode⟩ := h
    by_contra hany
    cases hfind : (allBounds spec).find? reversed with
    | none =>
      rw [List.find?_eq_none] at hfind
      obtain ⟨first, others, hread, -⟩ := ofRangeSpec_of_ordered hany
        (fun pair hpair => reversed_eq_false_iff.1 (Bool.eq_false_iff.2 (hfind pair hpair)))
      rw [hread] at hrefused
      contradiction
    | some pair =>
      rw [ofRangeSpec_of_reversed hfind] at hrefused
      obtain rfl := Except.error.inj hrefused
      contradiction
  · intro h
    by_cases hspec : spec = []
    · exact ⟨.emptyRangeSpec, if_pos hspec, rfl⟩
    · refine ⟨.noRangeInSpec spec, ?_, rfl⟩
      rw [ofRangeSpec, if_neg hspec, ranges, h]
      rfl

/-- A specification that lists ranges is read as these, in order, if their bounds are in order; if not,
the first bounds that are reversed are the fault. It is refused as a specification if and only if no
range is written anywhere in it. -/
theorem specification_read :
    (∀ (lead : Gap) (items : List (Spelling × Gap)), items ≠ [] →
      ((∀ item ∈ items, item.1.first.unit ≤ item.1.last.unit) →
        ∃ first others, ofRangeSpec (listing lead items) = .ok (multiRange first others) ∧
          (first :: others).map (fun r => (r.first, r.last)) =
            items.map (fun item => (item.1.first.unit, item.1.last.unit))) ∧
      ((∃ item ∈ items, item.1.last.unit < item.1.first.unit) →
        ∃ pair, (items.map (fun item => item.1.bounds)).find? reversed = some pair ∧
          ofRangeSpec (listing lead items) = .error (.reversedRange pair.1 pair.2) ∧
          (Fault.reversedRange pair.1 pair.2).code = .invalidCharRange)) ∧
    ∀ spec, (∃ fault, ofRangeSpec spec = .error fault ∧ fault.code = .invalidRangeSpec) ↔
      ∀ w : Spelling, ¬ w.text <:+: spec := by
  constructor
  · intro lead items hitems
    have hbounds := allBounds_listing lead items
    constructor
    · intro hordered
      have hany : allBounds (listing lead items) ≠ [] := by
        rw [hbounds]
        exact fun hnil => hitems (List.map_eq_nil_iff.1 hnil)
      have hpairs : ∀ pair ∈ allBounds (listing lead items), pair.1 ≤ pair.2 := by
        rw [hbounds]
        exact List.forall_mem_map.2 hordered
      obtain ⟨first, others, hread, hranges⟩ := ofRangeSpec_of_ordered hany hpairs
      exact ⟨first, others, hread, hranges.trans hbounds⟩
    · intro hreversed
      obtain ⟨item, hitem, hlt⟩ := hreversed
      have hfind : ((items.map (fun item => item.1.bounds)).find? reversed).isSome = true := by
        rw [List.find?_isSome]
        exact ⟨item.1.bounds, List.mem_map_of_mem hitem, decide_eq_true hlt⟩
      obtain ⟨pair, hpair⟩ := Option.isSome_iff_exists.1 hfind
      refine ⟨pair, hpair, ?_, rfl⟩
      apply ofRangeSpec_of_reversed
      rw [hbounds, hpair]
  · intro spec
    rw [ofRangeSpec_invalid_iff, allBounds_eq_nil_iff]

/-- A range whose bounds are a quotation mark and a hyphen, and one from one mark to the other, with
a hyphen between them. -/
def marks : List (Spelling × Gap) :=
  [({ first := ⟨.single, 0x27, .double, by decide⟩
      last := ⟨.double, 0x2D, .single, by decide⟩
      before := utf16 "\t"
      after := utf16 "  "
      before_blank := List.all_eq_true.1 rfl
      after_blank := List.all_eq_true.1 rfl }, .ofText (utf16 "-, ") rfl),
    ({ first := ⟨.double, 0x22, .double, by decide⟩
       last := ⟨.single, 0x27, .single, by decide⟩
       before := []
       after := []
       before_blank := List.all_eq_true.1 rfl
       after_blank := List.all_eq_true.1 rfl }, .ofText [] rfl)]

/-- A range with its bounds reversed. -/
def backwards : Spelling × Gap :=
  ({ first := ⟨.single, 0x7A, .single, by decide⟩
     last := ⟨.single, 0x61, .single, by decide⟩
     before := []
     after := []
     before_blank := List.all_eq_true.1 rfl
     after_blank := List.all_eq_true.1 rfl }, .ofText [] rfl)

theorem marks_read :
    marks ≠ [] ∧ (∀ item ∈ marks, item.1.first.unit ≤ item.1.last.unit) ∧
      (∃ first others,
        ofRangeSpec (utf16 "=''\"\t-  \"-'-, \"\"\"-'''") = .ok (multiRange first others) ∧
          (first :: others).map (fun r => (r.first, r.last)) = [(0x27, 0x2D), (0x22, 0x27)]) ∧
      ofRangeSpec (utf16 "=''\"\t-  \"-'-, \"\"\"-''''z'-'a'") = .error (.reversedRange 0x7A 0x61) ∧
      ∀ w : Spelling, ¬ w.text <:+: utf16 "'a'-z" := by
  have hany : marks ≠ [] := List.cons_ne_nil _ _
  have hordered : ∀ item ∈ marks, item.1.first.unit ≤ item.1.last.unit := by decide
  have hbackwards : ∃ item ∈ marks ++ [backwards], item.1.last.unit < item.1.first.unit :=
    ⟨backwards, by simp, by decide⟩
  have hrefused : ofRangeSpec (utf16 "'a'-z") = .error (.noRangeInSpec (utf16 "'a'-z")) := by
    cbv
  obtain ⟨hlisted, hinvalid⟩ := specification_read
  obtain ⟨pair, hpair, hreversed, -⟩ :=
    (hlisted (.ofText (utf16 "=") rfl) (marks ++ [backwards]) (by simp)).2 hbackwards
  obtain rfl : (0x7A, 0x61) = pair := Option.some.inj hpair
  exact ⟨hany, hordered, (hlisted (.ofText (utf16 "=") rfl) marks hany).1 hordered, hreversed,
    (hinvalid _).1 ⟨_, hrefused, rfl⟩⟩

end Pattern

end PatternAlgebra
