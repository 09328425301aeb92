import PatternAlgebra.Proofs.Carrying
import PatternAlgebra.Proofs.Renumber

/-!
# Matching inside a piece of the subject

What a closed expression does within a piece of the subject it does on that piece alone, under other
group numbers as well (`simulate`), and the other way round (`embed`). Assertions are excluded, as they
look beyond the piece, and so are references to groups outside the expression, which may hold texts
from elsewhere. Which outcome is preferred may differ: outcomes beyond the piece are not considered.
-/

namespace PatternAlgebra

/-- The piece of a subject from `a` up to `b`, as a subject of its own. -/
def Subject.piece (s : Subject) (a b : Nat) : Subject := .ofText (s.slice ⟨a, b⟩) s.options

/-- A span, so much further on. -/
def Span.shift (a : Nat) (span : Span) : Span := ⟨a + span.start, a + span.stop⟩

namespace Subject

variable {s : Subject} {a b : Nat}

theorem length_piece (hb : b ≤ s.length) : (s.piece a b).length = b - a := by
  have hsize : s.units.toList.length = s.length := Array.length_toList
  show (s.slice ⟨a, b⟩).toArray.size = b - a
  rw [List.size_toArray, slice_eq, List.length_take, List.length_drop, hsize]
  show min (b - a) (s.length - a) = b - a
  omega

theorem units_piece {i : Nat} (hi : a + i < b) :
    (s.piece a b).units[i]? = s.units[a + i]? := by
  show (s.slice ⟨a, b⟩).toArray[i]? = _
  rw [List.getElem?_toArray, slice_eq, List.getElem?_take_of_lt (by omega),
    List.getElem?_drop, Array.getElem?_toList]

/-- A piece of the piece is a piece of the subject. -/
theorem slice_shift {span : Span} (h : a + span.stop ≤ b) :
    s.slice (span.shift a) = (s.piece a b).slice span := by
  show s.slice ⟨a + span.start, a + span.stop⟩ = (s.piece a b).slice ⟨span.start, span.stop⟩
  rw [slice_eq, slice_eq]
  show _ = List.take _ (List.drop _ (s.slice ⟨a, b⟩))
  rw [slice_eq, List.drop_take, List.drop_drop, List.take_take]
  congr 1
  omega

theorem standsAt_piece {t : Text} {i : Nat} (hb : a + i + t.length ≤ b)
    (h : s.standsAt t (a + i) = true) : (s.piece a b).standsAt t i = true := by
  induction t generalizing i with
  | nil => rfl
  | cons u t ih =>
    rw [List.length_cons] at hb
    rw [standsAt, Bool.and_eq_true] at h ⊢
    rw [units_piece (by omega)]
    exact ⟨h.1, ih (i := i + 1) (by omega) (by rw [← Nat.add_assoc]; exact h.2)⟩

/-- A text that stands in the piece stands in the subject. -/
theorem standsAt_of_piece (hb : b ≤ s.length) {t : Text} {i : Nat}
    (h : (s.piece a b).standsAt t i = true) : s.standsAt t (a + i) = true := by
  induction t generalizing i with
  | nil => rfl
  | cons u t ih =>
    rw [standsAt, Bool.and_eq_true] at h ⊢
    obtain ⟨v, hv, hsame⟩ := (Option.any_eq_true _ _).1 h.1
    obtain ⟨hi, -⟩ := Array.getElem?_eq_some_iff.1 hv
    have hlength : (s.piece a b).length = b - a := length_piece hb
    change i < (s.piece a b).length at hi
    rw [units_piece (by omega)] at hv
    rw [hv]
    exact ⟨hsame, Nat.add_assoc a i 1 ▸ ih h.2⟩

end Subject

/-- A state `st` of the subject and a state `u` of the piece that begins at `a` and ends at `b` are
the same, up to the numbers of the groups in `G`. -/
structure SameWithin (f : Nat → Nat) (G : Nat → Prop) (a b : Nat) (st u : State) : Prop where
  position : st.position = a + u.position
  captures : ∀ i, G i → st.captures (f i) = (u.captures i).map (Span.shift a)
  inside : ∀ i span, G i → u.captures i = some span → a + span.stop ≤ b

section Simulation

variable {f : Nat → Nat} {G : Nat → Prop} {s : Subject} {a b : Nat}

theorem SameWithin.forget {st u : State} (hf : ∀ i j, f i = f j → i = j)
    (h : SameWithin f G a b st u) (groups : List Nat) :
    SameWithin f G a b (st.forget (groups.map f)) (u.forget groups) := by
  have hmem : ∀ i, (groups.map f).contains (f i) = groups.contains i := by
    intro i
    rw [Bool.eq_iff_iff, List.contains_iff_mem, List.contains_iff_mem, List.mem_map]
    constructor
    · rintro ⟨j, hj, heq⟩
      exact hf j i heq ▸ hj
    · exact fun hi => ⟨i, hi, rfl⟩
  constructor
  · rw [State.position_forget, State.position_forget, h.position]
  · intro i hi
    rw [State.captures_forget, State.captures_forget, hmem]
    split
    · rfl
    · exact h.captures i hi
  · intro i span hi hspan
    rw [State.captures_forget] at hspan
    split at hspan
    · contradiction
    · exact h.inside i span hi hspan

theorem SameWithin.capture {st u next v : State} (hf : ∀ i j, f i = f j → i = j)
    (h : SameWithin f G a b st u) (hnext : SameWithin f G a b next v) (hb : next.position ≤ b)
    (index : Nat) :
    SameWithin f G a b (next.capture (f index) st.position) (v.capture index u.position) := by
  constructor
  · exact hnext.position
  · intro i hi
    show (if f i = f index then some (Span.mk st.position next.position) else next.captures (f i)) =
      (if i = index then some (Span.mk u.position v.position) else v.captures i).map (Span.shift a)
    by_cases heq : i = index
    · rw [if_pos heq, if_pos (congrArg f heq), h.position, hnext.position]
      rfl
    · rw [if_neg heq, if_neg (fun hfi => heq (hf i index hfi))]
      exact hnext.captures i hi
  · intro i span hi hspan
    change (if i = index then some (Span.mk u.position v.position) else v.captures i) = some span
      at hspan
    split at hspan
    · obtain rfl := Option.some.inj hspan
      rw [← hnext.position]
      exact hb
    · exact hnext.inside i span hi hspan

/-- One function on states within the piece does what the other does on the subject. -/
def Simulates (f : Nat → Nat) (G : Nat → Prop) (a b : Nat) (F F' : State → List State) : Prop :=
  ∀ st u, SameWithin f G a b st u → ∀ next ∈ F st, next.position ≤ b →
    ∃ v ∈ F' u, SameWithin f G a b next v

/-- A position within the piece is asked for whenever a later one is. -/
theorem tracks_within : Tracks (SameWithin f G a b) (fun next => next.position ≤ b) where
  moved := by
    intro st u next v h hnext
    have hposition := h.position
    have hnextPosition := hnext.position
    omega
  before := Nat.le_trans

namespace Simulates

theorem one (units : UnitSet) :
    Simulates f G a b ((Regex.one units).outcomes s) ((Regex.one units).outcomes (s.piece a b)) := by
  intro st u h next hnext hb
  obtain ⟨haccepts, rfl⟩ := Regex.mem_outcomes_one.1 hnext
  rw [State.position_advance] at hb
  have hpiece : units.acceptsAt (s.piece a b) u.position = true := by
    rw [UnitSet.acceptsAt, Subject.units_piece (by rw [← h.position]; exact hb), ← h.position]
    exact haccepts
  refine ⟨u.advance, Regex.mem_outcomes_one.2 ⟨hpiece, rfl⟩, ?_, h.captures, h.inside⟩
  rw [State.position_advance, State.position_advance, h.position, Nat.add_assoc]

theorem reference {index : Nat} (hG : G index) :
    Simulates f G a b (fun st => (s.afterReference? (f index) st).toList)
      (fun u => ((s.piece a b).afterReference? index u).toList) := by
  intro st u h next hnext hb
  have hnext := Option.mem_toList.1 hnext
  have hcaptures := h.captures index hG
  unfold Subject.afterReference? at hnext
  cases hu : u.captures index with
  | none =>
    rw [hu] at hcaptures
    rw [hcaptures] at hnext
    obtain rfl := Option.some.inj hnext
    exact ⟨u, by simp [Subject.afterReference?, hu], h⟩
  | some span =>
    have hslice := s.slice_shift (h.inside index span hG hu)
    rw [hu] at hcaptures
    rw [hcaptures] at hnext
    simp only [Option.map_some, hslice] at hnext
    split at hnext
    next hstands =>
      obtain rfl := Option.some.inj hnext
      rw [h.position] at hstands
      have hbound : a + u.position + ((s.piece a b).slice span).length ≤ b := by
        rw [← h.position]
        exact hb
      have hpiece := Subject.standsAt_piece hbound hstands
      refine ⟨{ u with position := u.position + ((s.piece a b).slice span).length }, ?_, ?_⟩
      · simp [Subject.afterReference?, hu, hpiece]
      · refine ⟨?_, h.captures, h.inside⟩
        show st.position + _ = a + (u.position + _)
        rw [h.position, Nat.add_assoc]
    · contradiction

theorem loop {body : Regex} (hf : ∀ i j, f i = f j → i = j) (hlength : b ≤ s.length)
    (hbody : Simulates f G a b ((body.renumber f).outcomes s) (body.outcomes (s.piece a b)))
    (least : Nat) (most : Option Nat) :
    Simulates f G a b (((Regex.loop body least most).renumber f).outcomes s)
      ((Regex.loop body least most).outcomes (s.piece a b)) := by
  have hround : Simulates f G a b ((body.renumber f).round s) (body.round (s.piece a b)) := by
    intro st u h next hnext hb
    rw [Regex.round, Regex.groups_renumber] at hnext
    exact hbody _ _ (h.forget hf body.groups) next hnext hb
  apply Carries.loop tracks_within hround
  intro st u next h hb
  have hposition := h.position
  have hpiece : (s.piece a b).length = b - a := Subject.length_piece hlength
  omega

end Simulates

/-- A closed expression does within a piece of the subject what it does on the piece alone. -/
theorem simulate (hf : ∀ i j, f i = f j → i = j) (hlength : b ≤ s.length) {r : Regex}
    (hr : r.Closed G) :
    Simulates f G a b ((r.renumber f).outcomes s) (r.outcomes (s.piece a b)) := by
  induction r with
  | empty => exact Carries.pure
  | one units => exact .one units
  | assertion a => contradiction
  | sequence p q ihp ihq =>
    exact Carries.comp tracks_within (ihp hr.1) (ihq hr.2)
      (fun mid next hnext => (Regex.reaches_of_mem_outcomes s _ mid next hnext).1.le)
  | choice p q ihp ihq => exact Carries.or (ihp hr.1) (ihq hr.2)
  | capture index body ih =>
    intro st u h next hnext hb
    obtain ⟨mid, hmid, rfl⟩ := Regex.mem_outcomes_capture.1 hnext
    obtain ⟨w, hw, hmidw⟩ := ih hr st u h mid hmid hb
    exact ⟨_, Regex.mem_outcomes_capture.2 ⟨w, hw, rfl⟩, h.capture hf hmidw hb index⟩
  | reference index => exact .reference hr
  | loop body least most ih => exact .loop hf hlength (ih hr) least most

/-! ## From the piece to the subject -/

/-- A state `u` within the piece and a state `st` of the subject are the same. -/
def Placed (f : Nat → Nat) (G : Nat → Prop) (a b : Nat) (u st : State) : Prop :=
  SameWithin f G a b st u ∧ a + u.position ≤ b

theorem tracks_placed : Tracks (Placed f G a b) (fun _ => True) where
  moved := by
    intro u st v next h hnext
    have hposition := h.1.position
    have hnextPosition := hnext.1.position
    omega
  before := fun _ => id

/-- An outcome on the piece ends within it. -/
theorem Placed.of_later {u st v next : State} (h : Placed f G a b u st) (hlength : b ≤ s.length)
    (hlater : (s.piece a b).Later u v) (hsame : SameWithin f G a b next v) :
    Placed f G a b v next := by
  have hpiece : (s.piece a b).length = b - a := Subject.length_piece hlength
  have hle := h.2
  have hend := hlater.le_length (by omega)
  exact ⟨hsame, by omega⟩

theorem placed_one (hlength : b ≤ s.length) (units : UnitSet) :
    Carries (Placed f G a b) (fun _ => True) ((Regex.one units).outcomes (s.piece a b))
      ((Regex.one units).outcomes s) := by
  intro u st h v hv _
  have hlater := (Regex.reaches_of_mem_outcomes _ _ u v hv).1
  obtain ⟨haccepts, rfl⟩ := Regex.mem_outcomes_one.1 hv
  have hplaced : Placed f G a b u.advance st.advance := by
    apply h.of_later hlength hlater
    refine ⟨?_, h.1.captures, h.1.inside⟩
    rw [State.position_advance, State.position_advance, h.1.position, Nat.add_assoc]
  have hsubject : units.acceptsAt s st.position = true := by
    have hbound : a + u.position + 1 ≤ b := hplaced.2
    rw [UnitSet.acceptsAt, h.1.position, ← Subject.units_piece hbound]
    exact haccepts
  exact ⟨st.advance, Regex.mem_outcomes_one.2 ⟨hsubject, rfl⟩, hplaced⟩

theorem placed_reference (hlength : b ≤ s.length) {index : Nat} (hG : G index) :
    Carries (Placed f G a b) (fun _ => True) ((Regex.reference index).outcomes (s.piece a b))
      ((Regex.reference (f index)).outcomes s) := by
  intro u st h v hv _
  have hlater := (Regex.reaches_of_mem_outcomes _ _ u v hv).1
  have hv := Regex.mem_outcomes_reference.1 hv
  have hcaptures := h.1.captures index hG
  unfold Subject.afterReference? at hv
  cases hu : u.captures index with
  | none =>
    rw [hu] at hv hcaptures
    obtain rfl := Option.some.inj hv
    exact ⟨st, by simp [Subject.afterReference?, hcaptures], h⟩
  | some span =>
    rw [hu] at hv hcaptures
    have hslice := s.slice_shift (h.1.inside index span hG hu)
    simp only at hv
    split at hv
    next hstands =>
      obtain rfl := Option.some.inj hv
      have hsubject := Subject.standsAt_of_piece hlength hstands
      rw [← h.1.position] at hsubject
      refine ⟨{ st with position := st.position + ((s.piece a b).slice span).length }, ?_, ?_⟩
      · simp [Subject.afterReference?, hcaptures, hslice, hsubject]
      · apply h.of_later hlength hlater
        refine ⟨?_, h.1.captures, h.1.inside⟩
        show st.position + _ = a + (u.position + _)
        rw [h.1.position, Nat.add_assoc]
    · contradiction

/-- What a closed expression does on the piece alone it does within the subject. -/
theorem embed (hf : ∀ i j, f i = f j → i = j) (hlength : b ≤ s.length) {r : Regex}
    (hr : r.Closed G) :
    Carries (Placed f G a b) (fun _ => True) (r.outcomes (s.piece a b))
      ((r.renumber f).outcomes s) := by
  induction r with
  | empty => exact .pure
  | one units => exact placed_one hlength units
  | assertion a => contradiction
  | sequence p q ihp ihq =>
    exact .comp tracks_placed (ihp hr.1) (ihq hr.2)
      (fun mid next hnext => (Regex.reaches_of_mem_outcomes _ q mid next hnext).1.le)
  | choice p q ihp ihq => exact .or (ihp hr.1) (ihq hr.2)
  | capture index body ih =>
    intro u st h v hv _
    obtain ⟨w, hw, rfl⟩ := Regex.mem_outcomes_capture.1 hv
    obtain ⟨mid, hmid, hmidw⟩ := ih hr u st h w hw trivial
    have hb : mid.position ≤ b := by
      rw [hmidw.1.position]
      exact hmidw.2
    exact ⟨_, Regex.mem_outcomes_capture.2 ⟨mid, hmid, rfl⟩, h.1.capture hf hmidw.1 hb index, hmidw.2⟩
  | reference index => exact placed_reference hlength hr
  | loop body least most ih =>
    have hround : Carries (Placed f G a b) (fun _ => True) (body.round (s.piece a b))
        ((body.renumber f).round s) := by
      intro u st h v hv _
      rw [Regex.round, Regex.groups_renumber]
      refine ih hr _ _ ⟨h.1.forget hf body.groups, ?_⟩ v hv trivial
      rw [State.position_forget]
      exact h.2
    apply Carries.loop tracks_placed hround
    intro u st v h _
    have hposition := h.1.position
    have hpiece : (s.piece a b).length = b - a := Subject.length_piece hlength
    omega

end Simulation

end PatternAlgebra
