import PatternAlgebra.Regex.Syntax

/-!
# Subjects and states of a match

A subject is the text that an expression runs on, with the options that change the meaning of units
and anchors. A state is a position in it and what each group has captured last.
-/

namespace PatternAlgebra

/-- How units and lines are compared. -/
structure MatchOptions where
  ignoreCase : Bool := false
  multiline : Bool := false
  deriving DecidableEq

/-- A text under match. -/
structure Subject where
  units : Array CodeUnit
  options : MatchOptions

/-- The units from `start` up to `stop`. -/
structure Span where
  start : Nat
  stop : Nat
  deriving DecidableEq

/-- What each group has captured, by its number. -/
abbrev Captures := Nat → Option Span

structure State where
  position : Nat
  captures : Captures

namespace Subject

def ofText (t : Text) (options : MatchOptions) : Subject := ⟨t.toArray, options⟩

def length (s : Subject) : Nat := s.units.size

/-- The units of a span. -/
def slice (s : Subject) (span : Span) : Text := (s.units.extract span.start span.stop).toList

theorem slice_eq (s : Subject) (i j : Nat) :
    s.slice ⟨i, j⟩ = (s.units.toList.drop i).take (j - i) := by
  rw [slice, Array.toList_extract, List.extract_eq_take_drop]

end Subject

namespace State

/-- The state in which a match begins at a position. -/
def start (position : Nat) : State := ⟨position, fun _ => none⟩

/-- One unit further. -/
def advance (st : State) : State := { st with position := st.position + 1 }

/-- Lets a group capture what lies between a position and the state's. -/
def capture (st : State) (index start : Nat) : State :=
  { st with captures := fun i => if i = index then some ⟨start, st.position⟩ else st.captures i }

/-- Forgets what some groups have captured. -/
def forget (st : State) (groups : List Nat) : State :=
  match groups with
  | [] => st
  | _ => { st with captures := fun i => if groups.contains i then none else st.captures i }

@[simp] theorem position_start (position : Nat) : (start position).position = position := rfl

@[simp] theorem captures_start (position : Nat) : (start position).captures = fun _ => none := rfl

@[simp] theorem position_advance (st : State) : st.advance.position = st.position + 1 := rfl

@[simp] theorem captures_advance (st : State) : st.advance.captures = st.captures := rfl

@[simp] theorem position_capture (st : State) (index start : Nat) :
    (st.capture index start).position = st.position := rfl

@[simp] theorem captures_capture (st : State) (index start i : Nat) :
    (st.capture index start).captures i =
      if i = index then some ⟨start, st.position⟩ else st.captures i := rfl

@[simp] theorem position_forget (st : State) (groups : List Nat) :
    (st.forget groups).position = st.position := by
  cases groups <;> rfl

@[simp] theorem captures_forget (st : State) (groups : List Nat) (i : Nat) :
    (st.forget groups).captures i = if groups.contains i then none else st.captures i := by
  cases groups <;> simp [forget]

end State

/-- Whether a set matches the unit at a position. -/
def UnitSet.acceptsAt (set : UnitSet) (s : Subject) (position : Nat) : Bool :=
  match s.units[position]? with
  | some u => set.accepts s.options.ignoreCase u
  | none => false

/-- Whether the units of a text stand from a position on. -/
def Subject.standsAt (s : Subject) : Text → Nat → Bool
  | [], _ => true
  | u :: rest, position =>
    (s.units[position]?).any (sameUnit s.options.ignoreCase u) && s.standsAt rest (position + 1)

/-- The state behind a reference to a group. One that has captured nothing matches the empty
text. -/
def Subject.afterReference? (s : Subject) (index : Nat) (st : State) : Option State :=
  match st.captures index with
  | none => some st
  | some span =>
    if s.standsAt (s.slice span) st.position then
      some { st with position := st.position + (s.slice span).length }
    else none

theorem Subject.length_le_of_standsAt {s : Subject} {t : Text} {position : Nat}
    (h : s.standsAt t position = true) (ht : t ≠ []) : position + t.length ≤ s.length := by
  induction t generalizing position with
  | nil => contradiction
  | cons u t ih =>
    simp only [standsAt, Bool.and_eq_true, Option.any_eq_true] at h
    obtain ⟨⟨v, hv, _⟩, hrest⟩ := h
    have hp : position < s.length := by
      have := Array.getElem?_eq_some_iff.1 hv
      exact this.1
    cases t with
    | nil => exact hp
    | cons w t =>
      have := ih hrest (by simp)
      simp only [List.length_cons] at *
      omega

end PatternAlgebra
