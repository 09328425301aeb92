import PatternAlgebra.Pattern.Fault
import PatternAlgebra.Text.Class

/-!
# Parameters of patterns

Counts, bounds, character ranges and names carry the conditions under which a pattern accepts them,
so that a pattern that exists can always be written. Reading a parameter either gives it or names
the fault.
-/

namespace PatternAlgebra

/-- A repetition count: a double that is a natural number. The double is kept, as its written form
is part of the expression. -/
structure Count where
  number : Double
  value : Nat
  exact : number.toNat? = some value

namespace Count

/-- The count that a double is, if it is a natural number. -/
def ofDouble? (d : Double) : Option Count :=
  match h : d.toNat? with
  | some n => some ⟨d, n, h⟩
  | none => none

def text (c : Count) : Text := c.number.text

theorem ofDouble?_number (c : Count) : ofDouble? c.number = some c := by
  obtain ⟨d, n, h⟩ := c
  unfold ofDouble?
  split
  next m hm =>
    have hmn : m = n := Option.some.inj (hm.symm.trans h)
    subst hmn
    rfl
  next hm => exact absurd (hm.symm.trans h) (by simp)

/-- Reads the single count of a repetition. -/
def read (role : CountRole) (d : Double) : Except Fault Count :=
  match ofDouble? d with
  | some c => .ok c
  | none => .error (.badCount role d)

end Count

/-- A least and a greatest number of rounds. -/
structure Bounds where
  least : Count
  most : Count
  ordered : least.value ≤ most.value

/-- Reads the bounds of a repetition; both are refused together. -/
def Bounds.read (least most : Double) : Except Fault Bounds :=
  match Count.ofDouble? least, Count.ofDouble? most with
  | some a, some b =>
    if h : a.value ≤ b.value then .ok ⟨a, b, h⟩ else .error (.badBounds least most)
  | _, _ => .error (.badBounds least most)

/-- The units from `first` to `last`, both included. -/
structure CharRange where
  first : CodeUnit
  last : CodeUnit
  ordered : first ≤ last

/-- A bound of a character range as it is given: a text, or a unit's code. -/
inductive RangeBound where
  | text (t : Text)
  | code (d : Double)

namespace RangeBound

/-- The unit that a bound names. -/
def read (side : RangeSide) : RangeBound → Except Fault CodeUnit
  | text [u] => .ok u
  | text _ => .error (.notOneUnit side)
  | code d =>
    match d.toNat? with
    | some n => if n ≤ 0xFFFF then .ok n.toUInt16 else .error (.badCharCode side d)
    | none => .error (.badCharCode side d)

/-- A bound as text; a code becomes its written number. -/
def asText : RangeBound → RangeBound
  | text t => text t
  | code d => text d.text

end RangeBound

namespace CharRange

/-- The range between two units. -/
def between (first last : CodeUnit) : Except Fault CharRange :=
  if h : first ≤ last then .ok ⟨first, last, h⟩ else .error (.reversedRange first last)

/-- The range between two bounds, each taken as it is given. The first bound is read first. -/
def ofBounds (start finish : RangeBound) : Except Fault CharRange := do
  let first ← start.read .start
  let last ← finish.read .finish
  between first last

/-- The range between two bounds of one sort: two codes, or else two texts, where a code beside
a text counts as its written number. -/
def ofLikeBounds : RangeBound → RangeBound → Except Fault CharRange
  | .code a, .code b => ofBounds (.code a) (.code b)
  | start, finish => ofBounds start.asText finish.asText

/-- Membership of a unit. -/
def contains (r : CharRange) (u : CodeUnit) : Bool := r.first ≤ u && u ≤ r.last

end CharRange

/-- A letter followed by letters and digits. -/
def isGroupName : Text → Bool
  | [] => false
  | u :: rest => Text.isLetter u && rest.all (fun v => Text.isLetter v || Text.isDigit v)

/-- A name that a capturing group can have. -/
structure GroupName where
  text : Text
  wellFormed : isGroupName text = true
  deriving DecidableEq

def GroupName.read (name : Text) : Except Fault GroupName :=
  if h : isGroupName name = true then .ok ⟨name, h⟩ else .error (.badGroupName name)

/-- A name that a backreference can have: any text but the empty one. -/
structure ReferenceName where
  text : Text
  nonempty : text ≠ []
  deriving DecidableEq

def ReferenceName.read : Text → Except Fault ReferenceName
  | [] => .error .emptyReferenceName
  | u :: rest => .ok ⟨u :: rest, by simp⟩

end PatternAlgebra
