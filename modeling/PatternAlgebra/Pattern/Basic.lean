import PatternAlgebra.Pattern.Kind
import PatternAlgebra.Pattern.Parameter
import PatternAlgebra.Text.Anchor

/-!
# Patterns

A pattern is a tree of readable parts. Its parameters are checked before it is built, so each
value of the type can be written as an expression; whether names and references fit together is a
question for compilation.
-/

namespace PatternAlgebra

/-- How often a pattern is repeated. -/
inductive Quantifier where
  | optional
  | oneOrMore
  | zeroOrMore
  | exactly (count : Count)
  | between (bounds : Bounds)
  | atLeast (count : Count)

namespace Quantifier

/-- The least number of rounds. -/
def least : Quantifier → Nat
  | optional | zeroOrMore => 0
  | oneOrMore => 1
  | exactly count | atLeast count => count.value
  | between bounds => bounds.least.value

/-- The greatest number of rounds, if there is one. -/
def most? : Quantifier → Option Nat
  | optional => some 1
  | oneOrMore | zeroOrMore | atLeast _ => none
  | exactly count => some count.value
  | between bounds => some bounds.most.value

def kind : Quantifier → Kind
  | optional => .optional
  | oneOrMore => .oneOrMore
  | zeroOrMore => .zeroOrMore
  | exactly _ => .exactly
  | between _ => .range
  | atLeast _ => .atLeast

end Quantifier

/-- Patterns. `either` and `sequence` have at least one part, and `either` chooses between texts,
not patterns. -/
inductive Pattern where
  | literal (text : Text)
  | either (first : Text) (others : List Text)
  | sequence (first : Pattern) (others : List Pattern)
  | repeated (body : Pattern) (quantifier : Quantifier)
  | anyUnit
  | shorthand (s : Shorthand)
  | anchor (a : Anchor)
  | charClass (negated : Bool) (members : Text)
  | charRange (range : CharRange)
  | multiRange (first : CharRange) (others : List CharRange)
  | group (body : Pattern)
  | namedGroup (name : GroupName) (body : Pattern)
  | backreference (name : ReferenceName)

def Shorthand.kind : Shorthand → Kind
  | .digit => .digit
  | .word => .wordChar
  | .blank => .whitespace

def Anchor.kind : Anchor → Kind
  | .lineStart => .startOfLine
  | .lineEnd => .endOfLine
  | .inputStart => .startOfString
  | .inputEnd => .endOfString

namespace Pattern

/-- Induction on patterns with a property `Q` of the parts of a sequence, taken together. -/
@[elab_as_elim]
theorem inductParts {motive : Pattern → Prop} {Q : List Pattern → Prop}
    (literal : ∀ t, motive (literal t))
    (either : ∀ first others, motive (either first others))
    (sequence : ∀ first others, Q (first :: others) → motive (sequence first others))
    (repeated : ∀ body q, motive body → motive (repeated body q))
    (anyUnit : motive anyUnit)
    (shorthand : ∀ s, motive (shorthand s))
    (anchor : ∀ a, motive (anchor a))
    (charClass : ∀ negated members, motive (charClass negated members))
    (charRange : ∀ r, motive (charRange r))
    (multiRange : ∀ first others, motive (multiRange first others))
    (group : ∀ body, motive body → motive (group body))
    (namedGroup : ∀ name body, motive body → motive (namedGroup name body))
    (backreference : ∀ name, motive (backreference name))
    (nil : Q [])
    (cons : ∀ p ps, motive p → Q ps → Q (p :: ps)) (p : Pattern) : motive p :=
  Pattern.rec (motive_1 := motive) (motive_2 := Q) literal either
    (fun first others hfirst hothers => sequence first others (cons first others hfirst hothers))
    repeated anyUnit shorthand anchor charClass charRange multiRange group namedGroup backreference
    nil cons p

/-- Induction on patterns: a sequence may assume the property of each of its parts. -/
@[elab_as_elim]
theorem induct {motive : Pattern → Prop}
    (literal : ∀ t, motive (literal t))
    (either : ∀ first others, motive (either first others))
    (sequence : ∀ first others, motive first → (∀ p ∈ others, motive p) →
      motive (sequence first others))
    (repeated : ∀ body q, motive body → motive (repeated body q))
    (anyUnit : motive anyUnit)
    (shorthand : ∀ s, motive (shorthand s))
    (anchor : ∀ a, motive (anchor a))
    (charClass : ∀ negated members, motive (charClass negated members))
    (charRange : ∀ r, motive (charRange r))
    (multiRange : ∀ first others, motive (multiRange first others))
    (group : ∀ body, motive body → motive (group body))
    (namedGroup : ∀ name body, motive body → motive (namedGroup name body))
    (backreference : ∀ name, motive (backreference name)) (p : Pattern) : motive p := by
  refine inductParts (Q := fun ps => ∀ p ∈ ps, motive p) literal either ?_ repeated anyUnit
    shorthand anchor charClass charRange multiRange group namedGroup backreference ?_ ?_ p
  · intro first others hparts
    rw [List.forall_mem_cons] at hparts
    exact sequence first others hparts.1 hparts.2
  · exact fun _ h => nomatch h
  · exact fun q qs hq hqs => List.forall_mem_cons.2 ⟨hq, hqs⟩

def kind : Pattern → Kind
  | literal _ => .literal
  | either _ _ => .either
  | sequence _ _ => .sequence
  | repeated _ quantifier => quantifier.kind
  | anyUnit => .anyChar
  | shorthand s => s.kind
  | anchor a => a.kind
  | charClass negated _ => if negated then .notCharClass else .charClass
  | charRange _ => .charRange
  | multiRange _ _ => .multiRange
  | group _ => .group
  | namedGroup _ _ => .namedGroup
  | backreference _ => .namedBackreference

/-- The direct parts of a pattern, in order. -/
def children : Pattern → List Pattern
  | sequence first others => first :: others
  | repeated body _ | group body | namedGroup _ body => [body]
  | multiRange first others => (first :: others).map charRange
  | _ => []

/-! ## Building -/

/-- Any one of some texts. -/
def ofAlternatives : List Text → Except Fault Pattern
  | [] => .error .noAlternatives
  | first :: others => .ok (either first others)

/-- Patterns one after another. -/
def ofList : List Pattern → Except Fault Pattern
  | [] => .error .noPatterns
  | first :: others => .ok (sequence first others)

/-- Any unit of some ranges. -/
def ofRanges : List CharRange → Except Fault Pattern
  | [] => .error .noRanges
  | first :: others => .ok (multiRange first others)

/-- A pattern and another after it. Chains nest to the left. -/
def andThen (p q : Pattern) : Pattern := sequence p [q]

def optional (p : Pattern) : Pattern := repeated p .optional

def oneOrMore (p : Pattern) : Pattern := repeated p .oneOrMore

def zeroOrMore (p : Pattern) : Pattern := repeated p .zeroOrMore

/-- So many rounds of a pattern. -/
def exactly (p : Pattern) (count : Double) : Except Fault Pattern :=
  (Count.read .exactly count).map (repeated p <| .exactly ·)

/-- At least so many rounds of a pattern. -/
def atLeast (p : Pattern) (count : Double) : Except Fault Pattern :=
  (Count.read .atLeast count).map (repeated p <| .atLeast ·)

/-- From `least` to `most` rounds of a pattern. -/
def between (p : Pattern) (least most : Double) : Except Fault Pattern :=
  (Bounds.read least most).map (repeated p <| .between ·)

/-- A pattern captured under a name. -/
def captureAs (name : Text) (p : Pattern) : Except Fault Pattern :=
  (GroupName.read name).map (namedGroup · p)

/-- A pattern captured under a name, where the pattern may have been left out. -/
def captureAs? (name : Text) : Option Pattern → Except BuildError Pattern
  | some p => (captureAs name p).mapError .refused
  | none => .error (.nothingToCapture name)

/-- What the group with a name captured, once more. -/
def referTo (name : Text) : Except Fault Pattern := (ReferenceName.read name).map backreference

end Pattern

end PatternAlgebra
