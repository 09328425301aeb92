import PatternAlgebra.Pattern.Expression

/-!
# Outlines

An outline is what explanations show of a pattern: at each node its kind, its expression, a line
that describes it, lines of detail, and the outlines of its parts. Outlines can also be made by
hand.
-/

namespace PatternAlgebra

inductive Outline where
  | node (kind : Kind) (expression description : Text) (details : List Text)
      (children : List Outline)

namespace Outline

def kind : Outline → Kind
  | node kind _ _ _ _ => kind

def expression : Outline → Text
  | node _ expression _ _ _ => expression

def description : Outline → Text
  | node _ _ description _ _ => description

def details : Outline → List Text
  | node _ _ _ details _ => details

def children : Outline → List Outline
  | node _ _ _ _ children => children

/-- Induction on outlines with a property `Q` of the parts of a node, taken together. -/
@[elab_as_elim]
theorem inductParts {motive : Outline → Prop} {Q : List Outline → Prop}
    (node : ∀ kind expression description details children, Q children →
      motive (node kind expression description details children))
    (nil : Q [])
    (cons : ∀ o os, motive o → Q os → Q (o :: os)) (o : Outline) : motive o :=
  Outline.rec (motive_1 := motive) (motive_2 := Q) node nil cons o

/-- Induction on outlines: a node may assume the property of each of its parts. -/
@[elab_as_elim]
theorem induct {motive : Outline → Prop}
    (node : ∀ kind expression description details children, (∀ o ∈ children, motive o) →
      motive (node kind expression description details children)) (o : Outline) : motive o := by
  refine inductParts (Q := fun os => ∀ o ∈ os, motive o) node ?_ ?_ o
  · exact fun _ h => nomatch h
  · exact fun o os ho hos => List.forall_mem_cons.2 ⟨ho, hos⟩

end Outline

/-- A repetition, described. -/
def Quantifier.description : Quantifier → Text
  | .optional => utf16 "Optional:"
  | .oneOrMore => utf16 "One or more times:"
  | .zeroOrMore => utf16 "Zero or more times:"
  | .exactly count => utf16 "Exactly " ++ count.text ++ utf16 " times:"
  | .between bounds =>
    utf16 "Between " ++ bounds.least.text ++ utf16 " and " ++ bounds.most.text ++ utf16 " times:"
  | .atLeast count => utf16 "At least " ++ count.text ++ utf16 " times:"

def Shorthand.description : Shorthand → Text
  | .digit => utf16 "Any digit (0-9)"
  | .word => utf16 "Any word character (a-z, A-Z, 0-9, _)"
  | .blank => utf16 "Any whitespace character"

def Anchor.description : Anchor → Text
  | .lineStart => utf16 "Start of line"
  | .lineEnd => utf16 "End of line"
  | .inputStart => utf16 "Start of string"
  | .inputEnd => utf16 "End of string"

namespace Pattern

/-- One line about a pattern itself, without its parts. -/
def description : Pattern → Text
  | literal t => utf16 "Literal text: " ++ t.quoted
  | either first others => utf16 "One of: " ++ (utf16 ", ").intercalate (first :: others)
  | sequence _ _ => utf16 "Sequence of patterns:"
  | repeated _ quantifier => quantifier.description
  | anyUnit => utf16 "Any character"
  | shorthand s => s.description
  | anchor a => a.description
  | charClass true members => utf16 "None of: " ++ members.quoted
  | charClass false members => utf16 "Any of: " ++ members.quoted
  | charRange r =>
    utf16 "Character range: " ++ Text.quoted [r.first] ++ utf16 " to " ++ Text.quoted [r.last]
  | multiRange _ _ => utf16 "Any character in ranges:"
  | group _ => utf16 "Capturing group:"
  | namedGroup name _ => utf16 "Named group " ++ name.text.quoted ++ utf16 ":"
  | backreference name => utf16 "Backreference to group " ++ name.text.quoted

/-- The items listed under a pattern. -/
def details : Pattern → List Text
  | either first others => (first :: others).map Text.quoted
  | _ => []

mutual

/-- The outline of a pattern. -/
def outline : Pattern → Outline
  | sequence first others =>
    .node .sequence (sequence first others).expression (sequence first others).description []
      (outline first :: outlines others)
  | repeated body q =>
    .node q.kind (repeated body q).expression q.description [] [outline body]
  | group body =>
    .node .group (group body).expression (group body).description [] [outline body]
  | namedGroup name body =>
    .node .namedGroup (namedGroup name body).expression (namedGroup name body).description []
      [outline body]
  | multiRange first others =>
    .node .multiRange (multiRange first others).expression (multiRange first others).description []
      ((first :: others).map (fun r =>
        .node .charRange (charRange r).expression (charRange r).description [] []))
  | p => .node p.kind p.expression p.description p.details []

def outlines : List Pattern → List Outline
  | [] => []
  | p :: ps => outline p :: outlines ps

end

end Pattern

end PatternAlgebra
