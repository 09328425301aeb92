import PatternAlgebra.Pattern.Basic
import PatternAlgebra.Pattern.Escape
import PatternAlgebra.Pattern.Grouping

/-!
# Patterns as expressions

Every pattern is written as expression text by recursion on its parts. Input anchors are written
`\A` and `\z`; they are lowered only when the text is compiled. A sequence is written without a
group around it.
-/

namespace PatternAlgebra

/-- The escape of a class. -/
def Shorthand.expression : Shorthand → Text
  | .digit => [backslash, lowerD]
  | .word => [backslash, lowerW]
  | .blank => [backslash, lowerS]

def Anchor.expression : Anchor → Text
  | .lineStart => [caret]
  | .lineEnd => [dollar]
  | .inputStart => [backslash, upperA]
  | .inputEnd => [backslash, lowerZ]

namespace CharRange

/-- A range as a part of a class. -/
def classBody (r : CharRange) : Text := escapeInClass [r.first] ++ hyphen :: escapeInClass [r.last]

/-- A range as a class of its own. -/
def expression (r : CharRange) : Text := openBracket :: (r.classBody ++ [closeBracket])

end CharRange

/-- Text in braces. -/
def braced (t : Text) : Text := openBrace :: (t ++ [closeBrace])

/-- An expression's text with a quantifier behind it. The three plain quantifiers always get a
group, the counted ones only where it is needed. -/
def Quantifier.apply (t : Text) : Quantifier → Text
  | .optional => grouped t ++ [questionMark]
  | .oneOrMore => grouped t ++ [plus]
  | .zeroOrMore => grouped t ++ [asterisk]
  | .exactly count => quantify t (braced count.text)
  | .between bounds => quantify t (braced (bounds.least.text ++ comma :: bounds.most.text))
  | .atLeast count => quantify t (braced (count.text ++ [comma]))

/-- A choice between texts; a single one needs no group. -/
def choiceText (first : Text) : List Text → Text
  | [] => escapeText first
  | others => grouped ([verticalBar].intercalate ((first :: others).map escapeText))

/-- The opening of a named group. -/
def GroupName.opening (name : GroupName) : Text :=
  openParen :: questionMark :: lessThan :: (name.text ++ [greaterThan])

/-- A backreference by name. -/
def ReferenceName.expression (name : ReferenceName) : Text :=
  backslash :: lowerK :: lessThan :: (name.text ++ [greaterThan])

namespace Pattern

mutual

/-- The text of a pattern. -/
@[simp] def expression : Pattern → Text
  | literal t => escapeText t
  | either first others => choiceText first others
  | sequence first others => expression first ++ expressions others
  | repeated body quantifier => quantifier.apply (expression body)
  | anyUnit => [fullStop]
  | shorthand s => s.expression
  | anchor a => a.expression
  | charClass true members => openBracket :: caret :: (escapeClassText members ++ [closeBracket])
  | charClass false members => openBracket :: (escapeClassText members ++ [closeBracket])
  | charRange r => r.expression
  | multiRange first [] => first.expression
  | multiRange first others =>
    openBracket :: ((first :: others).flatMap CharRange.classBody ++ [closeBracket])
  | group body => openParen :: (expression body ++ [closeParen])
  | namedGroup name body => name.opening ++ expression body ++ [closeParen]
  | backreference name => name.expression

/-- The texts of patterns, one after another. -/
def expressions : List Pattern → Text
  | [] => []
  | p :: ps => expression p ++ expressions ps

end

@[simp] theorem expressions_eq_flatMap (ps : List Pattern) :
    expressions ps = ps.flatMap expression := by
  induction ps with
  | nil => rfl
  | cons p ps ih => simp [expressions, ih]

end Pattern

end PatternAlgebra
