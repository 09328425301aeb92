import PatternAlgebra.Text.Basic

/-!
# Kinds of patterns

Every pattern is of one of twenty-four kinds. A kind has a key, by which programs tell patterns
apart, and a display name, which explanations show. The table of these names and the version are
what the library tells about itself.
-/

namespace PatternAlgebra

/-- The version that the library reports. -/
def version : String := "0.0.0"

inductive Kind where
  | anyChar
  | atLeast
  | charClass
  | charRange
  | digit
  | either
  | endOfLine
  | endOfString
  | exactly
  | group
  | literal
  | multiRange
  | namedBackreference
  | namedGroup
  | notCharClass
  | oneOrMore
  | optional
  | range
  | sequence
  | startOfLine
  | startOfString
  | whitespace
  | wordChar
  | zeroOrMore
  deriving DecidableEq

namespace Kind

/-- All kinds, in the order of their keys. -/
def all : List Kind :=
  [anyChar, atLeast, charClass, charRange, digit, either, endOfLine, endOfString, exactly, group,
    literal, multiRange, namedBackreference, namedGroup, notCharClass, oneOrMore, optional, range,
    sequence, startOfLine, startOfString, whitespace, wordChar, zeroOrMore]

def key : Kind → String
  | anyChar => "anyChar"
  | atLeast => "atLeast"
  | charClass => "charClass"
  | charRange => "charRange"
  | digit => "digit"
  | either => "either"
  | endOfLine => "endOfLine"
  | endOfString => "endOfString"
  | exactly => "exactly"
  | group => "group"
  | literal => "literal"
  | multiRange => "multiRange"
  | namedBackreference => "namedBackreference"
  | namedGroup => "namedGroup"
  | notCharClass => "notCharClass"
  | oneOrMore => "oneOrMore"
  | optional => "optional"
  | range => "range"
  | sequence => "sequence"
  | startOfLine => "startOfLine"
  | startOfString => "startOfString"
  | whitespace => "whitespace"
  | wordChar => "wordChar"
  | zeroOrMore => "zeroOrMore"

def typeName : Kind → String
  | anyChar => "AnyChar"
  | atLeast => "AtLeast"
  | charClass => "CharClass"
  | charRange => "CharRange"
  | digit => "Digit"
  | either => "Either"
  | endOfLine => "EndOfLine"
  | endOfString => "EndOfString"
  | exactly => "Exactly"
  | group => "Group"
  | literal => "Literal"
  | multiRange => "MultiRange"
  | namedBackreference => "NamedBackreference"
  | namedGroup => "NamedGroup"
  | notCharClass => "NotCharClass"
  | oneOrMore => "OneOrMore"
  | optional => "Optional"
  | range => "Range"
  | sequence => "Sequence"
  | startOfLine => "StartOfLine"
  | startOfString => "StartOfString"
  | whitespace => "Whitespace"
  | wordChar => "WordChar"
  | zeroOrMore => "ZeroOrMore"

/-- The kind with a key. -/
def ofKey? (s : String) : Option Kind := all.find? (·.key == s)

theorem ofKey?_key (k : Kind) : ofKey? k.key = some k := by
  cases k <;> decide

/-- Each key with its display name, in the order of the keys. -/
def typeNames : List (String × String) := all.map (fun k => (k.key, k.typeName))

end Kind

end PatternAlgebra
