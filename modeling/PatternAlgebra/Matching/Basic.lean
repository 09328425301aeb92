import PatternAlgebra.Matching.Compile
import PatternAlgebra.Matching.Record
import PatternAlgebra.Pattern.Expression
import PatternAlgebra.Regex.Display
import PatternAlgebra.Regex.Matcher

/-!
# Matching

Questions about an expression text and an input. An input that is absent matches nothing, and is
not even compiled for. Patterns ask the same questions through their expression.
-/

namespace PatternAlgebra

/-- The first match of a program. -/
def Program.firstMatch (p : Program) (input : Text) (options : MatchOptions) :
    Option (Span × Captures) :=
  p.regex.search (.ofText input options)

namespace Source

/-- Whether some part of the input matches. -/
def occursIn (source : Text) (input : Option Text) (options : MatchOptions) :
    Except CompileError Bool :=
  match input with
  | none => .ok false
  | some input => (compile .anywhere source).map (fun p => (p.firstMatch input options).isSome)

/-- Whether the whole input matches. -/
def spans (source : Text) (input : Option Text) (options : MatchOptions) :
    Except CompileError Bool :=
  match input with
  | none => .ok false
  | some input => (compile .wholeInput source).map (fun p => (p.firstMatch input options).isSome)

/-- What the groups of a match captured, by name and by number, and the match itself under `0` and
`match`. Only names that the text is seen to declare are listed, and only groups that took part. The
match comes last, so a group of the name `match` gives way to it. -/
def recordOf (source : Text) (p : Program) (subject : Subject) (span : Span)
    (captures : Captures) : Record :=
  let captured := fun (index : Nat) => (captures index).map subject.slice
  let named := (NameScan.declaredNames source).filterMap (fun name =>
    ((p.names.lookup name).bind captured).map (fun value => (name, value)))
  let numbered := (List.range p.groupCount).filterMap (fun i =>
    (captured (i + 1)).map (fun value => (decimalText (i + 1), value)))
  let whole := subject.slice span
  Record.empty.putAll (named ++ numbered ++ [(decimalText 0, whole), (utf16 "match", whole)])

/-- The record of the first match, if there is one. -/
def extract (source : Text) (input : Option Text) (options : MatchOptions) :
    Except CompileError (Option Record) :=
  match input with
  | none => .ok none
  | some input =>
    (compile .anywhere source).map (fun p =>
      (p.firstMatch input options).map (fun (span, captures) =>
        recordOf source p (.ofText input options) span captures))

/-- A compiled expression on display. -/
structure Displayed where
  source : Text
  flags : String
  deriving DecidableEq

/-- The letters of the options that are set. -/
def flags (options : MatchOptions) : String :=
  (if options.ignoreCase then "i" else "") ++ (if options.multiline then "m" else "")

/-- What a compiled expression shows: its lowered text and its flags. -/
def displayed (source : Text) (options : MatchOptions) : Except CompileError Displayed :=
  (compile .anywhere source).map (fun _ =>
    ⟨Display.display (engineText .anywhere source), flags options⟩)

end Source

namespace Pattern

def occursIn (p : Pattern) (input : Option Text) (options : MatchOptions) :
    Except CompileError Bool := Source.occursIn p.expression input options

def spans (p : Pattern) (input : Option Text) (options : MatchOptions) :
    Except CompileError Bool := Source.spans p.expression input options

def extract (p : Pattern) (input : Option Text) (options : MatchOptions) :
    Except CompileError (Option Record) := Source.extract p.expression input options

end Pattern

end PatternAlgebra
