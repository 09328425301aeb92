import PatternAlgebra.Regex.Lexer

/-!
# Reading expressions

Tokens are read in one pass with a stack of open brackets. The names of groups are collected before
that, so a reference may stand before its group. A quantifier applies to the item before it, if
there is one that can be repeated.

All loops are greedy. The engine would make a loop lazy by a question mark behind its quantifier;
here that is a second quantifier with nothing to repeat, and the text is refused. Patterns have no
such loops.
-/

namespace PatternAlgebra

/-- What stands between two brackets so far: the finished branches and the items of the branch at
hand, the latest first, and whether the latest item can be repeated. -/
structure Level where
  branches : List Regex := []
  items : List Regex := []
  repeatable : Bool := false

namespace Level

/-- One more item. -/
def push (l : Level) (item : Regex) (repeatable : Bool) : Level :=
  { l with items := item :: l.items, repeatable := repeatable }

/-- The branch at hand. -/
def branch (l : Level) : Regex := Regex.sequenceOf l.items.reverse

/-- Ends the branch at hand and begins another. -/
def nextBranch (l : Level) : Level := { branches := l.branch :: l.branches }

/-- All branches as one expression. -/
def close (l : Level) : Regex :=
  l.branches.foldl (fun others first => .choice first others) l.branch

/-- Repeats the latest item. What is repeated cannot be repeated again without a group. -/
def quantify (l : Level) (least : Nat) (most : Option Nat) : Except SyntaxError Level :=
  match l.repeatable, l.items with
  | true, item :: items =>
    .ok { l with items := .loop item least most :: items, repeatable := false }
  | _, _ => .error .nothingToRepeat

end Level

/-- A reading in progress: the innermost level, the levels around it with the number that each
bracket captures under, and how many groups have been opened. -/
structure Reading where
  level : Level := {}
  outer : List (Option Nat × Level) := []
  opened : Nat := 0

namespace Reading

/-- Adds an item to the innermost level. -/
def push (r : Reading) (item : Regex) (repeatable : Bool := true) : Reading :=
  { r with level := r.level.push item repeatable }

/-- Opens a bracket. -/
def enter (r : Reading) : Grouping → Reading
  | .plain => { r with level := {}, outer := (none, r.level) :: r.outer }
  | .captured _ =>
    { level := {}, outer := (some (r.opened + 1), r.level) :: r.outer, opened := r.opened + 1 }

/-- Closes the innermost bracket. -/
def leave (r : Reading) : Except SyntaxError Reading :=
  match r.outer with
  | [] => .error .unmatchedClosing
  | (index, level) :: outer =>
    let body := r.level.close
    let item := match index with
      | some i => Regex.capture i body
      | none => body
    .ok { r with level := level.push item true, outer := outer }

/-- Reads one token. Of the assertions only a look-ahead, the one on the input's end, can be
repeated. -/
def step (resolve : Text → Option Nat) (r : Reading) : Token → Except SyntaxError Reading
  | .one units => .ok (r.push (.one units))
  | .assertion anchor => .ok (r.push (.assertion anchor) (anchor == .inputEnd))
  | .reference name =>
    match resolve name with
    | some index => .ok (r.push (.reference index))
    | none => .error (.unknownName name)
  | .opening grouping => .ok (r.enter grouping)
  | .closing => r.leave
  | .bar => .ok { r with level := r.level.nextBranch }
  | .quantifier least most => do
    let level ← r.level.quantify least most
    return { r with level := level }

/-- Reads tokens in order. -/
def run (resolve : Text → Option Nat) (r : Reading) : List Token → Except SyntaxError Reading
  | [] => .ok r
  | t :: ts =>
    match r.step resolve t with
    | .ok next => next.run resolve ts
    | .error e => .error e

/-- The expression, if all brackets are closed. -/
def finish (r : Reading) : Except SyntaxError Regex :=
  match r.outer with
  | [] => .ok r.level.close
  | _ :: _ => .error .unmatchedOpening

section Inversion

variable {resolve : Text → Option Nat} {r next : Reading}

theorem step_reference_eq_ok {name : Text} : r.step resolve (.reference name) = .ok next ↔
    ∃ index, resolve name = some index ∧ r.push (.reference index) = next := by
  rw [step]
  cases resolve name <;> simp

theorem step_quantifier_eq_ok {least : Nat} {most : Option Nat} :
    r.step resolve (.quantifier least most) = .ok next ↔
      ∃ level, r.level.quantify least most = .ok level ∧ { r with level := level } = next := by
  rw [step]
  cases r.level.quantify least most with
  | ok level =>
    show Except.ok { r with level := level } = Except.ok next ↔ _
    simp
  | error e =>
    show Except.error e = Except.ok next ↔ _
    simp

theorem step_quantifier_eq_error {least : Nat} {most : Option Nat} {e : SyntaxError} :
    r.step resolve (.quantifier least most) = .error e ↔
      r.level.quantify least most = .error e := by
  rw [step]
  cases r.level.quantify least most with
  | ok level =>
    show Except.ok { r with level := level } = Except.error e ↔ _
    simp
  | error e' =>
    show Except.error e' = Except.error e ↔ _
    simp

theorem run_cons_eq_ok {t : Token} {ts : List Token} : r.run resolve (t :: ts) = .ok next ↔
    ∃ mid, r.step resolve t = .ok mid ∧ mid.run resolve ts = .ok next := by
  rw [run]
  cases r.step resolve t <;> simp

end Inversion

theorem run_append (resolve : Text → Option Nat) (r : Reading) (s t : List Token) :
    r.run resolve (s ++ t) = (r.run resolve s).bind (·.run resolve t) := by
  induction s generalizing r with
  | nil => rfl
  | cons x s ih =>
    simp only [List.cons_append, run]
    cases r.step resolve x with
    | ok next => exact ih next
    | error e => rfl

end Reading

/-- The names of the groups that tokens open, with their numbers, when `n` groups stand before. -/
def numberedNames (n : Nat) : List Token → List (Text × Nat)
  | [] => []
  | .opening (.captured (some name)) :: ts => (name, n + 1) :: numberedNames (n + 1) ts
  | .opening (.captured none) :: ts => numberedNames (n + 1) ts
  | _ :: ts => numberedNames n ts

/-- The first name that appears twice. -/
def repeatedName? : List (Text × Nat) → Option Text
  | [] => none
  | (name, _) :: rest => if rest.any (·.1 == name) then some name else repeatedName? rest

/-- An expression with the names and the number of its groups. -/
structure Program where
  regex : Regex
  names : List (Text × Nat)
  groupCount : Nat
  deriving DecidableEq

namespace Program

/-- Reads tokens as an expression. -/
def ofTokens (ts : List Token) : Except SyntaxError Program :=
  let names := numberedNames 0 ts
  match repeatedName? names with
  | some name => .error (.duplicateName name)
  | none =>
    match Reading.run (names.lookup ·) {} ts with
    | .error e => .error e
    | .ok reading => reading.finish.map (fun regex => ⟨regex, names, reading.opened⟩)

/-- Reads an expression text. -/
def parse (t : Text) : Except SyntaxError Program := (tokenize t).bind ofTokens

end Program

end PatternAlgebra
