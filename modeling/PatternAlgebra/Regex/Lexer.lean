import PatternAlgebra.Regex.ClassText
import PatternAlgebra.Regex.Counts
import PatternAlgebra.Regex.NameText

/-!
# Cutting expressions into tokens

Text is cut from left to right. Each token consumes at least one unit, so the cutting ends. A text
with a named group anywhere reads `\k` as a reference; a text without one reads it as a plain `k`.

What is read here is the part of the engine's grammar in which patterns are written: units, `.`,
`^`, `$`, `|`, classes, the brackets `(`, `(?:` and `(?<name>`, the quantifiers `?`, `*`, `+`, `{n}`,
`{n,}` and `{n,m}`, and behind a backslash the shorthands `d`, `w`, `s`, `D`, `W`, `S`, a reference
`k<name>`, or a unit that stands for itself. A brace that begins no quantifier and a stray `}` or `]`
are plain units.

The engine gives a meaning to more. No pattern is written with any of that, and it is not read here
as the engine reads it: boundaries, control and code escapes and references by number (`\b`, `\n`,
`\cA`, `\x41`, `\1`) are read as the unit behind the backslash, a bracket and a question mark with
another tail than the above (`(?=`, `(?<=`, flags) are refused, and so is the second question mark of
a lazy quantifier. What is proved of all texts speaks about the engine on texts of this grammar only.

Of the look-arounds just the two are read that lowering writes, negative ones around the class of all
units. They are recognised by their spelling, and an assertion on the start or the end of the input
stands for each. That such an assertion holds where the look-around does, with no unit behind or
ahead, is stated in `Anchor.holds_inputStart_iff` and `Anchor.holds_inputEnd_iff`.
-/

namespace PatternAlgebra

/-! ## Tokens -/

/-- What follows the bracket and the question mark of an assertion on the input's start: no unit
stands behind. -/
def startAssertionTail : Text := utf16 "<![\\s\\S])"

/-- What follows the bracket and the question mark of an assertion on the input's end: no unit
stands ahead. -/
def endAssertionTail : Text := utf16 "![\\s\\S])"

/-- Reads the rest of a group's opening behind the bracket and the question mark. Any other tail is
refused. -/
def groupOpening (t : Text) : Except SyntaxError (Token × Text) :=
  if startAssertionTail.isPrefixOf t then
    .ok (.assertion .inputStart, t.drop startAssertionTail.length)
  else if endAssertionTail.isPrefixOf t then
    .ok (.assertion .inputEnd, t.drop endAssertionTail.length)
  else
    match t with
    | colon :: rest => .ok (.opening .plain, rest)
    | lessThan :: rest =>
      match NameText.bracketedName? rest with
      | some (name, after) => .ok (.opening (.captured (some name)), after)
      | none => .error .badGroup
    | _ => .error .badGroup

/-- Reads the rest of an escape behind the backslash. Where it is neither a shorthand nor a
reference, a unit stands for itself. -/
def escapeToken (named : Bool) : Text → Except SyntaxError (Token × Text)
  | [] => .error .danglingBackslash
  | u :: rest =>
    if named && u == lowerK then
      match rest with
      | lessThan :: rest =>
        match NameText.bracketedName? rest with
        | some (name, after) => .ok (.reference name, after)
        | none => .error .badReference
      | _ => .error .badReference
    else
      match shorthand? u with
      | some (s, negated) => .ok (.one (.members false [.shorthand s negated]), rest)
      | none => .ok (.one (.only u), rest)

/-- Whether a class is negated, and its body. -/
def classHead : Text → Bool × Text
  | caret :: rest => (true, rest)
  | t => (false, t)

theorem length_classHead (t : Text) : (classHead t).2.length ≤ t.length := by
  unfold classHead
  split <;> simp

/-- Reads the rest of a class behind its opening bracket. -/
def classToken (named : Bool) (t : Text) : Except SyntaxError (Token × Text) :=
  match classAtoms named (classHead t).2 with
  | .error e => .error e
  | .ok (atoms, after) =>
    (ClassAtom.items atoms).map (fun items => (.one (.members (classHead t).1 items), after))

/-- Reads the rest of a counted quantifier behind its brace; without one the brace is plain. -/
def braceToken (t : Text) : Except SyntaxError (Token × Text) :=
  match counts? t with
  | some ((least, most), after) =>
    if countsInOrder least most then .ok (.quantifier least most, after)
    else .error .reversedCounts
  | none => .ok (.one (.only openBrace), t)

/-- Reads the token that begins with an opening round bracket, given the text behind it. -/
def openingToken (t : Text) : Except SyntaxError (Token × Text) :=
  match t with
  | questionMark :: rest => groupOpening rest
  | rest => .ok (.opening (.captured none), rest)

/-- The tokens of one unit. -/
def unitToken : CodeUnit → Token
  | closeParen => .closing
  | verticalBar => .bar
  | questionMark => .quantifier 0 (some 1)
  | asterisk => .quantifier 0 none
  | plus => .quantifier 1 none
  | fullStop => .one .anyOnLine
  | caret => .assertion .lineStart
  | dollar => .assertion .lineEnd
  | u => .one (.only u)

/-- Reads the token that begins with a unit, given the text behind it. -/
def tokenFrom (named : Bool) (u : CodeUnit) (rest : Text) : Except SyntaxError (Token × Text) :=
  if u = backslash then escapeToken named rest
  else if u = openParen then openingToken rest
  else if u = openBracket then classToken named rest
  else if u = openBrace then braceToken rest
  else .ok (unitToken u, rest)

theorem length_groupOpening {t after : Text} {token : Token}
    (h : groupOpening t = .ok (token, after)) : after.length ≤ t.length := by
  unfold groupOpening at h
  split at h
  · obtain ⟨_, rfl⟩ := Prod.mk.inj (Except.ok.inj h)
    simp
  · split at h
    · obtain ⟨_, rfl⟩ := Prod.mk.inj (Except.ok.inj h)
      simp
    · split at h
      · obtain ⟨_, rfl⟩ := Prod.mk.inj (Except.ok.inj h)
        simp
      · split at h
        next hn =>
          obtain ⟨_, rfl⟩ := Prod.mk.inj (Except.ok.inj h)
          have := NameText.length_bracketedName? hn
          simp only [List.length_cons]
          omega
        · contradiction
      · contradiction

theorem length_escapeToken {named : Bool} {t after : Text} {token : Token}
    (h : escapeToken named t = .ok (token, after)) : after.length ≤ t.length := by
  unfold escapeToken at h
  split at h
  · contradiction
  · split at h
    · split at h
      · split at h
        next hn =>
          obtain ⟨_, rfl⟩ := Prod.mk.inj (Except.ok.inj h)
          have := NameText.length_bracketedName? hn
          simp only [List.length_cons]
          omega
        · contradiction
      · contradiction
    · split at h <;>
      · obtain ⟨_, rfl⟩ := Prod.mk.inj (Except.ok.inj h)
        simp

theorem length_classToken {named : Bool} {t after : Text} {token : Token}
    (h : classToken named t = .ok (token, after)) : after.length ≤ t.length := by
  unfold classToken at h
  split at h
  · contradiction
  next atoms rest hatoms =>
    cases hitems : ClassAtom.items atoms with
    | error e =>
      rw [hitems] at h
      contradiction
    | ok items =>
      rw [hitems] at h
      obtain ⟨_, rfl⟩ := Prod.mk.inj (Except.ok.inj h)
      have := length_classAtoms hatoms
      have := length_classHead t
      omega

theorem length_tokenFrom {named : Bool} {u : CodeUnit} {rest after : Text} {token : Token}
    (h : tokenFrom named u rest = .ok (token, after)) : after.length ≤ rest.length := by
  unfold tokenFrom at h
  split at h
  · exact length_escapeToken h
  · split at h
    · unfold openingToken at h
      split at h
      · have := length_groupOpening h
        simp only [List.length_cons]
        omega
      · obtain ⟨_, rfl⟩ := Prod.mk.inj (Except.ok.inj h)
        exact Nat.le_refl _
    · split at h
      · exact length_classToken h
      · split at h
        · unfold braceToken at h
          split at h
          next hc =>
            split at h
            · obtain ⟨_, rfl⟩ := Prod.mk.inj (Except.ok.inj h)
              exact Nat.le_of_lt (length_counts? hc)
            · contradiction
          · obtain ⟨_, rfl⟩ := Prod.mk.inj (Except.ok.inj h)
            exact Nat.le_refl _
        · obtain ⟨_, rfl⟩ := Prod.mk.inj (Except.ok.inj h)
          exact Nat.le_refl _

/-- The tokens of a text. `named` says whether the text has named groups. -/
def tokens (named : Bool) : Text → Except SyntaxError (List Token)
  | [] => .ok []
  | u :: rest =>
    match h : tokenFrom named u rest with
    | .error e => .error e
    | .ok (token, after) =>
      have := length_tokenFrom h
      (tokens named after).map (token :: ·)
termination_by t => t.length
decreasing_by simp only [List.length_cons]; omega

@[simp] theorem tokens_nil (named : Bool) : tokens named [] = .ok [] := by
  rw [tokens]

theorem tokens_cons {named : Bool} {u : CodeUnit} {rest after : Text} {token : Token}
    (h : tokenFrom named u rest = .ok (token, after)) :
    tokens named (u :: rest) = (tokens named after).map (token :: ·) := by
  rw [tokens]
  split
  next h' => exact absurd (h.symm.trans h') (by simp)
  next h' =>
    obtain ⟨rfl, rfl⟩ := Prod.mk.inj (Except.ok.inj (h.symm.trans h'))
    rfl

theorem tokens_error {named : Bool} {u : CodeUnit} {rest : Text} {e : SyntaxError}
    (h : tokenFrom named u rest = .error e) : tokens named (u :: rest) = .error e := by
  rw [tokens]
  split
  next h' => exact congrArg _ (Except.error.inj (h'.symm.trans h))
  next h' => exact absurd (h.symm.trans h') (by simp)

/-- Whether a token opens a named group. -/
def Token.opensNamed : Token → Bool
  | .opening (.captured (some _)) => true
  | _ => false

/-- Cuts a text into tokens. Named groups are looked for first, as they decide how `\k` is read
anywhere in the text. -/
def tokenize (t : Text) : Except SyntaxError (List Token) :=
  match tokens false t with
  | .error e => .error e
  | .ok ts => if ts.any Token.opensNamed then tokens true t else .ok ts

end PatternAlgebra
