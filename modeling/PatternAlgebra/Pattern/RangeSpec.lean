import PatternAlgebra.Pattern.Basic

/-!
# Range specifications

A specification such as `'a'-'z', "0"-"9"` lists character ranges: two quoted units with a hyphen
between them, blanks allowed around the hyphen. Quotation marks of both sorts open and close, alike
or not. Text between ranges is skipped; a range is looked for after the end of the last one found.
-/

namespace PatternAlgebra.RangeSpec

/-- A single or a double quotation mark. -/
def isQuote (u : CodeUnit) : Bool := u == 0x27 || u == 0x22

/-- Reads a quoted unit, which is no line terminator. -/
def quotedUnit? : Text → Option (CodeUnit × Text)
  | opening :: u :: closing :: rest =>
    if isQuote opening && !Text.isLineTerminator u && isQuote closing then some (u, rest) else none
  | _ => none

/-- Reads a hyphen between blanks. -/
def afterHyphen? (t : Text) : Option Text :=
  match t.dropWhile Text.isBlank with
  | hyphen :: rest => some (rest.dropWhile Text.isBlank)
  | _ => none

/-- Reads the bounds of a range at the beginning of a text. -/
def bounds? (t : Text) : Option ((CodeUnit × CodeUnit) × Text) := do
  let (first, rest) ← quotedUnit? t
  let (last, rest) ← quotedUnit? (← afterHyphen? rest)
  return ((first, last), rest)

theorem length_of_quotedUnit? {t rest : Text} {u : CodeUnit} (h : quotedUnit? t = some (u, rest)) :
    rest.length < t.length := by
  unfold quotedUnit? at h
  split at h
  · split at h
    · simp only [Option.some.injEq, Prod.mk.injEq] at h
      obtain ⟨_, rfl⟩ := h
      simp only [List.length_cons]
      omega
    · contradiction
  · contradiction

theorem length_of_afterHyphen? {t rest : Text} (h : afterHyphen? t = some rest) :
    rest.length < t.length := by
  unfold afterHyphen? at h
  split at h
  next r hr =>
    obtain rfl := Option.some.inj h
    have h1 := (List.dropWhile_sublist (l := t) Text.isBlank).length_le
    have h2 := (List.dropWhile_sublist (l := r) Text.isBlank).length_le
    rw [hr, List.length_cons] at h1
    omega
  · contradiction

theorem length_of_bounds? {t rest : Text} {pair : CodeUnit × CodeUnit}
    (h : bounds? t = some (pair, rest)) : rest.length < t.length := by
  simp only [bounds?, Option.bind_eq_bind, Option.pure_def, Option.bind_eq_some_iff, Prod.exists,
    Option.some.injEq, Prod.mk.injEq] at h
  obtain ⟨_, r1, h1, r2, h2, _, r3, h3, _, rfl⟩ := h
  have := length_of_quotedUnit? h1
  have := length_of_afterHyphen? h2
  have := length_of_quotedUnit? h3
  omega

/-- The bounds of all ranges in a specification, in order. -/
def allBounds (t : Text) : List (CodeUnit × CodeUnit) :=
  match h : bounds? t with
  | some (pair, rest) =>
    have := length_of_bounds? h
    pair :: allBounds rest
  | none =>
    match t with
    | [] => []
    | _ :: rest => allBounds rest
termination_by t.length

/-- The ranges that a specification lists. -/
def ranges (spec : Text) : Except Fault (List CharRange) :=
  (allBounds spec).mapM (fun (first, last) => CharRange.between first last)

end PatternAlgebra.RangeSpec

namespace PatternAlgebra

/-- Any unit of some ranges that were listed by a specification. -/
def Pattern.ofListedRanges (spec : Text) : List CharRange → Except Fault Pattern
  | [] => .error (.noRangeInSpec spec)
  | first :: others => .ok (.multiRange first others)

/-- Any unit of the ranges that a specification lists. -/
def Pattern.ofRangeSpec (spec : Text) : Except Fault Pattern :=
  if spec = [] then .error .emptyRangeSpec
  else (RangeSpec.ranges spec).bind (ofListedRanges spec)

end PatternAlgebra
