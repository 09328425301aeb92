import PatternAlgebra.Text.Basic

/-!
# Quoting of literal text

Outside a class the metacharacters, and inside a class the four units that end, negate, extend or
quote there, lose their meaning behind a backslash. All other units stand for themselves.
-/

namespace PatternAlgebra

/-- The units that have a meaning outside a class, and the hyphen. -/
def isMetacharacter (u : CodeUnit) : Bool :=
  u == backslash || u == fullStop || u == asterisk || u == plus || u == questionMark ||
    u == caret || u == dollar || u == openBrace || u == closeBrace || u == openParen ||
    u == closeParen || u == openBracket || u == closeBracket || u == verticalBar || u == hyphen

/-- A unit outside a class. -/
def escapeUnit (u : CodeUnit) : Text := if isMetacharacter u then [backslash, u] else [u]

/-- A text outside a class. -/
def escapeText (t : Text) : Text := t.flatMap escapeUnit

@[simp] theorem escapeText_nil : escapeText [] = [] := rfl

@[simp] theorem escapeText_cons (u : CodeUnit) (t : Text) :
    escapeText (u :: t) = escapeUnit u ++ escapeText t := List.flatMap_cons

/-- The units that have a meaning inside a class. -/
def classMetacharacters : Text := [backslash, caret, closeBracket, hyphen]

/-- A piece of class text. What occurs as a whole in the list of class metacharacters gets one
backslash in front; the empty text occurs there too. -/
def escapeInClass (t : Text) : Text :=
  if t.occursIn classMetacharacters then backslash :: t else t

/-- A text inside a class, unit by unit. -/
def escapeClassText (t : Text) : Text := t.flatMap (fun u => escapeInClass [u])

@[simp] theorem escapeClassText_nil : escapeClassText [] = [] := rfl

@[simp] theorem escapeClassText_cons (u : CodeUnit) (t : Text) :
    escapeClassText (u :: t) = escapeInClass [u] ++ escapeClassText t := List.flatMap_cons

theorem escapeInClass_singleton (u : CodeUnit) :
    escapeInClass [u] = if u ∈ classMetacharacters then [backslash, u] else [u] := by
  have h : Text.occursIn [u] classMetacharacters = true ↔ u ∈ classMetacharacters := by
    rw [Text.occursIn_iff]
    constructor
    · intro h
      exact h.subset (by simp)
    · intro h
      obtain ⟨s, t, hst⟩ := List.append_of_mem h
      exact ⟨s, t, by simp [hst]⟩
  simp [escapeInClass, h]

end PatternAlgebra
