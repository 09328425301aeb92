import PatternAlgebra.Text.Digits

/-!
# Counts in braces

A counted quantifier is a number, a number with a comma, or two numbers with a comma between them,
in braces. Anything else behind an opening brace is no quantifier.
-/

namespace PatternAlgebra

/-- Reads what follows the opening brace of a counted quantifier. -/
def counts? (t : Text) : Option ((Nat × Option Nat) × Text) :=
  match number? t with
  | none => none
  | some (least, closeBrace :: rest) => some ((least, some least), rest)
  | some (least, comma :: closeBrace :: rest) => some ((least, none), rest)
  | some (least, comma :: rest) =>
    match number? rest with
    | some (most, closeBrace :: rest) => some ((least, some most), rest)
    | _ => none
  | _ => none

theorem length_counts? {t rest : Text} {q : Nat × Option Nat} (h : counts? t = some (q, rest)) :
    rest.length < t.length := by
  unfold counts? at h
  split at h
  · contradiction
  next h1 =>
    have := length_number? h1
    simp only [Option.some.injEq, Prod.mk.injEq] at h
    obtain ⟨_, rfl⟩ := h
    simp only [List.length_cons] at this
    omega
  next h1 =>
    have := length_number? h1
    simp only [Option.some.injEq, Prod.mk.injEq] at h
    obtain ⟨_, rfl⟩ := h
    simp only [List.length_cons] at this
    omega
  next h1 =>
    have := length_number? h1
    split at h
    next h2 =>
      have := length_number? h2
      simp only [Option.some.injEq, Prod.mk.injEq] at h
      obtain ⟨_, rfl⟩ := h
      simp only [List.length_cons] at *
      omega
    · contradiction
  · contradiction

/-- Counts from here on are all taken for infinite when their order is checked. -/
def infiniteCount : Nat := 0x7FFFFFFF

/-- Whether a quantifier's counts are in order. -/
def countsInOrder (least : Nat) : Option Nat → Bool
  | none => true
  | some most => least ≤ most || infiniteCount ≤ most

end PatternAlgebra
