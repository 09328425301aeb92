import PatternAlgebra.Regex.Token

/-!
# Texts of classes

A class ends at the first closing bracket that is not quoted. Its text is read as atoms, and a
hyphen between two atoms makes a range of them.

Behind a backslash the six shorthands have a meaning, and every other unit stands for itself. The
engine has more escapes here, such as `\b`, `\n` and `\x41`; no class is written with them, and they
are not read as the engine reads them.
-/

namespace PatternAlgebra

/-- What a class lists, before ranges are put together. -/
inductive ClassAtom where
  | single (u : CodeUnit)
  | dash
  | shorthand (s : Shorthand) (negated : Bool)
  deriving DecidableEq

/-- The shorthand that a unit stands for behind a backslash. -/
def shorthand? : CodeUnit → Option (Shorthand × Bool)
  | lowerD => some (.digit, false)
  | upperD => some (.digit, true)
  | lowerW => some (.word, false)
  | upperW => some (.word, true)
  | lowerS => some (.blank, false)
  | upperS => some (.blank, true)
  | _ => none

/-- An escape inside a class. A unit that is no shorthand stands for itself. -/
def ClassAtom.ofEscape (u : CodeUnit) : ClassAtom :=
  match shorthand? u with
  | some (s, negated) => shorthand s negated
  | none => single u

/-- A unit inside a class that no backslash precedes. -/
def ClassAtom.ofUnit (u : CodeUnit) : ClassAtom := if u = hyphen then dash else single u

/-- Puts an atom in front of the atoms that were read. -/
def consAtom (a : ClassAtom) (r : List ClassAtom × Text) : List ClassAtom × Text :=
  (a :: r.1, r.2)

/-- Reads the rest of a class up to its closing bracket. `named` says whether the expression has
named groups; then `k` cannot be quoted here. -/
def classAtoms (named : Bool) : Text → Except SyntaxError (List ClassAtom × Text)
  | [] => .error .unclosedClass
  | u :: rest =>
    if u = closeBracket then .ok ([], rest)
    else if u = backslash then
      match rest with
      | [] => .error .danglingBackslash
      | v :: after =>
        if named = true ∧ v = lowerK then .error .badReference
        else (classAtoms named after).map (consAtom (.ofEscape v))
    else (classAtoms named rest).map (consAtom (.ofUnit u))

@[simp] theorem classAtoms_close (named : Bool) (rest : Text) :
    classAtoms named (closeBracket :: rest) = .ok ([], rest) := by
  rw [classAtoms.eq_def]
  simp

@[simp] theorem classAtoms_unit {named : Bool} {u : CodeUnit} (hc : u ≠ closeBracket)
    (hb : u ≠ backslash) (rest : Text) :
    classAtoms named (u :: rest) = (classAtoms named rest).map (consAtom (.ofUnit u)) := by
  rw [classAtoms.eq_def]
  simp [hc, hb]

@[simp] theorem classAtoms_escape {named : Bool} {u : CodeUnit} (h : ¬(named = true ∧ u = lowerK))
    (rest : Text) :
    classAtoms named (backslash :: u :: rest) =
      (classAtoms named rest).map (consAtom (.ofEscape u)) := by
  rw [classAtoms.eq_def]
  simp only [if_neg (show backslash ≠ closeBracket by decide), if_neg h, ↓reduceIte]

theorem rest_of_map_consAtom {x : Except SyntaxError (List ClassAtom × Text)} {a : ClassAtom}
    {atoms : List ClassAtom} {after : Text} (h : x.map (consAtom a) = .ok (atoms, after)) :
    ∃ others, x = .ok (others, after) := by
  cases x with
  | error e => contradiction
  | ok r =>
    obtain ⟨_, rfl⟩ := Prod.mk.inj (Except.ok.inj h)
    exact ⟨r.1, rfl⟩

theorem length_classAtoms {named : Bool} {t after : Text} {atoms : List ClassAtom}
    (h : classAtoms named t = .ok (atoms, after)) : after.length < t.length := by
  fun_induction classAtoms named t generalizing atoms with
  | case1 => contradiction
  | case2 rest =>
    obtain ⟨_, rfl⟩ := Prod.mk.inj (Except.ok.inj h)
    simp
  | case3 | case4 => contradiction
  | case5 _ _ _ _ ih | case6 _ _ _ _ ih =>
    obtain ⟨_, hr⟩ := rest_of_map_consAtom h
    have := ih hr
    simp only [List.length_cons]
    omega

namespace ClassAtom

/-- The unit of an atom that can bound a range. -/
def unit? : ClassAtom → Option CodeUnit
  | single u => some u
  | dash => some hyphen
  | shorthand _ _ => none

/-- An atom that stands for itself. -/
def item : ClassAtom → ClassItem
  | single u => .range u u
  | dash => .range hyphen hyphen
  | shorthand s negated => .shorthand s negated

/-- Puts ranges together: an atom, a hyphen and an atom make one, unless one of the two atoms is a
shorthand; then all three stand for themselves. -/
def items : List ClassAtom → Except SyntaxError (List ClassItem)
  | [] => .ok []
  | a :: dash :: b :: rest =>
    match a.unit?, b.unit? with
    | some first, some last =>
      if first ≤ last then (items rest).map (.range first last :: ·) else .error .reversedClassRange
    | _, _ => (items rest).map (a.item :: dash.item :: b.item :: ·)
  | a :: rest => (items rest).map (a.item :: ·)

end ClassAtom

end PatternAlgebra
