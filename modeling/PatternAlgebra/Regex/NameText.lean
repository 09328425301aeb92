import PatternAlgebra.Pattern.Parameter
import PatternAlgebra.Text.Identifier

/-!
# Names as they are written

A name is an identifier with a `>` behind it. It is read by characters: two paired surrogates are
one character and an unpaired one is none. A character may be written as an escape: `\u` and four
hexadecimal digits, a pair by two of these, or `\u` and a number in braces. The name is what its
escapes stand for, so two spellings can be the same name. The names that a pattern's own groups
have are read as they stand.
-/

namespace PatternAlgebra.NameText

/-! ## Escapes -/

/-- The value of a hexadecimal digit. -/
def hexDigit? (u : CodeUnit) : Option Nat :=
  if Text.isDigit u then some (u.toNat - 0x30)
  else if 0x41 ≤ u && u ≤ 0x46 then some (u.toNat - 0x37)
  else if 0x61 ≤ u && u ≤ 0x66 then some (u.toNat - 0x57)
  else none

/-- The number that one hexadecimal digit or more write. -/
def hexNumber? : Text → Option Nat
  | [] => none
  | digits => digits.foldlM (fun n u => (hexDigit? u).map (16 * n + ·)) 0

/-- The character of a code point; surrogates have none. -/
def charAt? (n : Nat) : Option Char := if n.isValidChar then some (Char.ofNat n) else none

/-- Reads the rest of an escape behind its opening brace. -/
def bracedChar? (t : Text) : Option (Char × Text) :=
  match t.dropWhile (· != closeBrace) with
  | [] => none
  | _ :: rest =>
    ((hexNumber? (t.takeWhile (· != closeBrace))).bind charAt?).map (fun c => (c, rest))

/-- Reads an escape of four digits. -/
def escapedUnit? : Text → Option (CodeUnit × Text)
  | backslash :: lowerU :: a :: b :: c :: d :: rest =>
    (hexNumber? [a, b, c, d]).map (fun n => (n.toUInt16, rest))
  | _ => none

/-! ## Characters -/

/-- Reads a unit that stands for itself. -/
def plainUnit? : Text → Option (CodeUnit × Text)
  | [] => none
  | u :: rest => some (u, rest)

/-- Reads a character, its units read by `next?`: one unit, or two paired surrogates. -/
def charFrom? (next? : Text → Option (CodeUnit × Text)) (t : Text) : Option (Char × Text) :=
  match next? t with
  | none => none
  | some (u, rest) =>
    if Text.isHighSurrogate u then
      match next? rest with
      | none => none
      | some (low, after) =>
        if Text.isLowSurrogate low then some (Text.pairedChar u low, after) else none
    else if Text.isLowSurrogate u then none
    else some (Char.ofNat u.toNat, rest)

/-- Reads a character of a name, escaped or not. -/
def nameChar? (t : Text) : Option (Char × Text) :=
  match t with
  | backslash :: lowerU :: openBrace :: rest => bracedChar? rest
  | backslash :: _ => charFrom? escapedUnit? t
  | _ => charFrom? plainUnit? t

theorem length_bracedChar? {t rest : Text} {c : Char} (h : bracedChar? t = some (c, rest)) :
    rest.length < t.length := by
  unfold bracedChar? at h
  split at h
  · contradiction
  next r hr =>
    obtain ⟨_, _, he⟩ := Option.map_eq_some_iff.1 h
    obtain ⟨_, rfl⟩ := Prod.mk.inj he
    have := (List.dropWhile_sublist (l := t) (· != closeBrace)).length_le
    rw [hr, List.length_cons] at this
    omega

theorem length_escapedUnit? {t rest : Text} {u : CodeUnit}
    (h : escapedUnit? t = some (u, rest)) : rest.length < t.length := by
  unfold escapedUnit? at h
  split at h
  · obtain ⟨_, _, he⟩ := Option.map_eq_some_iff.1 h
    obtain ⟨_, rfl⟩ := Prod.mk.inj he
    simp only [List.length_cons]
    omega
  · contradiction

theorem length_plainUnit? {t rest : Text} {u : CodeUnit} (h : plainUnit? t = some (u, rest)) :
    rest.length < t.length := by
  unfold plainUnit? at h
  split at h
  · contradiction
  · obtain ⟨_, rfl⟩ := Prod.mk.inj (Option.some.inj h)
    simp

theorem length_charFrom? {next? : Text → Option (CodeUnit × Text)}
    (hnext : ∀ {t rest : Text} {u : CodeUnit}, next? t = some (u, rest) → rest.length < t.length)
    {t rest : Text} {c : Char} (h : charFrom? next? t = some (c, rest)) :
    rest.length < t.length := by
  unfold charFrom? at h
  split at h
  · contradiction
  next r hr =>
    have hlt := hnext hr
    split at h
    · split at h
      · contradiction
      next hlow =>
        split at h
        · obtain ⟨_, rfl⟩ := Prod.mk.inj (Option.some.inj h)
          exact Nat.lt_trans (hnext hlow) hlt
        · contradiction
    · split at h
      · contradiction
      · obtain ⟨_, rfl⟩ := Prod.mk.inj (Option.some.inj h)
        exact hlt

theorem length_nameChar? {t rest : Text} {c : Char} (h : nameChar? t = some (c, rest)) :
    rest.length < t.length := by
  unfold nameChar? at h
  split at h
  · have := length_bracedChar? h
    simp only [List.length_cons]
    omega
  · exact length_charFrom? length_escapedUnit? h
  · exact length_charFrom? length_plainUnit? h

/-! ## Names -/

/-- Reads what a name holds behind its first character, and the `>` behind it. -/
def nameTail? (t : Text) : Option (Text × Text) :=
  match h : nameChar? t with
  | none => none
  | some (c, rest) =>
    have := length_nameChar? h
    if c = '>' then some ([], rest)
    else if Identifier.canContinue c then
      (nameTail? rest).map (fun r => (unitsOfChar c ++ r.1, r.2))
    else none
termination_by t.length

/-- Reads a name and the `>` behind it. -/
def bracketedName? (t : Text) : Option (Text × Text) :=
  match nameChar? t with
  | none => none
  | some (c, rest) =>
    if Identifier.canBegin c then (nameTail? rest).map (fun r => (unitsOfChar c ++ r.1, r.2))
    else none

theorem nameTail?_close {t rest : Text} (h : nameChar? t = some ('>', rest)) :
    nameTail? t = some ([], rest) := by
  rw [nameTail?]
  split
  next h' => exact absurd (h.symm.trans h') (by simp)
  next h' =>
    obtain ⟨rfl, rfl⟩ := Prod.mk.inj (Option.some.inj (h.symm.trans h'))
    rfl

theorem nameTail?_char {t rest : Text} {c : Char} (h : nameChar? t = some (c, rest))
    (hclose : c ≠ '>') (hc : Identifier.canContinue c = true) :
    nameTail? t = (nameTail? rest).map (fun r => (unitsOfChar c ++ r.1, r.2)) := by
  rw [nameTail?]
  split
  next h' => exact absurd (h.symm.trans h') (by simp)
  next h' =>
    obtain ⟨rfl, rfl⟩ := Prod.mk.inj (Option.some.inj (h.symm.trans h'))
    rw [if_neg hclose, if_pos hc]

theorem length_nameTail? {t name rest : Text} (h : nameTail? t = some (name, rest)) :
    rest.length < t.length := by
  induction t using nameTail?.induct generalizing name with
  | case1 t hn =>
    rw [nameTail?] at h
    split at h
    · contradiction
    next h' => exact absurd (hn.symm.trans h') (by simp)
  | case2 t r hc _ =>
    rw [nameTail?_close hc] at h
    obtain ⟨_, rfl⟩ := Prod.mk.inj (Option.some.inj h)
    exact length_nameChar? hc
  | case3 t c r hc hlt hclose hcont ih =>
    rw [nameTail?_char hc hclose hcont] at h
    obtain ⟨p, hp, he⟩ := Option.map_eq_some_iff.1 h
    obtain ⟨_, rfl⟩ := Prod.mk.inj he
    exact Nat.lt_trans (ih hp) hlt
  | case4 t c r hc hlt hclose hcont =>
    rw [nameTail?] at h
    split at h
    · contradiction
    next h' =>
      obtain ⟨rfl, rfl⟩ := Prod.mk.inj (Option.some.inj (hc.symm.trans h'))
      rw [if_neg hclose, if_neg hcont] at h
      contradiction

theorem length_bracketedName? {t name rest : Text} (h : bracketedName? t = some (name, rest)) :
    rest.length < t.length := by
  unfold bracketedName? at h
  split at h
  · contradiction
  next hc =>
    split at h
    · obtain ⟨p, hp, he⟩ := Option.map_eq_some_iff.1 h
      obtain ⟨_, rfl⟩ := Prod.mk.inj he
      exact Nat.lt_trans (length_nameTail? hp) (length_nameChar? hc)
    · contradiction

/-! ## Names of a pattern's groups -/

/-- A unit that stands for its own character in a name and does not end the name. -/
structure StandsAlone (u : CodeUnit) : Prop where
  char (rest : Text) : nameChar? (u :: rest) = some (Char.ofNat u.toNat, rest)
  units : unitsOfChar (Char.ofNat u.toNat) = [u]
  ne_close : Char.ofNat u.toNat ≠ '>'
  canContinue : Identifier.canContinue (Char.ofNat u.toNat) = true

theorem nameChar?_unit {u : CodeUnit} (hb : u ≠ backslash) (hh : Text.isHighSurrogate u = false)
    (hl : Text.isLowSurrogate u = false) (rest : Text) :
    nameChar? (u :: rest) = some (Char.ofNat u.toNat, rest) := by
  unfold nameChar?
  split
  next h => exact absurd (List.cons.inj h).1 hb
  next h => exact absurd (List.cons.inj h).1 hb
  · simp [charFrom?, plainUnit?, hh, hl]

theorem toNat_lt_of_isWord {u : CodeUnit} (h : (Text.isLetter u || Text.isDigit u) = true) :
    u.toNat < 0x80 := by
  simp only [Text.isLetter, Text.isDigit, Bool.or_eq_true, Bool.and_eq_true, decide_eq_true_eq,
    UInt16.le_iff_toNat_le] at h
  simp at h
  omega

theorem standsAlone_of_isWord {u : CodeUnit} (h : (Text.isLetter u || Text.isDigit u) = true) :
    StandsAlone u := by
  have facts : ∀ n < 0x80, (Text.isLetter n.toUInt16 || Text.isDigit n.toUInt16) = true →
      n.toUInt16 ≠ backslash ∧ Text.isHighSurrogate n.toUInt16 = false ∧
        Text.isLowSurrogate n.toUInt16 = false ∧ unitsOfChar (Char.ofNat n) = [n.toUInt16] ∧
        Char.ofNat n ≠ '>' ∧ Identifier.canContinue (Char.ofNat n) = true := by decide
  have hu : u.toNat.toUInt16 = u := by simp
  have hfacts := facts u.toNat (toNat_lt_of_isWord h)
  rw [hu] at hfacts
  obtain ⟨hb, hh, hl, hunits, hclose, hcont⟩ := hfacts h
  exact ⟨nameChar?_unit hb hh hl, hunits, hclose, hcont⟩

theorem nameTail?_append {name : Text} (h : ∀ u ∈ name, StandsAlone u) (rest : Text) :
    nameTail? (name ++ greaterThan :: rest) = some (name, rest) := by
  induction name with
  | nil => exact nameTail?_close (nameChar?_unit (by decide) (by decide) (by decide) rest)
  | cons u name ih =>
    have hu := h u List.mem_cons_self
    rw [List.cons_append, nameTail?_char (hu.char _) hu.ne_close hu.canContinue,
      ih (fun v hv => h v (List.mem_cons_of_mem u hv)), hu.units]
    rfl

/-- A name that a group of a pattern can have is read as it stands. -/
theorem bracketedName?_append {name : Text} (h : isGroupName name = true) (rest : Text) :
    bracketedName? (name ++ greaterThan :: rest) = some (name, rest) := by
  cases name with
  | nil => contradiction
  | cons u name =>
    simp only [isGroupName, Bool.and_eq_true, List.all_eq_true] at h
    have hword : (Text.isLetter u || Text.isDigit u) = true := by rw [h.1, Bool.true_or]
    have hu := standsAlone_of_isWord hword
    have hbegin : ∀ n < 0x80, Text.isLetter n.toUInt16 = true →
        Identifier.canBegin (Char.ofNat n) = true := by decide
    have hfirst : Identifier.canBegin (Char.ofNat u.toNat) = true :=
      hbegin u.toNat (toNat_lt_of_isWord hword) (by simpa using h.1)
    unfold bracketedName?
    rw [List.cons_append, hu.char]
    simp only [hfirst, if_true]
    rw [nameTail?_append (fun v hv => standsAlone_of_isWord (h.2 v hv)), hu.units]
    rfl

end PatternAlgebra.NameText
