/-!
# Texts of sixteen-bit units

A text is a list of UTF-16 code units, unpaired surrogates included: length, position, order and
class membership are all those of units, never of characters. The names of the units that
expression syntax gives a meaning to stand here, so that readers and writers share one spelling.
-/

namespace PatternAlgebra

/-- One UTF-16 code unit. -/
abbrev CodeUnit := UInt16

/-- A sequence of code units; it need not be well-formed UTF-16. -/
abbrev Text := List CodeUnit

/-- The unit of a character of the basic plane, or its two surrogates. -/
def unitsOfChar (c : Char) : Text :=
  if c.toNat < 0x10000 then [c.toNat.toUInt16]
  else
    let offset := c.toNat - 0x10000
    [(0xD800 + offset / 0x400).toUInt16, (0xDC00 + offset % 0x400).toUInt16]

/-- The units of a string of characters. -/
def utf16 (s : String) : Text := s.toList.flatMap unitsOfChar

namespace Text

/-- A unit that opens a surrogate pair. -/
def isHighSurrogate (u : CodeUnit) : Bool := 0xD800 ≤ u && u ≤ 0xDBFF

/-- A unit that closes a surrogate pair. -/
def isLowSurrogate (u : CodeUnit) : Bool := 0xDC00 ≤ u && u ≤ 0xDFFF

/-- The character that two surrogates stand for. -/
def pairedChar (high low : CodeUnit) : Char :=
  Char.ofNat (0x10000 + (high.toNat - 0xD800) * 0x400 + (low.toNat - 0xDC00))

/-- The characters of a text, if every surrogate in it is paired. -/
def chars? : Text → Option (List Char)
  | [] => some []
  | high :: low :: rest =>
    if isHighSurrogate high && isLowSurrogate low then
      (chars? rest).map (pairedChar high low :: ·)
    else if isHighSurrogate high || isLowSurrogate high then none
    else (chars? (low :: rest)).map (Char.ofNat high.toNat :: ·)
  | [u] =>
    if isHighSurrogate u || isLowSurrogate u then none
    else some [Char.ofNat u.toNat]

/-- The string that a text encodes, if it is well-formed UTF-16. -/
def string? (t : Text) : Option String := (chars? t).map String.ofList

theorem chars?_unit {u : CodeUnit} (hh : isHighSurrogate u = false) (hl : isLowSurrogate u = false)
    (rest : Text) : chars? (u :: rest) = (chars? rest).map (Char.ofNat u.toNat :: ·) := by
  cases rest <;> simp [chars?, hh, hl]

theorem chars?_pair {high low : CodeUnit} (hh : isHighSurrogate high = true)
    (hl : isLowSurrogate low = true) (rest : Text) :
    chars? (high :: low :: rest) = (chars? rest).map (pairedChar high low :: ·) := by
  simp [chars?, hh, hl]

theorem chars?_unitsOfChar (c : Char) (rest : Text) :
    chars? (unitsOfChar c ++ rest) = (chars? rest).map (c :: ·) := by
  have hvalid : c.toNat < 0xD800 ∨ (0xDFFF < c.toNat ∧ c.toNat < 0x110000) := c.valid
  unfold unitsOfChar
  split
  next hplane =>
    have hnat : c.toNat.toUInt16.toNat = c.toNat := by
      simpa using Nat.mod_eq_of_lt hplane
    rw [List.singleton_append, chars?_unit, hnat, Char.ofNat_toNat]
    all_goals
      simp only [isHighSurrogate, isLowSurrogate, Bool.and_eq_false_iff, decide_eq_false_iff_not,
        UInt16.le_iff_toNat_le, hnat]
      simp
      omega
  next hplane =>
    have hhigh : (0xD800 + (c.toNat - 0x10000) / 0x400).toUInt16.toNat =
        0xD800 + (c.toNat - 0x10000) / 0x400 := by
      simpa using Nat.mod_eq_of_lt (show 0xD800 + (c.toNat - 0x10000) / 0x400 < 65536 by omega)
    have hlow : (0xDC00 + (c.toNat - 0x10000) % 0x400).toUInt16.toNat =
        0xDC00 + (c.toNat - 0x10000) % 0x400 := by
      simpa using Nat.mod_eq_of_lt (show 0xDC00 + (c.toNat - 0x10000) % 0x400 < 65536 by omega)
    simp only [List.cons_append, List.nil_append]
    rw [chars?_pair, pairedChar, hhigh, hlow]
    · have hsum : 0x10000 + (0xD800 + (c.toNat - 0x10000) / 0x400 - 0xD800) * 0x400 +
          (0xDC00 + (c.toNat - 0x10000) % 0x400 - 0xDC00) = c.toNat := by omega
      rw [hsum, Char.ofNat_toNat]
    all_goals
      simp only [isHighSurrogate, isLowSurrogate, Bool.and_eq_true, decide_eq_true_eq,
        UInt16.le_iff_toNat_le, hhigh, hlow]
      simp
      omega

/-- The units of a string encode it. -/
theorem string?_utf16 (s : String) : string? (utf16 s) = some s := by
  have h : ∀ cs : List Char, chars? (cs.flatMap unitsOfChar) = some cs := by
    intro cs
    induction cs with
    | nil => rfl
    | cons c cs ih => rw [List.flatMap_cons, chars?_unitsOfChar, ih, Option.map_some]
  rw [string?, utf16, h, Option.map_some, String.ofList_toList]

/-- Whether a text stands somewhere in another as one piece. -/
def occursIn (piece : Text) : Text → Bool
  | [] => piece.isPrefixOf []
  | u :: rest => piece.isPrefixOf (u :: rest) || piece.occursIn rest

theorem occursIn_iff (piece t : Text) : piece.occursIn t = true ↔ piece <:+: t := by
  induction t with
  | nil => simp [occursIn, List.isPrefixOf_iff_prefix]
  | cons u t ih => simp [occursIn, List.isPrefixOf_iff_prefix, ih, List.infix_cons_iff]

/-- Texts joined with a line feed between each two. -/
def lines (ts : List Text) : Text := [0x0A].intercalate ts

/-- A text between single quotation marks. -/
def quoted (t : Text) : Text := 0x27 :: (t ++ [0x27])

/-- Drops later copies of an element, keeping the first of each in place. -/
def firstOccurrences (names : List Text) : List Text :=
  names.foldl (fun seen name => if seen.contains name then seen else seen ++ [name]) []

end Text

theorem utf16_inj {s t : String} (h : utf16 s = utf16 t) : s = t := by
  have hread := congrArg Text.string? h
  rw [Text.string?_utf16, Text.string?_utf16] at hread
  exact Option.some.inj hread

/-! ## Units with a meaning in expression syntax -/

@[match_pattern] abbrev dollar : CodeUnit := 0x24
@[match_pattern] abbrev openParen : CodeUnit := 0x28
@[match_pattern] abbrev closeParen : CodeUnit := 0x29
@[match_pattern] abbrev asterisk : CodeUnit := 0x2A
@[match_pattern] abbrev plus : CodeUnit := 0x2B
@[match_pattern] abbrev comma : CodeUnit := 0x2C
@[match_pattern] abbrev hyphen : CodeUnit := 0x2D
@[match_pattern] abbrev fullStop : CodeUnit := 0x2E
@[match_pattern] abbrev solidus : CodeUnit := 0x2F
@[match_pattern] abbrev colon : CodeUnit := 0x3A
@[match_pattern] abbrev lessThan : CodeUnit := 0x3C
@[match_pattern] abbrev greaterThan : CodeUnit := 0x3E
@[match_pattern] abbrev questionMark : CodeUnit := 0x3F
@[match_pattern] abbrev upperA : CodeUnit := 0x41
@[match_pattern] abbrev upperD : CodeUnit := 0x44
@[match_pattern] abbrev upperS : CodeUnit := 0x53
@[match_pattern] abbrev upperW : CodeUnit := 0x57
@[match_pattern] abbrev openBracket : CodeUnit := 0x5B
@[match_pattern] abbrev backslash : CodeUnit := 0x5C
@[match_pattern] abbrev closeBracket : CodeUnit := 0x5D
@[match_pattern] abbrev caret : CodeUnit := 0x5E
@[match_pattern] abbrev lowLine : CodeUnit := 0x5F
@[match_pattern] abbrev lowerD : CodeUnit := 0x64
@[match_pattern] abbrev lowerK : CodeUnit := 0x6B
@[match_pattern] abbrev lowerS : CodeUnit := 0x73
@[match_pattern] abbrev lowerU : CodeUnit := 0x75
@[match_pattern] abbrev lowerW : CodeUnit := 0x77
@[match_pattern] abbrev lowerZ : CodeUnit := 0x7A
@[match_pattern] abbrev openBrace : CodeUnit := 0x7B
@[match_pattern] abbrev verticalBar : CodeUnit := 0x7C
@[match_pattern] abbrev closeBrace : CodeUnit := 0x7D

end PatternAlgebra
