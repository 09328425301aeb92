import PatternAlgebra.Text.Basic

/-!
# Case folding of units

Units are compared without regard to case by their upper-case form, one unit at a time. A unit
keeps its own value when its full upper-case mapping is more than one unit, and a unit above ASCII
never folds to an ASCII one. The table lists the remaining case pairs that Unicode 17 has in the
basic plane, as runs of equally spaced units with a common distance to their upper-case forms; the
distance is added modulo the unit's range, so it is undone by subtraction.
-/

namespace PatternAlgebra.CaseFold

/-- The units `first`, `first + step`, up to `last`; each folds to itself plus `shift`. -/
structure Run where
  first : CodeUnit
  last : CodeUnit
  step : CodeUnit
  shift : CodeUnit

/-- Membership of a unit in a run. -/
def Run.covers (r : Run) (u : CodeUnit) : Bool :=
  r.first ≤ u && u ≤ r.last && (u - r.first) % r.step == 0

/-- The lower-case units above ASCII and the distances to their upper-case forms. -/
def runs : List Run := [
  ⟨0x00B5, 0x00B5, 1, 0x02E7⟩, ⟨0x00E0, 0x00F6, 1, 0xFFE0⟩, ⟨0x00F8, 0x00FE, 1, 0xFFE0⟩,
  ⟨0x00FF, 0x00FF, 1, 0x0079⟩, ⟨0x0101, 0x012F, 2, 0xFFFF⟩, ⟨0x0133, 0x0137, 2, 0xFFFF⟩,
  ⟨0x013A, 0x0148, 2, 0xFFFF⟩, ⟨0x014B, 0x0177, 2, 0xFFFF⟩, ⟨0x017A, 0x017E, 2, 0xFFFF⟩,
  ⟨0x0180, 0x0180, 1, 0x00C3⟩, ⟨0x0183, 0x0185, 2, 0xFFFF⟩, ⟨0x0188, 0x0188, 1, 0xFFFF⟩,
  ⟨0x018C, 0x018C, 1, 0xFFFF⟩, ⟨0x0192, 0x0192, 1, 0xFFFF⟩, ⟨0x0195, 0x0195, 1, 0x0061⟩,
  ⟨0x0199, 0x0199, 1, 0xFFFF⟩, ⟨0x019A, 0x019A, 1, 0x00A3⟩, ⟨0x019B, 0x019B, 1, 0xA641⟩,
  ⟨0x019E, 0x019E, 1, 0x0082⟩, ⟨0x01A1, 0x01A5, 2, 0xFFFF⟩, ⟨0x01A8, 0x01A8, 1, 0xFFFF⟩,
  ⟨0x01AD, 0x01AD, 1, 0xFFFF⟩, ⟨0x01B0, 0x01B0, 1, 0xFFFF⟩, ⟨0x01B4, 0x01B6, 2, 0xFFFF⟩,
  ⟨0x01B9, 0x01B9, 1, 0xFFFF⟩, ⟨0x01BD, 0x01BD, 1, 0xFFFF⟩, ⟨0x01BF, 0x01BF, 1, 0x0038⟩,
  ⟨0x01C5, 0x01C5, 1, 0xFFFF⟩, ⟨0x01C6, 0x01C6, 1, 0xFFFE⟩, ⟨0x01C8, 0x01C8, 1, 0xFFFF⟩,
  ⟨0x01C9, 0x01C9, 1, 0xFFFE⟩, ⟨0x01CB, 0x01CB, 1, 0xFFFF⟩, ⟨0x01CC, 0x01CC, 1, 0xFFFE⟩,
  ⟨0x01CE, 0x01DC, 2, 0xFFFF⟩, ⟨0x01DD, 0x01DD, 1, 0xFFB1⟩, ⟨0x01DF, 0x01EF, 2, 0xFFFF⟩,
  ⟨0x01F2, 0x01F2, 1, 0xFFFF⟩, ⟨0x01F3, 0x01F3, 1, 0xFFFE⟩, ⟨0x01F5, 0x01F5, 1, 0xFFFF⟩,
  ⟨0x01F9, 0x021F, 2, 0xFFFF⟩, ⟨0x0223, 0x0233, 2, 0xFFFF⟩, ⟨0x023C, 0x023C, 1, 0xFFFF⟩,
  ⟨0x023F, 0x0240, 1, 0x2A3F⟩, ⟨0x0242, 0x0242, 1, 0xFFFF⟩, ⟨0x0247, 0x024F, 2, 0xFFFF⟩,
  ⟨0x0250, 0x0250, 1, 0x2A1F⟩, ⟨0x0251, 0x0251, 1, 0x2A1C⟩, ⟨0x0252, 0x0252, 1, 0x2A1E⟩,
  ⟨0x0253, 0x0253, 1, 0xFF2E⟩, ⟨0x0254, 0x0254, 1, 0xFF32⟩, ⟨0x0256, 0x0257, 1, 0xFF33⟩,
  ⟨0x0259, 0x0259, 1, 0xFF36⟩, ⟨0x025B, 0x025B, 1, 0xFF35⟩, ⟨0x025C, 0x025C, 1, 0xA54F⟩,
  ⟨0x0260, 0x0260, 1, 0xFF33⟩, ⟨0x0261, 0x0261, 1, 0xA54B⟩, ⟨0x0263, 0x0263, 1, 0xFF31⟩,
  ⟨0x0264, 0x0264, 1, 0xA567⟩, ⟨0x0265, 0x0265, 1, 0xA528⟩, ⟨0x0266, 0x0266, 1, 0xA544⟩,
  ⟨0x0268, 0x0268, 1, 0xFF2F⟩, ⟨0x0269, 0x0269, 1, 0xFF2D⟩, ⟨0x026A, 0x026A, 1, 0xA544⟩,
  ⟨0x026B, 0x026B, 1, 0x29F7⟩, ⟨0x026C, 0x026C, 1, 0xA541⟩, ⟨0x026F, 0x026F, 1, 0xFF2D⟩,
  ⟨0x0271, 0x0271, 1, 0x29FD⟩, ⟨0x0272, 0x0272, 1, 0xFF2B⟩, ⟨0x0275, 0x0275, 1, 0xFF2A⟩,
  ⟨0x027D, 0x027D, 1, 0x29E7⟩, ⟨0x0280, 0x0280, 1, 0xFF26⟩, ⟨0x0282, 0x0282, 1, 0xA543⟩,
  ⟨0x0283, 0x0283, 1, 0xFF26⟩, ⟨0x0287, 0x0287, 1, 0xA52A⟩, ⟨0x0288, 0x0288, 1, 0xFF26⟩,
  ⟨0x0289, 0x0289, 1, 0xFFBB⟩, ⟨0x028A, 0x028B, 1, 0xFF27⟩, ⟨0x028C, 0x028C, 1, 0xFFB9⟩,
  ⟨0x0292, 0x0292, 1, 0xFF25⟩, ⟨0x029D, 0x029D, 1, 0xA515⟩, ⟨0x029E, 0x029E, 1, 0xA512⟩,
  ⟨0x0345, 0x0345, 1, 0x0054⟩, ⟨0x0371, 0x0373, 2, 0xFFFF⟩, ⟨0x0377, 0x0377, 1, 0xFFFF⟩,
  ⟨0x037B, 0x037D, 1, 0x0082⟩, ⟨0x03AC, 0x03AC, 1, 0xFFDA⟩, ⟨0x03AD, 0x03AF, 1, 0xFFDB⟩,
  ⟨0x03B1, 0x03C1, 1, 0xFFE0⟩, ⟨0x03C2, 0x03C2, 1, 0xFFE1⟩, ⟨0x03C3, 0x03CB, 1, 0xFFE0⟩,
  ⟨0x03CC, 0x03CC, 1, 0xFFC0⟩, ⟨0x03CD, 0x03CE, 1, 0xFFC1⟩, ⟨0x03D0, 0x03D0, 1, 0xFFC2⟩,
  ⟨0x03D1, 0x03D1, 1, 0xFFC7⟩, ⟨0x03D5, 0x03D5, 1, 0xFFD1⟩, ⟨0x03D6, 0x03D6, 1, 0xFFCA⟩,
  ⟨0x03D7, 0x03D7, 1, 0xFFF8⟩, ⟨0x03D9, 0x03EF, 2, 0xFFFF⟩, ⟨0x03F0, 0x03F0, 1, 0xFFAA⟩,
  ⟨0x03F1, 0x03F1, 1, 0xFFB0⟩, ⟨0x03F2, 0x03F2, 1, 0x0007⟩, ⟨0x03F3, 0x03F3, 1, 0xFF8C⟩,
  ⟨0x03F5, 0x03F5, 1, 0xFFA0⟩, ⟨0x03F8, 0x03F8, 1, 0xFFFF⟩, ⟨0x03FB, 0x03FB, 1, 0xFFFF⟩,
  ⟨0x0430, 0x044F, 1, 0xFFE0⟩, ⟨0x0450, 0x045F, 1, 0xFFB0⟩, ⟨0x0461, 0x0481, 2, 0xFFFF⟩,
  ⟨0x048B, 0x04BF, 2, 0xFFFF⟩, ⟨0x04C2, 0x04CE, 2, 0xFFFF⟩, ⟨0x04CF, 0x04CF, 1, 0xFFF1⟩,
  ⟨0x04D1, 0x052F, 2, 0xFFFF⟩, ⟨0x0561, 0x0586, 1, 0xFFD0⟩, ⟨0x10D0, 0x10FA, 1, 0x0BC0⟩,
  ⟨0x10FD, 0x10FF, 1, 0x0BC0⟩, ⟨0x13F8, 0x13FD, 1, 0xFFF8⟩, ⟨0x1C80, 0x1C80, 1, 0xE792⟩,
  ⟨0x1C81, 0x1C81, 1, 0xE793⟩, ⟨0x1C82, 0x1C82, 1, 0xE79C⟩, ⟨0x1C83, 0x1C84, 1, 0xE79E⟩,
  ⟨0x1C85, 0x1C85, 1, 0xE79D⟩, ⟨0x1C86, 0x1C86, 1, 0xE7A4⟩, ⟨0x1C87, 0x1C87, 1, 0xE7DB⟩,
  ⟨0x1C88, 0x1C88, 1, 0x89C2⟩, ⟨0x1C8A, 0x1C8A, 1, 0xFFFF⟩, ⟨0x1D79, 0x1D79, 1, 0x8A04⟩,
  ⟨0x1D7D, 0x1D7D, 1, 0x0EE6⟩, ⟨0x1D8E, 0x1D8E, 1, 0x8A38⟩, ⟨0x1E01, 0x1E95, 2, 0xFFFF⟩,
  ⟨0x1E9B, 0x1E9B, 1, 0xFFC5⟩, ⟨0x1EA1, 0x1EFF, 2, 0xFFFF⟩, ⟨0x1F00, 0x1F07, 1, 0x0008⟩,
  ⟨0x1F10, 0x1F15, 1, 0x0008⟩, ⟨0x1F20, 0x1F27, 1, 0x0008⟩, ⟨0x1F30, 0x1F37, 1, 0x0008⟩,
  ⟨0x1F40, 0x1F45, 1, 0x0008⟩, ⟨0x1F51, 0x1F57, 2, 0x0008⟩, ⟨0x1F60, 0x1F67, 1, 0x0008⟩,
  ⟨0x1F70, 0x1F71, 1, 0x004A⟩, ⟨0x1F72, 0x1F75, 1, 0x0056⟩, ⟨0x1F76, 0x1F77, 1, 0x0064⟩,
  ⟨0x1F78, 0x1F79, 1, 0x0080⟩, ⟨0x1F7A, 0x1F7B, 1, 0x0070⟩, ⟨0x1F7C, 0x1F7D, 1, 0x007E⟩,
  ⟨0x1FB0, 0x1FB1, 1, 0x0008⟩, ⟨0x1FBE, 0x1FBE, 1, 0xE3DB⟩, ⟨0x1FD0, 0x1FD1, 1, 0x0008⟩,
  ⟨0x1FE0, 0x1FE1, 1, 0x0008⟩, ⟨0x1FE5, 0x1FE5, 1, 0x0007⟩, ⟨0x214E, 0x214E, 1, 0xFFE4⟩,
  ⟨0x2170, 0x217F, 1, 0xFFF0⟩, ⟨0x2184, 0x2184, 1, 0xFFFF⟩, ⟨0x24D0, 0x24E9, 1, 0xFFE6⟩,
  ⟨0x2C30, 0x2C5F, 1, 0xFFD0⟩, ⟨0x2C61, 0x2C61, 1, 0xFFFF⟩, ⟨0x2C65, 0x2C65, 1, 0xD5D5⟩,
  ⟨0x2C66, 0x2C66, 1, 0xD5D8⟩, ⟨0x2C68, 0x2C6C, 2, 0xFFFF⟩, ⟨0x2C73, 0x2C73, 1, 0xFFFF⟩,
  ⟨0x2C76, 0x2C76, 1, 0xFFFF⟩, ⟨0x2C81, 0x2CE3, 2, 0xFFFF⟩, ⟨0x2CEC, 0x2CEE, 2, 0xFFFF⟩,
  ⟨0x2CF3, 0x2CF3, 1, 0xFFFF⟩, ⟨0x2D00, 0x2D25, 1, 0xE3A0⟩, ⟨0x2D27, 0x2D27, 1, 0xE3A0⟩,
  ⟨0x2D2D, 0x2D2D, 1, 0xE3A0⟩, ⟨0xA641, 0xA66D, 2, 0xFFFF⟩, ⟨0xA681, 0xA69B, 2, 0xFFFF⟩,
  ⟨0xA723, 0xA72F, 2, 0xFFFF⟩, ⟨0xA733, 0xA76F, 2, 0xFFFF⟩, ⟨0xA77A, 0xA77C, 2, 0xFFFF⟩,
  ⟨0xA77F, 0xA787, 2, 0xFFFF⟩, ⟨0xA78C, 0xA78C, 1, 0xFFFF⟩, ⟨0xA791, 0xA793, 2, 0xFFFF⟩,
  ⟨0xA794, 0xA794, 1, 0x0030⟩, ⟨0xA797, 0xA7A9, 2, 0xFFFF⟩, ⟨0xA7B5, 0xA7C3, 2, 0xFFFF⟩,
  ⟨0xA7C8, 0xA7CA, 2, 0xFFFF⟩, ⟨0xA7CD, 0xA7DB, 2, 0xFFFF⟩, ⟨0xA7F6, 0xA7F6, 1, 0xFFFF⟩,
  ⟨0xAB53, 0xAB53, 1, 0xFC60⟩, ⟨0xAB70, 0xABBF, 1, 0x6830⟩, ⟨0xFF41, 0xFF5A, 1, 0xFFE0⟩]

/-- The unit that stands for all units of the same letter. -/
def fold (u : CodeUnit) : CodeUnit :=
  if u < 0x80 then
    if 0x61 ≤ u && u ≤ 0x7A then u - 0x20 else u
  else
    match runs.find? (·.covers u) with
    | some r => u + r.shift
    | none => u

/-- Units that may fold to `u`: itself, and those that a run carries to it. -/
def candidates (u : CodeUnit) : List CodeUnit :=
  if u < 0x80 then [u, u + 0x20]
  else u :: runs.filterMap (fun r => if r.covers (u - r.shift) then some (u - r.shift) else none)

/-- All units that fold to `u`. -/
def peers (u : CodeUnit) : List CodeUnit := (candidates u).filter (fold · == u)

/-- Whether a run stays above ASCII and does not wrap. -/
def Run.staysAbove (r : Run) : Bool :=
  0x80 ≤ (r.first + r.shift).toNat &&
    (r.first + r.shift).toNat + (r.last.toNat - r.first.toNat) < 0x10000

set_option maxRecDepth 4000 in
theorem runs_stayAbove : ∀ r ∈ runs, r.staysAbove = true := by decide

theorem Run.le_add_shift {r : Run} {u : CodeUnit} (hr : r.staysAbove = true)
    (hu : r.covers u = true) : 0x80 ≤ (u + r.shift).toNat := by
  simp only [staysAbove, Bool.and_eq_true, decide_eq_true_eq] at hr
  simp only [covers, Bool.and_eq_true, decide_eq_true_eq, UInt16.le_iff_toNat_le] at hu
  have h1 := hr.1
  have h2 := hr.2
  rw [UInt16.toNat_add] at h1 h2
  rw [UInt16.toNat_add]
  have hb := u.toNat_lt
  have hf := r.first.toNat_lt
  have hs := r.shift.toNat_lt
  omega

theorem mem_peers_iff {u v : CodeUnit} : v ∈ peers u ↔ fold v = u := by
  refine ⟨fun h => by simpa using (List.mem_filter.1 h).2, fun h => ?_⟩
  refine List.mem_filter.2 ⟨?_, by simpa using h⟩
  subst h
  unfold fold
  split
  next hv =>
    split
    next hl =>
      have hlow : v - 0x20 < 0x80 := by
        simp only [Bool.and_eq_true, decide_eq_true_eq] at hl
        have h1 := UInt16.le_iff_toNat_le.1 hl.1
        have h2 := UInt16.le_iff_toNat_le.1 hl.2
        rw [UInt16.lt_iff_toNat_lt, UInt16.toNat_sub]
        simp at h1 h2 ⊢
        omega
      simp [candidates, hlow]
    · simp [candidates, hv]
  next hv =>
    split
    next r hr =>
      have hcovers : r.covers v = true := by simpa using List.find?_some hr
      have habove := Run.le_add_shift (runs_stayAbove r (List.mem_of_find?_eq_some hr)) hcovers
      have hnot : ¬ v + r.shift < 0x80 := by
        rw [UInt16.lt_iff_toNat_lt]
        simpa using habove
      have hback : v + r.shift - r.shift = v := by simp
      rw [candidates, if_neg hnot]
      refine List.mem_cons_of_mem _ (List.mem_filterMap.2 ⟨r, List.mem_of_find?_eq_some hr, ?_⟩)
      rw [hback, if_pos hcovers]
    · simp [candidates, hv]

end PatternAlgebra.CaseFold
