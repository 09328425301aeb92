import Mathlib.Algebra.Group.Nat.Defs
import PatternAlgebra.Number.Decimal

/-!
# Shortest decimals of great whole numbers

The shortest decimal of a whole double from `2 ^ 53` on is a whole number that rounds to it, and it
is below `10 ^ 21` exactly if the double is. Which of the numbers that round to the double it is, is
not said.
-/

namespace PatternAlgebra

/-! ## Whole doubles -/

namespace Double

theorem fractionField_lt (d : Double) : d.fractionField < fractionCount :=
  Nat.mod_lt _ (by decide)

theorem significand_lt (d : Double) : d.significand < 2 * fractionCount := by
  have h := d.fractionField_lt
  unfold significand
  split <;> omega

/-- A whole double of `2 ^ 53` or more is a normal one, scaled up. -/
theorem eq_mul_of_le {d : Double} {n : Nat} (h : d.wholeMagnitude? = some n)
    (hn : 2 * fractionCount ≤ n) :
    ∃ k, d.scale = .ofNat k ∧ n = d.significand * 2 ^ k := by
  have hsig := d.significand_lt
  unfold wholeMagnitude? at h
  split at h
  · split at h
    next k hk => exact ⟨k, hk, (Option.some.inj h).symm⟩
    next k hk =>
      split at h
      · have hdiv : d.significand / Nat.pow 2 (k + 1) ≤ d.significand := Nat.div_le_self _ _
        have := Option.some.inj h
        omega
      · contradiction
  · contradiction

theorem significand_of_scale {d : Double} {k : Nat} (h : d.scale = .ofNat k) :
    d.significand = fractionCount + d.fractionField := by
  unfold significand
  split
  next he => simp [scale, he] at h
  · rfl

/-- Zero has no bits set but its sign. -/
theorem isZero_of_wholeMagnitude {d : Double} (h : d.wholeMagnitude? = some 0) :
    d.isZero = true := by
  have hsig : d.significand = 0 := by
    unfold wholeMagnitude? at h
    split at h
    · split at h
      next k _ =>
        have hpow : 0 < Nat.pow 2 k := Nat.pow_pos (by decide)
        rcases Nat.mul_eq_zero.1 (Option.some.inj h) with h | h
        · exact h
        · omega
      next k _ =>
        split at h
        next hmod =>
          have hdiv := Nat.div_add_mod d.significand (Nat.pow 2 (k + 1))
          rw [hmod, Option.some.inj h] at hdiv
          simpa using hdiv.symm
        · contradiction
    · contradiction
  unfold significand at hsig
  split at hsig
  next he => simp [isZero, he, hsig]
  · simp [fractionCount] at hsig

theorem isFinite_of_wholeMagnitude {d : Double} {n : Nat} (h : d.wholeMagnitude? = some n) :
    d.isFinite = true := by
  unfold wholeMagnitude? at h
  split at h
  · assumption
  · contradiction

/-- Whole doubles lie apart by the spacing that goes with their scale, and `10 ^ 21` is one of them. -/
theorem apart {d : Double} {k n : Nat} (hk : d.scale = .ofNat k) (hn : n = d.significand * 2 ^ k) :
    n + 2 ^ k ≤ 10 ^ 21 ∨ n = 10 ^ 21 ∨ 10 ^ 21 + 2 ^ k ≤ n := by
  have hlt := d.significand_lt
  have hnormal := significand_of_scale hk
  unfold fractionCount at hlt hnormal
  obtain hsmall | rfl | hgreat : k ≤ 16 ∨ k = 17 ∨ 18 ≤ k := by omega
  · have hpow : 2 ^ k ≤ 2 ^ 16 := Nat.pow_le_pow_right (by decide) hsmall
    have hnext : (d.significand + 1) * 2 ^ k ≤ 2 ^ 53 * 2 ^ 16 :=
      Nat.mul_le_mul (by omega) hpow
    rw [Nat.add_mul, ← hn] at hnext
    omega
  · omega
  · have hpow : 2 ^ 18 ≤ 2 ^ k := Nat.pow_le_pow_right (by decide) hgreat
    obtain ⟨m, hm⟩ : ∃ m, d.significand = m + 1 := ⟨d.significand - 1, by omega⟩
    have hbefore : (2 ^ 52 - 1) * 2 ^ 18 ≤ m * 2 ^ k := Nat.mul_le_mul (by omega) hpow
    rw [hm, Nat.add_mul] at hn
    omega

end Double

/-! ## Shortest decimals of great whole numbers -/

namespace RoundingInterval

/-- The interval of a whole double that is scaled up. -/
theorem ofDouble_of_scale {d : Double} {k : Nat} (h : d.scale = .ofNat k) :
    ∃ low, ofDouble d = ⟨4 * (d.significand * 2 ^ k), low * 2 ^ k, 2 * 2 ^ k, 1,
        d.significand % 2 = 0⟩ ∧
      ((low = 1 ∧ d.fractionField = 0) ∨ low = 2) := by
  have hdown : (-d.scale).toNat = 0 := by rw [h]; simp
  have hup : d.scale.toNat = k := by rw [h]; rfl
  refine ⟨if d.fractionField = 0 ∧ 1 < d.exponentField then 1 else 2, ?_, ?_⟩
  · simp only [ofDouble, hdown, hup, Nat.mul_assoc]
    rfl
  · split
    next hc => exact .inl ⟨rfl, hc.1⟩
    · exact .inr rfl

/-- What holds of the numbers that round to a whole number. -/
theorem bounds_of_holds {n k low x : Nat} {closed : Bool}
    (h : holds ⟨4 * n, low * 2 ^ k, 2 * 2 ^ k, 1, closed⟩ x 1 = true) :
    4 * n - low * 2 ^ k ≤ 4 * x ∧ 4 * x ≤ 4 * n + 2 * 2 ^ k := by
  simp only [holds, Nat.mul_one] at h
  split at h <;> simp only [Bool.and_eq_true, decide_eq_true_eq] at h <;> omega

/-- What rounds to a whole double is no more than half a spacing away from it. -/
theorem near_of_holds {d : Double} {k n x : Nat} (hk : d.scale = .ofNat k)
    (hn : n = d.significand * 2 ^ k) (hx : (ofDouble d).holds x 1 = true) :
    2 * n ≤ 2 * x + 2 ^ k ∧ 2 * x ≤ 2 * n + 2 ^ k := by
  obtain ⟨low, hinterval, hlow⟩ := ofDouble_of_scale hk
  rw [hinterval, ← hn] at hx
  have hbounds := bounds_of_holds hx
  have hbelow : low * 2 ^ k ≤ 2 * 2 ^ k := Nat.mul_le_mul_right _ (by omega)
  omega

/-- A number closer than the ends of the interval rounds to the whole number. -/
theorem holds_of_bounds {n k low x : Nat} {closed : Bool} (hlow : 4 * n - low * 2 ^ k < 4 * x)
    (habove : 4 * x < 4 * n + 2 * 2 ^ k) :
    holds ⟨4 * n, low * 2 ^ k, 2 * 2 ^ k, 1, closed⟩ x 1 = true := by
  simp only [holds, Nat.mul_one]
  split <;> simp only [Bool.and_eq_true, decide_eq_true_eq] <;> omega

/-- A multiple that is found rounds to the number. -/
theorem holds_of_nearestOnGrid {i : RoundingInterval} {p g : Nat}
    (h : i.nearestOnGrid? p = some g) : i.holds (g * 10 ^ p) 1 = true := by
  have hdown : (-(p : Int)).toNat = 0 := by simp
  simp only [nearestOnGrid?, hdown, Int.toNat_natCast] at h
  split at h
  next hl =>
    simp only [Bool.and_eq_true] at hl
    obtain rfl := Option.some.inj h
    exact hl.1
  · split at h
    next hu =>
      obtain rfl := Option.some.inj h
      exact hu
    · contradiction

/-- One of the two neighbours on a grid is found if one of them rounds to the number. -/
theorem nearestOnGrid_isSome_of_holds {i : RoundingInterval} {p : Nat} (lower : Nat)
    (hlower : i.quarters / (4 * i.unit * 10 ^ p) = lower)
    (h : i.holds (lower * 10 ^ p) 1 = true ∨ i.holds ((lower + 1) * 10 ^ p) 1 = true) :
    ∃ g, i.nearestOnGrid? p = some g := by
  have hdown : (-(p : Int)).toNat = 0 := by simp
  simp only [nearestOnGrid?, hdown, Int.toNat_natCast, Nat.pow_eq, Nat.pow_zero, Nat.mul_one, hlower]
  cases hu : i.holds ((lower + 1) * 10 ^ p) 1 with
  | true =>
    simp only [Bool.not_true, Bool.false_or, if_true]
    split <;> exact ⟨_, rfl⟩
  | false =>
    have hl : i.holds (lower * 10 ^ p) 1 = true := by simpa [hu] using h
    exact ⟨lower, by simp [hl]⟩

/-- A grid that is finer than the interval has a multiple in it. -/
theorem nearestOnGrid_isSome {n k low p : Nat} (closed : Bool) (hl1 : 1 ≤ low) (hl2 : low ≤ 2)
    (hk : 2 * 2 ^ k ≤ n) (hp : 4 * 10 ^ p < (low + 2) * 2 ^ k) :
    ∃ g, nearestOnGrid? ⟨4 * n, low * 2 ^ k, 2 * 2 ^ k, 1, closed⟩ p = some g := by
  have hP : 0 < 10 ^ p := Nat.pow_pos (by decide)
  have hK : 0 < 2 ^ k := Nat.pow_pos (by decide)
  have hdm : n / 10 ^ p * 10 ^ p + n % 10 ^ p = n := Nat.div_add_mod' n (10 ^ p)
  have hmod : n % 10 ^ p < 10 ^ p := Nat.mod_lt n hP
  have hnext : (n / 10 ^ p + 1) * 10 ^ p = n / 10 ^ p * 10 ^ p + 10 ^ p := by
    rw [Nat.add_mul, Nat.one_mul]
  have hbelow : 2 ^ k ≤ low * 2 ^ k := Nat.le_mul_of_pos_left _ hl1
  have hbelow2 : low * 2 ^ k ≤ 2 * 2 ^ k := Nat.mul_le_mul_right _ hl2
  rw [Nat.add_mul] at hp
  refine nearestOnGrid_isSome_of_holds (n / 10 ^ p) ?_ ?_
  · simp only [Nat.mul_one]
    exact Nat.mul_div_mul_left _ _ (by decide)
  · by_cases hr : 4 * (n % 10 ^ p) < low * 2 ^ k
    · exact .inl (holds_of_bounds (by omega) (by omega))
    · exact .inr (holds_of_bounds (by omega) (by omega))

/-- A multiple of the power is the nearest to itself. -/
theorem nearestOnGrid_multiple {i : RoundingInterval} {g p : Nat} (hunit : 0 < i.unit)
    (hquarters : i.quarters = g * (4 * i.unit * 10 ^ p)) (hholds : i.holds (g * 10 ^ p) 1 = true) :
    i.nearestOnGrid? p = some g := by
  have hdown : (-(p : Int)).toNat = 0 := by simp
  have hpos : 0 < 4 * i.unit * 10 ^ p :=
    Nat.mul_pos (Nat.mul_pos (by decide) hunit) (Nat.pow_pos (by decide))
  have hlower : i.quarters / (4 * i.unit * 10 ^ p) = g := by
    rw [hquarters]
    exact Nat.mul_div_cancel g hpos
  have hrest : i.quarters % (4 * i.unit * 10 ^ p) = 0 := by
    rw [hquarters]
    exact Nat.mul_mod_left _ _
  have hnearer : 2 * 0 < 4 * i.unit * 10 ^ p := hpos
  simp only [nearestOnGrid?, hdown, Int.toNat_natCast, Nat.pow_eq, Nat.pow_zero, Nat.mul_one, hlower,
    hrest, hholds, hnearer, decide_true, Bool.true_or, Bool.or_true, Bool.true_and, if_true]

theorem magnitude_whole {n below above : Nat} {closed : Bool} (hn : n ≠ 0) :
    magnitude ⟨4 * n, below, above, 1, closed⟩ = ((Nat.toDigits 10 n).length : Nat) := by
  have hwhole : 4 * n / (4 * 1) = n := by rw [Nat.mul_one, Nat.mul_div_cancel_left _ (by decide)]
  simp only [magnitude, hwhole, if_neg hn]

/-- A grid of all places, or one that leaves seventeen, is finer than the interval of a double. -/
theorem grid_finer {d : Double} {k low p : Nat} (hk : d.scale = .ofNat k)
    (hlow : (low = 1 ∧ d.fractionField = 0) ∨ low = 2)
    (hlarge : 2 * Double.fractionCount ≤ d.significand * 2 ^ k)
    (hp : p = 0 ∨ 10 ^ (p + 16) ≤ d.significand * 2 ^ k) :
    4 * 10 ^ p < (low + 2) * 2 ^ k := by
  have hsig := d.significand_lt
  have hnormal := Double.significand_of_scale hk
  have hK : 0 < 2 ^ k := Nat.pow_pos (by decide)
  have hbelow : 2 ^ k ≤ low * 2 ^ k := Nat.le_mul_of_pos_left _ (by omega)
  unfold Double.fractionCount at hsig hnormal hlarge
  have hupper : d.significand * 2 ^ k ≤ 0x1FFFFFFFFFFFFF * 2 ^ k :=
    Nat.mul_le_mul_right _ (by omega)
  rw [Nat.add_mul]
  rcases hp with rfl | hpow
  · omega
  · rw [Nat.pow_add] at hpow
    rcases hlow with ⟨rfl, hfrac⟩ | rfl
    · rw [hnormal, hfrac] at hpow
      omega
    · omega

end RoundingInterval

theorem findSome?_range {α : Type} {f : Nat → Option α} {j n : Nat} (hj : j < n) {a : α}
    (ha : f j = some a) : ∃ m ≤ j, ∃ b, f m = some b ∧ (List.range n).findSome? f = some b := by
  obtain ⟨d, rfl⟩ : ∃ d, n = j + 1 + d := ⟨n - (j + 1), by omega⟩
  cases hfirst : (List.range (j + 1)).findSome? f with
  | none =>
    have := List.findSome?_eq_none_iff.1 hfirst j (List.mem_range.2 (Nat.lt_succ_self j))
    rw [ha] at this
    contradiction
  | some b =>
    obtain ⟨m, hm, hb⟩ := List.exists_of_findSome?_eq_some hfirst
    have hle : m ≤ j := Nat.lt_succ_iff.1 (List.mem_range.1 hm)
    refine ⟨m, hle, b, hb, ?_⟩
    rw [List.range_add, List.findSome?_append, hfirst]
    rfl

theorem pow_le_of_length_toDigits {n p : Nat} (h : p < (Nat.toDigits 10 n).length) :
    10 ^ p ≤ n ∨ p = 0 := by
  by_cases hp : p = 0
  · exact .inr hp
  · refine .inl (Nat.le_of_not_lt (fun hlt => ?_))
    have := (Nat.length_toDigits_le_iff (by decide) (Nat.pos_of_ne_zero hp)).2 hlt
    omega

namespace Decimal

/-- Moving zeros to the power does not change the number. -/
theorem trim_value (limit : Nat) {x : Decimal} (hpower : 0 ≤ x.power) (hdigits : x.digits ≠ 0) :
    0 ≤ (trim limit x).power ∧ (trim limit x).digits ≠ 0 ∧
      (trim limit x).digits * 10 ^ (trim limit x).power.toNat =
        x.digits * 10 ^ x.power.toNat := by
  induction limit generalizing x with
  | zero => exact ⟨hpower, hdigits, rfl⟩
  | succ limit ih =>
    unfold trim
    split
    next hzero =>
      have hdiv : x.digits / 10 * 10 = x.digits := Nat.div_mul_cancel (Nat.dvd_of_mod_eq_zero hzero.1)
      have hnat : (x.power + 1).toNat = x.power.toNat + 1 := by omega
      obtain ⟨h1, h2, h3⟩ := ih (x := ⟨x.digits / 10, x.power + 1⟩) (by simp; omega) (by simp; omega)
      refine ⟨h1, h2, h3.trans ?_⟩
      show x.digits / 10 * 10 ^ (x.power + 1).toNat = x.digits * 10 ^ x.power.toNat
      rw [hnat, Nat.pow_succ, Nat.mul_comm (10 ^ x.power.toNat) 10, ← Nat.mul_assoc, hdiv]
    · exact ⟨hpower, hdigits, rfl⟩

/-- The decimal with `m + 1` digits that is tried. -/
def atPlaces (i : RoundingInterval) (m : Nat) : Option Decimal :=
  (i.nearestOnGrid? (i.magnitude - (m + 1 : Nat))).map (fun digits =>
    ⟨digits, i.magnitude - (m + 1 : Nat)⟩)

theorem shortest_eq (d : Double) :
    shortest d =
      trim 17 (((List.range 17).findSome? (atPlaces (.ofDouble d))).getD ⟨0, 0⟩) := rfl

theorem atPlaces_eq {i : RoundingInterval} {m q : Nat} (h : i.magnitude = (m + 1 + q : Nat)) :
    atPlaces i m = (i.nearestOnGrid? q).map (fun digits => ⟨digits, q⟩) := by
  have hpower : ((m + 1 + q : Nat) : Int) - (m + 1 : Nat) = (q : Int) := by omega
  simp only [atPlaces, h, hpower]

/-- Numbers of places on whose grid something rounds to a whole double: all sixteen, or
seventeen. -/
theorem places_of_le {n : Nat} (hn : 2 * Double.fractionCount ≤ n) :
    ∃ j p, j < 17 ∧ (Nat.toDigits 10 n).length = j + 1 + p ∧ (p = 0 ∨ 10 ^ (p + 16) ≤ n) := by
  unfold Double.fractionCount at hn
  have hL : 16 ≤ (Nat.toDigits 10 n).length := by
    by_cases hlt : (Nat.toDigits 10 n).length ≤ 15
    · have := (Nat.length_toDigits_le_iff (b := 10) (k := 15) (by decide) (by decide)).1 hlt
      omega
    · omega
  by_cases h16 : (Nat.toDigits 10 n).length = 16
  · exact ⟨15, 0, by decide, by omega, .inl rfl⟩
  · refine ⟨16, (Nat.toDigits 10 n).length - 17, by decide, by omega, .inr ?_⟩
    rcases pow_le_of_length_toDigits (n := n) (p := (Nat.toDigits 10 n).length - 17 + 16)
      (by omega) with hle | h0
    · exact hle
    · omega

/-- Seventeen digits suffice for a whole double of `2 ^ 53` or more, and its shortest decimal is a
whole number that rounds to it. -/
theorem shortest_of_le {d : Double} {n : Nat} (h : d.wholeMagnitude? = some n)
    (hn : 2 * Double.fractionCount ≤ n) :
    0 ≤ (shortest d).power ∧ (shortest d).digits ≠ 0 ∧
      (RoundingInterval.ofDouble d).holds
        ((shortest d).digits * 10 ^ (shortest d).power.toNat) 1 = true := by
  obtain ⟨k, hk, hmul⟩ := Double.eq_mul_of_le h hn
  have hnormal := Double.significand_of_scale hk
  obtain ⟨low, hi, hlow⟩ := RoundingInterval.ofDouble_of_scale hk
  obtain ⟨j, p, hj, hlen, hp⟩ := places_of_le hn
  rw [hmul] at hp
  have hfine := RoundingInterval.grid_finer hk hlow (hmul ▸ hn) hp
  rw [← hmul] at hi
  unfold Double.fractionCount at hn hnormal
  have hl1 : 1 ≤ low := by omega
  have hl2 : low ≤ 2 := by omega
  have hk2 : 2 * 2 ^ k ≤ n := by
    rw [hmul]
    exact Nat.mul_le_mul_right _ (by omega)
  have hmag : (RoundingInterval.ofDouble d).magnitude = ((Nat.toDigits 10 n).length : Nat) := by
    rw [hi]
    exact RoundingInterval.magnitude_whole (by omega)
  obtain ⟨g, hg⟩ := RoundingInterval.nearestOnGrid_isSome (d.significand % 2 = 0) hl1 hl2 hk2 hfine
  rw [← hi] at hg
  have hfound : atPlaces (.ofDouble d) j = some ⟨g, p⟩ := by
    rw [atPlaces_eq (hmag.trans (by rw [hlen])), hg]
    rfl
  obtain ⟨m, hm, b, hb, hfirst⟩ := findSome?_range hj hfound
  obtain ⟨q, hq⟩ : ∃ q : Nat, j + 1 + p = m + 1 + q := ⟨j + p - m, by omega⟩
  rw [atPlaces_eq (hmag.trans (by rw [hlen, hq]))] at hb
  obtain ⟨digits, hdigits, rfl⟩ := Option.map_eq_some_iff.1 hb
  have hholds := RoundingInterval.holds_of_nearestOnGrid hdigits
  have hne : digits ≠ 0 := by
    rintro rfl
    have hnear := RoundingInterval.near_of_holds hk hmul hholds
    omega
  obtain ⟨h1, h2, h3⟩ := trim_value 17 (x := ⟨digits, q⟩) (Int.natCast_nonneg q) hne
  rw [shortest_eq, hfirst, Option.getD_some]
  exact ⟨h1, h2, by rw [h3]; exact hholds⟩

/-- The shortest decimal of `10 ^ 21` has one digit. -/
theorem shortest_sextillion {d : Double} (h : d.wholeMagnitude? = some (10 ^ 21)) :
    shortest d = ⟨1, 21⟩ := by
  obtain ⟨k, hk, hmul⟩ := Double.eq_mul_of_le h (by decide)
  obtain ⟨low, hi, hlow⟩ := RoundingInterval.ofDouble_of_scale hk
  rw [← hmul] at hi
  have hlength : (Nat.toDigits 10 (10 ^ 21)).length = 22 := by decide
  have hmag : (RoundingInterval.ofDouble d).magnitude = (0 + 1 + 21 : Nat) := by
    rw [hi, RoundingInterval.magnitude_whole (by decide), hlength]
  have hgrid : (RoundingInterval.ofDouble d).nearestOnGrid? (21 : Nat) = some 1 := by
    rw [hi]
    have hquarters : 4 * 10 ^ 21 = 1 * (4 * 1 * 10 ^ 21) := by decide
    have habove : 0 < 2 ^ k := Nat.pow_pos (by decide)
    have hbelow : 0 < low * 2 ^ k := Nat.mul_pos (by omega) habove
    apply RoundingInterval.nearestOnGrid_multiple Nat.one_pos hquarters
    exact RoundingInterval.holds_of_bounds (by omega) (by omega)
  have hfirst : atPlaces (.ofDouble d) 0 = some ⟨1, 21⟩ := by
    rw [atPlaces_eq hmag, hgrid]
    rfl
  have hrange : List.range 17 = 0 :: (List.range 16).map Nat.succ := List.range_succ_eq_map
  rw [shortest_eq, hrange, List.findSome?_cons, hfirst]
  rfl

/-- The shortest decimal stands on the same side of `10 ^ 21` as the double. -/
theorem shortest_lt_iff {d : Double} {n : Nat} (h : d.wholeMagnitude? = some n)
    (hn : 2 * Double.fractionCount ≤ n) :
    (shortest d).digits * 10 ^ (shortest d).power.toNat < 10 ^ 21 ↔ n < 10 ^ 21 := by
  obtain ⟨k, hk, hmul⟩ := Double.eq_mul_of_le h hn
  obtain ⟨-, -, hholds⟩ := shortest_of_le h hn
  have hnear := RoundingInterval.near_of_holds hk hmul hholds
  have hpos : 0 < 2 ^ k := Nat.pow_pos (by decide)
  rcases Double.apart hk hmul with hbelow | rfl | habove
  · omega
  · rw [shortest_sextillion h]
    decide
  · omega

end Decimal

end PatternAlgebra
