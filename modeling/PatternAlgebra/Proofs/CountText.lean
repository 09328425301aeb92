import PatternAlgebra.Pattern.Parameter
import PatternAlgebra.Proofs.ShortestDecimal
import PatternAlgebra.Regex.Counts

/-!
# Written counts

A count below `2 ^ 53` is written by its own digits. A greater one is written by the digits of some
number that rounds to it, with zeros behind them, as long as it is below `10 ^ 21`, and in scientific
form with a positive exponent from there on. Nothing is claimed about which of the numbers that round
to a count is written.
-/

namespace PatternAlgebra

/-! ## Digits with zeros behind them -/

theorem decimalText_mul_pow {n : Nat} (hn : n ≠ 0) (k : Nat) :
    decimalText n ++ zeros k = decimalText (n * 10 ^ k) := by
  induction k with
  | zero => simp [zeros]
  | succ k ih =>
    have hpos : 0 < n * 10 ^ k := Nat.mul_pos (Nat.pos_of_ne_zero hn) (Nat.pow_pos (by decide))
    have hstep : n * 10 ^ (k + 1) = n * 10 ^ k * 10 := by rw [Nat.pow_succ, Nat.mul_assoc]
    have hzeros : zeros (k + 1) = zeros k ++ [0x30] := List.replicate_succ'
    have hlast : decimalText (n * 10 ^ k * 10) = decimalText (n * 10 ^ k) ++ [digitUnit 0] := by
      rw [decimalText_of_le (by omega), Nat.mul_div_cancel _ (by decide), Nat.mul_mod_left]
    rw [hstep, hlast, ← ih, hzeros, List.append_assoc]
    rfl

theorem isDigit_of_mem_decimalText {n : Nat} {u : CodeUnit} (h : u ∈ decimalText n) :
    Text.isDigit u = true := by
  induction n using Nat.strongRecOn with
  | ind n ih =>
    by_cases hn : n < 10
    · rw [decimalText_of_lt hn, List.mem_singleton] at h
      rw [h]
      exact digitUnit_isDigit n hn
    · rw [decimalText_of_le (by omega), List.mem_append, List.mem_singleton] at h
      rcases h with h | h
      · exact ih (n / 10) (by omega) h
      · rw [h]
        exact digitUnit_isDigit _ (Nat.mod_lt n (by decide))

/-! ## The text of a whole decimal -/

namespace Decimal

/-- A text in scientific form with a positive exponent. The digits before the `e` may have a full
stop among them. -/
def Scientific (t : Text) : Prop :=
  ∃ (lead : CodeUnit) (mantissa : Text) (exponent : Nat),
    t = lead :: mantissa ++ 0x65 :: plus :: decimalText exponent ∧
      Text.isDigit lead = true ∧ ∀ u ∈ mantissa, Text.isDigit u = true ∨ u = fullStop

/-- So many places stand before the point exactly if the number has no more digits. -/
theorem point_le_iff {x : Decimal} (hpower : 0 ≤ x.power) (hdigits : x.digits ≠ 0) :
    ((decimalText x.digits).length : Int) + x.power ≤ 21 ↔
      x.digits * 10 ^ x.power.toNat < 10 ^ 21 := by
  have hpos : 0 < x.digits * 10 ^ x.power.toNat :=
    Nat.mul_pos (Nat.pos_of_ne_zero hdigits) (Nat.pow_pos (by decide))
  have hlength : (decimalText (x.digits * 10 ^ x.power.toNat)).length =
      (decimalText x.digits).length + x.power.toNat := by
    rw [← decimalText_mul_pow hdigits, List.length_append, zeros, List.length_replicate]
  rw [← Nat.length_toDigits_le_iff (by decide) (by decide)]
  rw [decimalText, List.length_map] at hlength
  omega

/-- A whole decimal below `10 ^ 21` is written by its digits and zeros. -/
theorem text_of_lt {x : Decimal} (hpower : 0 ≤ x.power) (hdigits : x.digits ≠ 0)
    (hlt : x.digits * 10 ^ x.power.toNat < 10 ^ 21) :
    x.text = decimalText (x.digits * 10 ^ x.power.toNat) := by
  have hpoint := (point_le_iff hpower hdigits).2 hlt
  have hcount : ((decimalText x.digits).length : Int) + x.power - (decimalText x.digits).length =
      x.power := by omega
  rw [text, if_pos ⟨by omega, hpoint⟩, hcount, decimalText_mul_pow hdigits]

/-- From `10 ^ 21` on a whole decimal is written in scientific form. -/
theorem scientific_text {x : Decimal} (hpower : 0 ≤ x.power) (hdigits : x.digits ≠ 0)
    (hle : 10 ^ 21 ≤ x.digits * 10 ^ x.power.toNat) : Scientific x.text := by
  have hpoint : ¬((decimalText x.digits).length : Int) + x.power ≤ 21 :=
    fun h => Nat.not_lt.2 hle ((point_le_iff hpower hdigits).1 h)
  obtain ⟨lead, mantissa, hlist, hlead⟩ := decimalText_eq_cons x.digits
  have hall : ∀ u ∈ mantissa, Text.isDigit u = true := fun u hu =>
    isDigit_of_mem_decimalText (n := x.digits) (by rw [hlist]; exact List.mem_cons_of_mem _ hu)
  rw [hlist] at hpoint
  unfold text
  rw [hlist]
  obtain ⟨e, he⟩ : ∃ e : Nat, ((lead :: mantissa).length : Int) + x.power - 1 = .ofNat e :=
    ⟨(((lead :: mantissa).length : Int) + x.power - 1).toNat, by simp; omega⟩
  rw [if_neg (fun h => hpoint h.2), if_neg (fun h => hpoint h.2), if_neg (by omega)]
  cases mantissa with
  | nil =>
    refine ⟨lead, [], e, ?_, hlead, by simp⟩
    simp only [he, exponentText]
    rfl
  | cons second others =>
    refine ⟨lead, fullStop :: second :: others, e, ?_, hlead, ?_⟩
    · simp only [he, exponentText]
    · intro u hu
      rcases List.mem_cons.1 hu with rfl | hu
      · exact .inr rfl
      · exact .inl (hall u hu)

end Decimal

/-! ## The text of a count -/

namespace Double

/-- A double that is a natural number is written without a sign. -/
theorem text_of_toNat {d : Double} {n : Nat} (h : d.toNat? = some n) :
    d.wholeMagnitude? = some n ∧ d.text = d.magnitudeText := by
  unfold toNat? at h
  split at h
  next m hm =>
    split at h
    · contradiction
    next hsign =>
      obtain rfl := Option.some.inj h
      have hfinite := isFinite_of_wholeMagnitude hm
      have hnan : d.isNaN = false := by
        have : d.exponentField ≠ 2047 := by simpa [isFinite] using hfinite
        simp [isNaN, this]
      have hneg : (d.isNegative && !d.isZero) = false := by
        by_cases h0 : m = 0
        · rw [h0] at hm
          simp [isZero_of_wholeMagnitude hm]
        · have : d.isNegative = false := by simpa [h0] using hsign
          simp [this]
      refine ⟨hm, ?_⟩
      simp only [text, hnan, hfinite, hneg, Bool.false_eq_true, if_false, if_true]
  · contradiction

end Double

namespace Count

/-- A number by whose digits a count is written: the count itself below `2 ^ 53`, and from there on
one that rounds to it. -/
structure WrittenAs (c : Count) (n : Nat) : Prop where
  text : c.text = decimalText n
  exact : c.value < 2 * Double.fractionCount → n = c.value
  rounds : 2 * Double.fractionCount ≤ c.value →
    (RoundingInterval.ofDouble c.number).holds n 1 = true

/-- The text of a great count is that of its shortest decimal. -/
theorem text_of_le {c : Count} (h : 2 * Double.fractionCount ≤ c.value) :
    c.number.wholeMagnitude? = some c.value ∧ c.text = (Decimal.shortest c.number).text := by
  obtain ⟨hwhole, htext⟩ := Double.text_of_toNat c.exact
  rw [Count.text, htext, Double.magnitudeText, hwhole]
  exact ⟨rfl, if_neg (Nat.not_lt.2 h)⟩

/-- A count below `10 ^ 21` is written by digits. -/
theorem exists_writtenAs {c : Count} (h : c.value < 10 ^ 21) : ∃ n, c.WrittenAs n := by
  by_cases hsmall : c.value < 2 * Double.fractionCount
  · obtain ⟨hwhole, htext⟩ := Double.text_of_toNat c.exact
    refine ⟨c.value, ?_, fun _ => rfl, fun hle => absurd hsmall (Nat.not_lt.2 hle)⟩
    rw [Count.text, htext, Double.magnitudeText, hwhole]
    exact if_pos hsmall
  · have hle := Nat.not_lt.1 hsmall
    obtain ⟨hwhole, htext⟩ := text_of_le hle
    obtain ⟨hpower, hdigits, hholds⟩ := Decimal.shortest_of_le hwhole hle
    have hlt := (Decimal.shortest_lt_iff hwhole hle).2 h
    refine ⟨_, ?_, fun hlt => absurd hlt hsmall, fun _ => hholds⟩
    rw [htext, Decimal.text_of_lt hpower hdigits hlt]

/-- From `10 ^ 21` on a count is written in scientific form. -/
theorem scientific_text {c : Count} (h : 10 ^ 21 ≤ c.value) : Decimal.Scientific c.text := by
  have hle : 2 * Double.fractionCount ≤ c.value := by
    unfold Double.fractionCount
    omega
  obtain ⟨hwhole, htext⟩ := text_of_le hle
  obtain ⟨hpower, hdigits, -⟩ := Decimal.shortest_of_le hwhole hle
  rw [htext]
  apply Decimal.scientific_text hpower hdigits
  exact Nat.not_lt.1 (fun hlt => Nat.not_lt.2 h ((Decimal.shortest_lt_iff hwhole hle).1 hlt))

/-- What is written for a count from `2 ^ 53` on is infinite for the engine. -/
theorem WrittenAs.infinite {c : Count} {n : Nat} (h : c.WrittenAs n)
    (hle : 2 * Double.fractionCount ≤ c.value) : infiniteCount ≤ n := by
  obtain ⟨hwhole, -⟩ := text_of_le hle
  obtain ⟨k, hk, hmul⟩ := Double.eq_mul_of_le hwhole hle
  have hnear := RoundingInterval.near_of_holds hk hmul (h.rounds hle)
  have hnormal := Double.significand_of_scale hk
  unfold Double.fractionCount at hle hnormal
  have hspacing : 2 * 2 ^ k ≤ c.value := by
    rw [hmul]
    exact Nat.mul_le_mul_right _ (by omega)
  unfold infiniteCount
  omega

/-- A count is written by the digits of a number or in scientific form. -/
theorem text_cases (c : Count) : (∃ n, c.WrittenAs n) ∨ Decimal.Scientific c.text := by
  by_cases h : c.value < 10 ^ 21
  · exact .inl (exists_writtenAs h)
  · exact .inr (scientific_text (Nat.not_lt.1 h))

end Count

end PatternAlgebra
