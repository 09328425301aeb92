import PatternAlgebra.Text.Class

/-!
# Decimal digits

Natural numbers are written without leading zeros. Reading takes leading zeros, and as many digits
as there are.
-/

namespace PatternAlgebra

/-- The decimal digits of a natural number. -/
def decimalText (n : Nat) : Text := (Nat.toDigits 10 n).map (fun c => c.toNat.toUInt16)

/-- Reads decimal digits behind a number already read. -/
def digitsFrom (n : Nat) : Text → Nat × Text
  | [] => (n, [])
  | u :: rest =>
    if Text.isDigit u then digitsFrom (10 * n + (u.toNat - 0x30)) rest else (n, u :: rest)

theorem length_digitsFrom (n : Nat) (t : Text) : (digitsFrom n t).2.length ≤ t.length := by
  induction t generalizing n with
  | nil => simp [digitsFrom]
  | cons u t ih =>
    unfold digitsFrom
    split
    · exact Nat.le_succ_of_le (ih _)
    · simp

/-- Reads a number: one digit or more. -/
def number? : Text → Option (Nat × Text)
  | [] => none
  | u :: rest => if Text.isDigit u then some (digitsFrom (u.toNat - 0x30) rest) else none

theorem length_number? {t rest : Text} {n : Nat} (h : number? t = some (n, rest)) :
    rest.length < t.length := by
  unfold number? at h
  split at h
  · contradiction
  next u r =>
    split at h
    · have hr : (digitsFrom (u.toNat - 0x30) r).2.length ≤ r.length := length_digitsFrom _ r
      rw [Option.some.inj h] at hr
      exact Nat.lt_succ_of_le hr
    · contradiction

/-! ## Reading what was written -/

/-- The unit of a digit. -/
def digitUnit (d : Nat) : CodeUnit := (Nat.digitChar d).toNat.toUInt16

theorem digitUnit_isDigit : ∀ d < 10, Text.isDigit (digitUnit d) = true := by decide

theorem toNat_digitUnit : ∀ d < 10, (digitUnit d).toNat - 0x30 = d := by decide

theorem decimalText_of_lt {n : Nat} (h : n < 10) : decimalText n = [digitUnit n] := by
  rw [decimalText, Nat.toDigits_of_lt_base h]
  rfl

theorem decimalText_of_le {n : Nat} (h : 10 ≤ n) :
    decimalText n = decimalText (n / 10) ++ [digitUnit (n % 10)] := by
  rw [decimalText, Nat.toDigits_of_base_le (by decide) h, List.map_append]
  rfl

/-- A number begins with a digit. -/
theorem decimalText_eq_cons (n : Nat) :
    ∃ u t, decimalText n = u :: t ∧ Text.isDigit u = true := by
  induction n using Nat.strongRecOn with
  | ind n ih =>
    by_cases h : n < 10
    · exact ⟨digitUnit n, [], decimalText_of_lt h, digitUnit_isDigit n h⟩
    · obtain ⟨u, t, ht, hu⟩ := ih (n / 10) (by omega)
      exact ⟨u, t ++ [digitUnit (n % 10)], by rw [decimalText_of_le (by omega), ht]; rfl, hu⟩

theorem digitsFrom_digit {u : CodeUnit} (h : Text.isDigit u = true) (n : Nat) (rest : Text) :
    digitsFrom n (u :: rest) = digitsFrom (10 * n + (u.toNat - 0x30)) rest := by
  rw [digitsFrom, if_pos h]

theorem digitsFrom_decimalText (n : Nat) (rest : Text) :
    digitsFrom 0 (decimalText n ++ rest) = digitsFrom n rest := by
  induction n using Nat.strongRecOn generalizing rest with
  | ind n ih =>
    by_cases h : n < 10
    · rw [decimalText_of_lt h, List.singleton_append, digitsFrom_digit (digitUnit_isDigit n h),
        toNat_digitUnit n h, Nat.mul_zero, Nat.zero_add]
    · have hd : n % 10 < 10 := Nat.mod_lt n (by decide)
      rw [decimalText_of_le (by omega), List.append_assoc, ih (n / 10) (by omega),
        List.singleton_append, digitsFrom_digit (digitUnit_isDigit _ hd), toNat_digitUnit _ hd,
        Nat.div_add_mod]

/-- A text that does not go on with a digit. -/
def endsNumber (t : Text) : Bool := !t.head?.any Text.isDigit

theorem digitsFrom_of_endsNumber {t : Text} (h : endsNumber t = true) (n : Nat) :
    digitsFrom n t = (n, t) := by
  cases t with
  | nil => rfl
  | cons u t =>
    have hu : Text.isDigit u = false := by simpa [endsNumber] using h
    rw [digitsFrom, hu]
    rfl

/-- A written number is read back. -/
theorem number?_decimalText (n : Nat) {rest : Text} (h : endsNumber rest = true) :
    number? (decimalText n ++ rest) = some (n, rest) := by
  have hread := digitsFrom_decimalText n rest
  obtain ⟨u, t, ht, hu⟩ := decimalText_eq_cons n
  rw [ht, List.cons_append] at hread ⊢
  rw [digitsFrom_digit hu, Nat.mul_zero, Nat.zero_add, digitsFrom_of_endsNumber h] at hread
  rw [number?, if_pos hu, hread]

end PatternAlgebra
