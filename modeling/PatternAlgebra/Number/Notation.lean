import PatternAlgebra.Number.Decimal
import PatternAlgebra.Text.Digits

/-!
# Written numbers

Counts and codes are written in the shortest decimal form. Positional notation is kept while the
decimal point stands at most twenty-one places after the first digit or at most six before it;
beyond that one digit stands before the point and a signed exponent follows.
-/

namespace PatternAlgebra

/-- So many zeros. -/
def zeros (n : Nat) : Text := List.replicate n 0x30

/-- The exponent part: `e`, a sign, the digits. -/
def exponentText (e : Int) : Text :=
  match e with
  | .ofNat n => 0x65 :: plus :: decimalText n
  | .negSucc n => 0x65 :: hyphen :: decimalText (n + 1)

/-- A positive decimal, whose last digit is not zero. -/
def Decimal.text (x : Decimal) : Text :=
  let digits := decimalText x.digits
  let count := digits.length
  let point : Int := count + x.power
  if count ≤ point ∧ point ≤ 21 then digits ++ zeros (point - count).toNat
  else if 0 < point ∧ point ≤ 21 then
    digits.take point.toNat ++ fullStop :: digits.drop point.toNat
  else if -6 < point ∧ point ≤ 0 then utf16 "0." ++ zeros (-point).toNat ++ digits
  else
    match digits with
    | [digit] => digit :: exponentText (point - 1)
    | lead :: others => lead :: fullStop :: others ++ exponentText (point - 1)
    | [] => []

namespace Double

/-- The magnitude of a finite double. A whole number below `2 ^ 53` has no shorter decimal than
its own digits. -/
def magnitudeText (d : Double) : Text :=
  match d.wholeMagnitude? with
  | some n => if n < 2 * fractionCount then decimalText n else (Decimal.shortest d).text
  | none => (Decimal.shortest d).text

/-- The written form of a double; zero has no sign. -/
def text (d : Double) : Text :=
  if d.isNaN then utf16 "NaN"
  else
    let magnitude := if d.isFinite then d.magnitudeText else utf16 "Infinity"
    if d.isNegative && !d.isZero then hyphen :: magnitude else magnitude

end Double

end PatternAlgebra
