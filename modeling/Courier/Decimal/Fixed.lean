-- Whole-number text of a double: the exact value rounded to an integer, halves to even, every digit
-- written out.
import Courier.Decimal.Shortest

namespace Courier.Decimal

/-- `m / 2^k` rounded to the nearest integer, a half going to the even one. -/
def roundShift (m k : Nat) : Nat :=
  let q := m / Nat.pow 2 k
  let r := m % Nat.pow 2 k
  if 2 * r < Nat.pow 2 k then q
  else if 2 * r > Nat.pow 2 k then q + 1
  else if q % 2 == 0 then q else q + 1

/-- The integer nearest to a finite double's size, a half going to the even one. -/
def Binary.roundWhole (b : Binary) : Nat :=
  if 0 ≤ b.exp then b.mant * Nat.pow 2 b.exp.toNat else roundShift b.mant (-b.exp).toNat

/-- A double rounded to a whole number and written in full: `NaN`, `inf` and `-inf` for the
values that have no digits. -/
def wholeText (x : Float) : String :=
  match Binary.classify x with
  | .nan => "NaN"
  | .infinite neg => if neg then "-inf" else "inf"
  | .finite b => (if b.neg then "-" else "") ++ toString b.roundWhole

end Courier.Decimal
