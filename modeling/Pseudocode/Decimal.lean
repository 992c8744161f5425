/-!
# Decimal numbers

A decimal number is a whole number of powers of ten.  The same number has many such forms (`12`
and `120` tenths); what matters to the rest of the library is only the quotient
`numerator / denominator`.
-/

namespace Pseudocode

/-- The number `significand * 10 ^ exponent`. -/
structure Decimal where
  significand : Nat
  exponent : Int
  deriving DecidableEq, Repr

namespace Decimal

/-- Numerator of a decimal number as a quotient of natural numbers. -/
def numerator (d : Decimal) : Nat := d.significand * Nat.pow 10 d.exponent.toNat

/-- Denominator of a decimal number as a quotient of natural numbers. -/
def denominator (d : Decimal) : Nat := Nat.pow 10 (-d.exponent).toNat

theorem denominator_pos (d : Decimal) : 0 < d.denominator := Nat.pow_pos (by decide)

/-- Number of decimal digits of a natural number. -/
def digitCount (n : Nat) : Nat := (Nat.toDigits 10 n).length

/-- Where the first digit of a decimal number stands: a number other than zero lies between
`10 ^ (d.lead - 1)` and `10 ^ d.lead`. -/
def lead (d : Decimal) : Int := digitCount d.significand + d.exponent

end Decimal

/-- What becomes of a number that lies exactly half way between two candidates. -/
inductive Tie where
  | toEven
  | awayFromZero
  deriving DecidableEq, Repr

namespace Tie

/-- Whether a number half way between `q` and `q + 1` goes to `q + 1`. -/
def goesUp (tie : Tie) (q : Nat) : Bool :=
  match tie with
  | .toEven => q % 2 == 1
  | .awayFromZero => true

end Tie

/-- The whole number nearest to `n / d`, where `tie` decides the half-way case. -/
def roundDiv (tie : Tie) (n d : Nat) : Nat :=
  let q := n / d
  let r := n % d
  if 2 * r < d then q
  else if d < 2 * r then q + 1
  else if tie.goesUp q then q + 1 else q

/-- A quotient that is a whole number needs no rounding. -/
theorem roundDiv_mul_left (tie : Tie) (q : Nat) {d : Nat} (hd : 0 < d) :
    roundDiv tie (q * d) d = q := by
  simp [roundDiv, Nat.mul_div_cancel _ hd, hd]

end Pseudocode
