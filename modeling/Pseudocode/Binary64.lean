import Pseudocode.Decimal

/-!
# Binary64 numbers

A floating point literal is kept as its 64-bit word, so that the sign of zero and every last bit
survive, and no operation hides behind the machine's arithmetic.

Without its sign a finite word `w` denotes `significand w * 2 ^ scale w` quanta of `2 ^ (-1074)`.
With `scale w` counted from zero the word itself is `scale w * 2 ^ 52 + significand w`, for
subnormal and normal numbers alike, and a significand that rounding carries to `2 ^ 53` already
spells the next power of two.  Rounding a quotient to the nearest word is therefore one division.
-/

namespace Pseudocode

/-- A floating point number, given by its word. -/
structure Binary64 where
  bits : UInt64
  deriving DecidableEq, Repr

namespace Binary64

/-- The sign bit, `2 ^ 63`. -/
def signBit : Nat := 0x8000000000000000

/-- The place of the exponent in a word, and the leading bit of a normal significand: `2 ^ 52`. -/
def leadingBit : Nat := 0x10000000000000

/-- The unsigned word of infinity.  Smaller words are finite, greater ones not numbers. -/
def infinityWord : Nat := 0x7FF0000000000000

/-- Whether the sign bit is set. -/
def negative (x : Binary64) : Bool := signBit ≤ x.bits.toNat

/-- The word without its sign. -/
def magnitude (x : Binary64) : Nat := x.bits.toNat % signBit

/-- Whether a word denotes a real number. -/
def isFinite (x : Binary64) : Bool := x.magnitude < infinityWord

/-- Whether a word denotes no number at all. -/
def isNaN (x : Binary64) : Bool := infinityWord < x.magnitude

/-- The number with a given sign and unsigned word. -/
def ofSigned (negative : Bool) (word : Nat) : Binary64 :=
  ⟨UInt64.ofNat (if negative then signBit + word else word)⟩

/-- Numerical equality: the two zeros are equal, and what is not a number equals nothing. -/
def equals (x y : Binary64) : Bool :=
  !x.isNaN && !y.isNaN && (x.bits == y.bits || x.magnitude == 0 && y.magnitude == 0)

/-- The word that stands for everything that is not a number. -/
def quietNaN : UInt64 := 0x7FF8000000000000

/-- The word in sixteen lower-case hexadecimal digits. -/
def hex (x : Binary64) : String :=
  let digits := Nat.toDigits 16 (if x.isNaN then quietNaN else x.bits).toNat
  String.ofList (List.replicate (16 - digits.length) '0' ++ digits)

/-! ### The exact value of a word -/

/-- The power of two by which the quanta of an unsigned word are scaled. -/
def scale (w : Nat) : Nat := w / leadingBit - 1

/-- The significand of an unsigned word, with its leading bit. -/
def significand (w : Nat) : Nat := w - scale w * leadingBit

/-- The value of a finite unsigned word, in quanta. -/
def quanta (w : Nat) : Nat := significand w * Nat.pow 2 (scale w)

/-- The number of quanta in one. -/
def quantaPerUnit : Nat := Nat.pow 2 1074

/-! ### Rounding to the nearest word -/

/-- The unsigned word nearest to `n / d`, the even one of two that are equally near.  A result that
is not below `infinityWord` says that the quotient is too large. -/
def nearestWord (n d : Nat) : Nat :=
  let n := n * quantaPerUnit
  let s := Nat.log2 (n / d) - 52
  s * leadingBit + roundDiv .toEven n (d * Nat.pow 2 s)

end Binary64

namespace Decimal

/-- A number whose first digit stands further left than this is too large for any word. -/
def greatestLead : Int := 310

/-- A number whose first digit stands further right than this rounds to zero. -/
def leastLead : Int := -330

/-- The unsigned word nearest to a decimal number.  Numbers far outside the range of the words are
told by the place of their first digit, so that no power of ten has to be written out for them. -/
def word (d : Decimal) : Nat :=
  if d.significand = 0 then 0
  else if greatestLead < d.lead then Binary64.infinityWord
  else if d.lead < leastLead then 0
  else Binary64.nearestWord d.numerator d.denominator

end Decimal

namespace Binary64

/-- The number nearest to a decimal, with the given sign; `none` if it is too large. -/
def ofDecimal? (negative : Bool) (d : Decimal) : Option Binary64 :=
  if d.word < infinityWord then some (ofSigned negative d.word) else none

end Binary64

end Pseudocode
