import Pseudocode.Decimal.Shortest

/-!
# Numerals

A numeral is a number as it is written: a sign, a whole part, the digits after the point and
perhaps a power of ten.  `1`, `1.0` and `1e0` are different numerals for one number, and some
readers tell them apart.

A `Layout` collects the decisions that turn a floating point number into a numeral.  The digits
themselves are always the shortest ones that read back.
-/

namespace Pseudocode

/-- A decimal number as it is written. -/
structure Numeral where
  negative : Bool
  whole : Nat
  fraction : List Char
  exponent : Option Int
  deriving DecidableEq, Repr

namespace Numeral

/-- The numeral of an integer. -/
def ofInt (n : Int) : Numeral := ⟨n < 0, n.natAbs, [], none⟩

/-- The numeral of a natural number. -/
def ofNat (n : Nat) : Numeral := ⟨false, n, [], none⟩

/-- Whether a numeral is written with digits alone, apart from its sign. -/
def isPlain (n : Numeral) : Bool := n.fraction.isEmpty && n.exponent.isNone

/-- The integer that a numeral is written as.  Negative zero is no integer. -/
def toInt? (n : Numeral) : Option Int :=
  if n.isPlain then
    if n.negative then
      if n.whole = 0 then none else some (-(n.whole : Int))
    else some n.whole
  else none

/-- The number that a numeral denotes, without its sign. -/
def toDecimal (n : Numeral) : Decimal :=
  ⟨Nat.ofDigitChars 10 n.fraction n.whole, n.exponent.getD 0 - n.fraction.length⟩

/-- The floating point number nearest to a numeral; `none` if it is too large. -/
def toBinary64? (n : Numeral) : Option Binary64 := Binary64.ofDecimal? n.negative n.toDecimal

/-- A power of ten as a numeral shows it; `plus` asks for the sign of a positive one. -/
def exponentText (plus : Bool) (e : Int) : String :=
  "e" ++ (if e < 0 then "-" else if plus then "+" else "") ++ toString e.natAbs

/-- A numeral as text. -/
def text (plus : Bool) (n : Numeral) : String :=
  (if n.negative then "-" else "") ++ toString n.whole
    ++ (if n.fraction.isEmpty then "" else "." ++ String.ofList n.fraction)
    ++ (match n.exponent with
      | some e => exponentText plus e
      | none => "")

end Numeral

/-- How floating point numbers are written. -/
structure Layout where
  /-- Whether a number `d.ddd * 10 ^ e` is written without a power of ten. -/
  positional : Int → Bool
  /-- Whether a whole number is written with a point and a zero. -/
  keepsPoint : Bool
  /-- Whether a positive power of ten has a sign. -/
  plus : Bool
  /-- Which of two equally near shortest decimals is written. -/
  tie : Tie

namespace Layout

/-- The digits `ds` with the point after the first `point` of them, and no power of ten. -/
def place (l : Layout) (negative : Bool) (ds : List Char) (point : Int) : Numeral :=
  let ds := List.replicate (-point).toNat '0' ++ ds
  let whole := ds.take point.toNat ++ List.replicate (point.toNat - ds.length) '0'
  let fraction := ds.drop point.toNat
  ⟨negative, Nat.ofDigitChars 10 whole 0,
    if fraction.isEmpty && l.keepsPoint then ['0'] else fraction, none⟩

/-- The digits `ds` with the point after the first one, and a power of ten. -/
def scientific (negative : Bool) (ds : List Char) (point : Int) : Numeral :=
  ⟨negative, Nat.ofDigitChars 10 (ds.take 1) 0, ds.drop 1, some (point - 1)⟩

/-- The numeral of a finite number. -/
def numeral (l : Layout) (x : Binary64) : Numeral :=
  if x.magnitude = 0 then l.place x.negative [] 0
  else
    let d := Binary64.shortest l.tie x.magnitude
    let ds := ((Nat.toDigits 10 d.significand).reverse.dropWhile (· == '0')).reverse
    if l.positional (d.lead - 1) then l.place x.negative ds d.lead
    else scientific x.negative ds d.lead

/-- A floating point number as text. -/
def text (l : Layout) (x : Binary64) : String :=
  if x.isNaN then "NaN"
  else if x.isFinite then (l.numeral x).text l.plus
  else if x.negative then "-inf" else "inf"

end Layout

end Pseudocode
