import Pseudocode.Binary64

/-!
# Shortest decimals

Among the decimals that are read back as a given binary64 number, the shortest has the fewest
digits, and of the shortest ones the nearest is taken.  For each number of digits only the two
neighbours of the value on that decimal grid have to be tried: if any point of the grid is read
back, so is one of them.  Seventeen digits always suffice; the exact expansion stands behind them,
so that what is found reads back by construction.
-/

namespace Pseudocode

namespace Binary64

/-- Decimal places that keep every digit position of the smallest word to the left of the point. -/
def headroom : Nat := 340

/-- Where the first digit of the value of an unsigned word other than zero stands. -/
def lead (w : Nat) : Int :=
  Decimal.digitCount (quanta w * Nat.pow 10 headroom / quantaPerUnit) - (headroom : Int)

/-- The value of an unsigned word, digit by digit. -/
def exactDecimal (w : Nat) : Decimal := ⟨quanta w * Nat.pow 5 1074, -1074⟩

/-- The decimal with `digits` digits that is read back as the unsigned word `w`, if there is one.
Of two such neighbours the nearer is taken; `tie` decides between equally near ones. -/
def neighbour? (tie : Tie) (w digits : Nat) : Option Decimal :=
  let e := lead w - (digits : Int)
  let n := quanta w * Nat.pow 10 (-e).toNat
  let d := quantaPerUnit * Nat.pow 10 e.toNat
  let below : Decimal := ⟨n / d, e⟩
  let above : Decimal := ⟨n / d + 1, e⟩
  if below.word = w then
    if above.word = w then some ⟨roundDiv tie n d, e⟩ else some below
  else if above.word = w then some above
  else none

/-- The shortest decimal that is read back as the unsigned word `w`. -/
def shortest (tie : Tie) (w : Nat) : Decimal :=
  ((List.range' 1 17).findSome? (neighbour? tie w)).getD (exactDecimal w)

end Binary64

end Pseudocode
