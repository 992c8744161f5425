/-!
# Addresses

Every node carries the address of the machine code it came from.  Addresses are 64-bit words; the
all-ones word marks a node that was made up by the decompiler and comes from nowhere.
-/

namespace Pseudocode

/-- An address in the analysed program. -/
abbrev Address := UInt64

namespace Address

/-- The address of a node that has none. -/
def unknown : Address := 0xFFFFFFFFFFFFFFFF

/-- An address as it is printed: `0x` and upper-case hexadecimal digits without padding. -/
def text (a : Address) : String :=
  "0x" ++ String.ofList ((Nat.toDigits 16 a.toNat).map Char.toUpper)

end Address

end Pseudocode
