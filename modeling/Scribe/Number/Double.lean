import Scribe.Number.Binary

/-!
# Double-precision numbers
-/

namespace Scribe

/-- A 64-bit floating-point number. Its zeros are signed. -/
inductive Double
  | finite (negative : Bool) (magnitude : Dyadic)
  | infinite (negative : Bool)
  | nan
deriving DecidableEq, Repr

namespace Double

/-- Reads sign, exponent and fraction off the 64 bits of the interchange format. -/
def ofBits (bits : UInt64) : Double :=
  let negative := decide (0x8000000000000000 ≤ bits.toNat)
  let exponent : Nat := bits.toNat / 0x10000000000000 % 0x800
  let fraction : Nat := bits.toNat % 0x10000000000000
  if exponent = 2047 then
    if fraction = 0 then .infinite negative else .nan
  else if exponent = 0 then .finite negative ⟨fraction, -1074⟩
  else .finite negative ⟨0x10000000000000 + fraction, (exponent : Int) - 1075⟩

/-- The double nearest to an integer; `none` when the integer is too large for one. -/
def ofInt? (n : Int) : Option Double :=
  (BinaryFormat.binary64.nearest (.ofNat n.natAbs)).map (.finite (n < 0))

end Double

end Scribe
