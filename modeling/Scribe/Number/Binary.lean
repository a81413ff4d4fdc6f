import Scribe.Number.Ratio

/-!
# Binary floating-point formats

A format keeps `precision` bits and bounds the exponent on both sides. `BinaryFormat.nearest` rounds
any ratio to it, ties to even, and says when the result leaves the finite range.
-/

namespace Scribe

/-- The number `mantissa * 2 ^ exponent`. -/
structure Dyadic where
  mantissa : Nat
  exponent : Int
deriving DecidableEq, Repr

namespace Dyadic

def ratio (d : Dyadic) : Ratio := (Ratio.ofNat d.mantissa).scale 2 d.exponent

end Dyadic

/-- Mantissas below `2 ^ precision`, exponents from `minExponent` to `maxExponent`. -/
structure BinaryFormat where
  precision : Nat
  minExponent : Int
  maxExponent : Int
deriving DecidableEq, Repr

namespace BinaryFormat

def binary64 : BinaryFormat := ⟨53, -1074, 971⟩

def binary32 : BinaryFormat := ⟨24, -149, 104⟩

/-- The exponent of the last bit kept of `r`. -/
def lastBit (f : BinaryFormat) (r : Ratio) : Int :=
  if r.num = 0 then f.minExponent else max f.minExponent (r.order 2 - f.precision + 1)

/-- A mantissa that was rounded up to one bit too many is halved. -/
def carry (f : BinaryFormat) (mantissa : Nat) (exponent : Int) : Dyadic :=
  if mantissa = Nat.pow 2 f.precision then ⟨Nat.pow 2 (f.precision - 1), exponent + 1⟩
  else ⟨mantissa, exponent⟩

/-- The number of the format nearest to `r`, ties to the even mantissa; `none` past the largest. -/
def nearest (f : BinaryFormat) (r : Ratio) : Option Dyadic :=
  let exponent := f.lastBit r
  let rounded := f.carry (r.scale 2 (-exponent)).round exponent
  if rounded.exponent ≤ f.maxExponent then some rounded else none

end BinaryFormat

end Scribe
