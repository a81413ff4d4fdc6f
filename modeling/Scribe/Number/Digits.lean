import Scribe.Number.Binary

/-!
# Decimal digits of a ratio

Two ways to choose decimal digits for a number: a given count of significant digits, correctly
rounded, and the fewest digits that read back as the same number of a binary format.
-/

namespace Scribe

/-- The number `coefficient * 10 ^ exponent`. -/
structure Digits where
  coefficient : Nat
  exponent : Int
deriving DecidableEq, Repr

namespace Digits

def ratio (d : Digits) : Ratio := (Ratio.ofNat d.coefficient).scale 10 d.exponent

/-- The decimal digits of the coefficient, at least one. -/
def chars (d : Digits) : List Char := Nat.toDigits 10 d.coefficient

/-- The exponent of the first digit. -/
def order (d : Digits) : Int := d.exponent + (d.chars.length - 1 : Nat)

/-- The number as a multiple of `10 ^ place`, for a place at or below the exponent. -/
def aligned (d : Digits) (place : Int) : Nat :=
  d.coefficient * Nat.pow 10 (d.exponent - place).toNat

/-- Whether `a` and `b` are the same number. They are brought to one exponent only when their first
digits stand at one place: then no more zeros are added than the other number has digits, however
far the exponents lie from zero. -/
def same (a b : Digits) : Bool :=
  if a.coefficient = 0 ∨ b.coefficient = 0 then a.coefficient == b.coefficient
  else a.order == b.order &&
    a.aligned (min a.exponent b.exponent) == b.aligned (min a.exponent b.exponent)

/-- The exponent of the last of `count` significant digits of `r`. -/
def lastPlace (count : Nat) (r : Ratio) : Int :=
  if r.num = 0 then 0 else r.order 10 - count + 1

/-- The ratio to `count` significant digits, a half to the even last digit. -/
def rounded (count : Nat) (r : Ratio) : Digits :=
  let place := lastPlace count r
  ⟨(r.scale 10 (-place)).round, place⟩

/-- The two numbers of `count` digits around `r`. -/
def neighbours (count : Nat) (r : Ratio) : Digits × Digits :=
  let place := lastPlace count r
  let below := (r.scale 10 (-place)).floor
  (⟨below, place⟩, ⟨below + 1, place⟩)

/-- Of two candidates the one nearer to `r`; when they are equally near, the even one. -/
def nearer (r : Ratio) (below above : Digits) : Digits :=
  let down := below.ratio.distance r
  let up := above.ratio.distance r
  if down.same up then (if below.coefficient % 2 = 0 then below else above)
  else if down.isLE up then below else above

/-- The best number of `count` digits that `format` reads as `d`, if there is one. -/
def readable? (format : BinaryFormat) (d : Dyadic) (count : Nat) : Option Digits :=
  let (below, above) := neighbours count d.ratio
  let reads (c : Digits) : Bool := format.nearest c.ratio == some d
  match reads below, reads above with
  | true, true => some (nearer d.ratio below above)
  | true, false => some below
  | false, true => some above
  | false, false => none

/-- All digits of a dyadic number: a half is five tenths. -/
def expansion (d : Dyadic) : Digits :=
  ⟨d.mantissa * Nat.pow 2 d.exponent.toNat * Nat.pow 5 (-d.exponent).toNat, min d.exponent 0⟩

/-- The fewest digits that read back as the double `d`, and of those the nearest to it. Seventeen
are enough for every double; the whole expansion stands in for a number that is none. -/
def shortest (d : Dyadic) : Digits :=
  ((List.range 17).findSome? fun n => readable? .binary64 d (n + 1)).getD (expansion d)

end Digits

end Scribe
