/-!
# Ratios of naturals

Rounding to a binary format and to a number of decimal digits both ask the same two things of a
non-negative number: which power of a base it reaches, and which natural is nearest to it. Ratios
are kept as they come, not in lowest terms.
-/

namespace Scribe

/-- The non-negative number `num / den`; `den` is positive wherever one is built here. -/
structure Ratio where
  num : Nat
  den : Nat
deriving DecidableEq, Repr

namespace Ratio

def ofNat (n : Nat) : Ratio := ⟨n, 1⟩

/-- The ratio times `base ^ exponent`. -/
def scale (r : Ratio) (base : Nat) (exponent : Int) : Ratio :=
  ⟨r.num * Nat.pow base exponent.toNat, r.den * Nat.pow base (-exponent).toNat⟩

/-- Whether `a` and `b` are the same number. -/
def same (a b : Ratio) : Bool := a.num * b.den == b.num * a.den

def isLE (a b : Ratio) : Bool := decide (a.num * b.den ≤ b.num * a.den)

/-- The absolute difference of `a` and `b`. -/
def distance (a b : Ratio) : Ratio :=
  ⟨(a.num * b.den - b.num * a.den) + (b.num * a.den - a.num * b.den), a.den * b.den⟩

def floor (r : Ratio) : Nat := r.num / r.den

/-- The natural nearest to `r`; a half goes to the even neighbour. -/
def round (r : Ratio) : Nat :=
  let below := r.num / r.den
  let rest := r.num % r.den
  if r.den < 2 * rest then below + 1
  else if 2 * rest = r.den then below + below % 2
  else below

/-- How many digits `n` has in `base`. -/
def digitCount (base n : Nat) : Nat := (Nat.toDigits base n).length

/-- The largest exponent whose power of `base` is at most `r`, for `r` positive. -/
def order (r : Ratio) (base : Nat) : Int :=
  let guess : Int := (digitCount base r.num : Int) - (digitCount base r.den : Int)
  if ((ofNat 1).scale base guess).isLE r then guess else guess - 1

end Ratio

end Scribe
