import Scribe.Number.Digits
import Scribe.Number.Double

/-!
# Numerals

The text of decimal digits, with a point or with an exponent, and the texts of doubles and singles
in the rendered code. `Numeral.restyle` turns the plain form of a numeral into the form of
the rendered code: no `.0` at the end of the mantissa, and an exponent as `E`, a sign and at least
two digits.
-/

namespace Scribe

namespace Numeral

/-- The natural that decimal digits spell out. -/
def readNat (digits : List Char) : Nat :=
  digits.foldl (fun n c => 10 * n + (c.toNat - '0'.toNat)) 0

/-- Whether a numeral has a minus, and what follows its sign. -/
def splitSign : List Char → Bool × List Char
  | '-' :: rest => (true, rest)
  | '+' :: rest => (false, rest)
  | rest => (false, rest)

/-- The integer that a sign and decimal digits spell out. -/
def readInt (numeral : List Char) : Int :=
  let (negative, digits) := splitSign numeral
  if negative then -(readNat digits : Int) else readNat digits

def zeros (n : Nat) : List Char := List.replicate n '0'

/-- Digits with a point after the first `point` of them, filled up with zeros on either side. -/
def positional (digits : List Char) (point : Int) : List Char :=
  if point ≤ 0 then '0' :: '.' :: zeros (-point).toNat ++ digits
  else if digits.length ≤ point then digits ++ zeros (point.toNat - digits.length)
  else digits.take point.toNat ++ '.' :: digits.drop point.toNat

/-- A natural in base ten with at least two digits. -/
def twoDigits (n : Nat) : List Char :=
  let digits := Nat.toDigits 10 n
  zeros (2 - digits.length) ++ digits

/-- Digits with a point after the first of them, followed by an exponent. -/
def scientific (digits : List Char) (exponent : Int) : List Char :=
  let mantissa := match digits with
    | first :: second :: rest => first :: '.' :: second :: rest
    | _ => digits
  mantissa ++ 'e' :: (if exponent < 0 then '-' else '+') :: twoDigits exponent.natAbs

/-- Drops the zeros at the end, but keeps the first digit. -/
def trimZeros : List Char → List Char
  | [] => []
  | first :: rest => first :: (rest.reverse.dropWhile (· == '0')).reverse

/-- Positional from `0.0001` up to the exponent `limit`, scientific outside. -/
def general (limit : Int) (digits : List Char) (order : Int) : List Char :=
  if order < -4 ∨ limit ≤ order then scientific digits order
  else positional digits (order + 1)

/-- Adds `.0` to a numeral that shows neither a point nor an exponent. -/
def withPoint (numeral : List Char) : List Char :=
  if numeral.any (fun c => c == '.' || c == 'e') then numeral else numeral ++ ['.', '0']

def signed (negative : Bool) (numeral : List Char) : List Char :=
  if negative then '-' :: numeral else numeral

/-- The fewest digits that read back as the double, positional below `1e16`. -/
def shortest (negative : Bool) (d : Dyadic) : List Char :=
  let digits := Digits.shortest d
  signed negative (withPoint (general 16 (trimZeros digits.chars) digits.order))

/-- Digits rounded to `count` places, without the zeros at their end, and positional up to `count`
places. -/
def significant (count : Nat) (negative : Bool) (digits : Digits) : List Char :=
  signed negative (general count (trimZeros digits.chars) digits.order)

/-- Drops `.0` from the end of a mantissa. -/
def dropPointZero (mantissa : List Char) : List Char :=
  match mantissa.reverse with
  | '0' :: '.' :: rest => rest.reverse
  | _ => mantissa

/-- The exponent with its sign and at least two characters after it. -/
def restyleExponent (exponent : List Char) : List Char :=
  let sign := match exponent with
    | '-' :: _ => '-'
    | _ => '+'
  let digits := exponent.dropWhile (fun c => c == '+' || c == '-')
  sign :: zeros (2 - digits.length) ++ digits

/-- Mantissa without `.0`, and `E` with a signed exponent of two digits or more. -/
def restyle (numeral : List Char) : List Char :=
  let mantissa := dropPointZero (numeral.takeWhile (· != 'e'))
  match numeral.dropWhile (· != 'e') with
  | [] => mantissa
  | _ :: exponent => mantissa ++ 'E' :: restyleExponent exponent

def infinity (negative : Bool) : String := if negative then "-Infinity" else "Infinity"

/-- The shortest text that reads back as the double. -/
def ofDouble : Double → String
  | .nan => "NaN"
  | .infinite negative => infinity negative
  | .finite negative magnitude => String.ofList (restyle (shortest negative magnitude))

/-- What a reader of doubles, and then of singles, makes of the digits; `none` when either finds
them too large. -/
def readSingle (digits : Digits) : Option Dyadic := do
  let double ← BinaryFormat.binary64.nearest digits.ratio
  BinaryFormat.binary32.nearest double.ratio

/-- The first of the candidates, by their count of digits, that reads back as `single`. Fails when
a candidate on the way does not fit a single. -/
def firstReadable (magnitude single : Dyadic) : List Nat → Option (Option (Nat × Digits))
  | [] => some none
  | count :: rest =>
    let digits := Digits.rounded count magnitude.ratio
    match readSingle digits with
    | none => none
    | some read => if read = single then some (some (count, digits))
      else firstReadable magnitude single rest

/-- The text of at most nine digits that reads back as the single nearest to the double, and the
shortest text of the double itself when nine do not suffice; `none` when something does not fit a
single. -/
def ofSingle? : Double → Option String
  | .nan => some "NaN"
  | .infinite negative => some (infinity negative)
  | .finite negative magnitude => do
    let single ← BinaryFormat.binary32.nearest magnitude.ratio
    match ← firstReadable magnitude single [1, 2, 3, 4, 5, 6, 7, 8, 9] with
    | some (count, digits) => some (String.ofList (restyle (significant count negative digits)))
    | none => some (String.ofList (restyle (shortest negative magnitude)))

end Numeral

end Scribe
