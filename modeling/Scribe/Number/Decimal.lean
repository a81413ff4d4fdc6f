import Scribe.Number.Numeral

/-!
# Decimal numbers

Numbers that keep their digits and their exponent: `2.50` is not `2.5`, though they are equal.
-/

namespace Scribe

inductive Decimal
  | finite (negative : Bool) (digits : Digits)
  | infinite (negative : Bool)
  /-- Not a number; `payload` is the text of its diagnostic digits, often empty. -/
  | nan (negative signaling : Bool) (payload : String)
deriving DecidableEq, Repr

namespace Decimal

/-- A special value from its lower-case name and the text after it. -/
def named? (negative : Bool) (name text : List Char) : Option Decimal :=
  let payload (skipped : Nat) := String.ofList ((text.drop skipped).dropWhile (· == '0'))
  if "snan".toList.isPrefixOf name then some (.nan negative true (payload 4))
  else if "nan".toList.isPrefixOf name then some (.nan negative false (payload 3))
  else if "inf".toList.isPrefixOf name then some (.infinite negative)
  else none

/-- The digits of a numeral with or without a point and an exponent after `e`. -/
def digitsOf (numeral : List Char) : Digits :=
  let mantissa := numeral.takeWhile (· != 'e')
  let whole := mantissa.takeWhile (· != '.')
  let fraction := (mantissa.dropWhile (· != '.')).drop 1
  ⟨Numeral.readNat (whole ++ fraction),
    Numeral.readInt ((numeral.dropWhile (· != 'e')).drop 1) - fraction.length⟩

/-- The decimal that a text spells out, in letters of either case. -/
def ofString (s : String) : Decimal :=
  let (negative, text) := Numeral.splitSign s.toList
  let name := text.map Char.toLower
  (named? negative name text).getD (.finite negative (digitsOf name))

def ofInt (n : Int) : Decimal := .finite (n < 0) ⟨n.natAbs, 0⟩

def special (negative : Bool) (word : String) : String := if negative then "-" ++ word else word

/-- All digits written out, without an exponent. Zeros after a zero are dropped. -/
def plain : Decimal → String
  | .infinite negative => special negative "Infinity"
  | .nan negative signaling payload =>
    special negative ((if signaling then "sNaN" else "NaN") ++ payload)
  | .finite negative digits =>
    let shown := if digits.coefficient = 0 ∧ 0 < digits.exponent then ⟨0, 0⟩ else digits
    String.ofList (Numeral.signed negative (Numeral.positional shown.chars (shown.order + 1)))

/-- Scientific text: an exponent appears only where zeros would be added on the right, or more than
five after the point. -/
def scientific : Decimal → String
  | .finite negative digits =>
    let order := digits.order
    if digits.exponent ≤ 0 ∧ -7 < order then
      String.ofList (Numeral.signed negative (Numeral.positional digits.chars (order + 1)))
    else
      let mantissa := String.ofList (Numeral.signed negative (Numeral.positional digits.chars 1))
      mantissa ++ "E" ++ (if order < 0 then "-" else "+") ++ toString order.natAbs
  | d => d.plain

end Decimal

end Scribe
