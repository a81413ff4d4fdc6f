import Scribe.Number.Decimal

/-!
# Scalars

The values of literals, and of every other slot of a code model that holds plain data.
-/

namespace Scribe

/-- A plain value. A NaN is equal to itself and to no other, and `mark` tells the NaNs of a model
apart; no other number looks at it. -/
inductive Scalar
  | null
  | bool (value : Bool)
  | int (value : Int)
  | real (value : Double) (mark : Nat)
  | decimal (value : Decimal) (mark : Nat)
  | text (value : String)
  | bytes (value : List UInt8)
deriving DecidableEq, Repr

namespace Scalar

/-- Whether a scalar counts as given: zeros and empty texts do not. -/
def isSet : Scalar → Bool
  | .null => false
  | .bool b => b
  | .int n => n != 0
  | .real (.finite _ magnitude) _ => magnitude.mantissa != 0
  | .real .. => true
  | .decimal (.finite _ digits) _ => digits.coefficient != 0
  | .decimal .. => true
  | .text s => !s.isEmpty
  | .bytes b => !b.isEmpty

def isText : Scalar → Bool
  | .text _ => true
  | _ => false

/-- Changes a text, and leaves all else as it is. -/
def mapText (f : String → String) : Scalar → Scalar
  | .text s => .text (f s)
  | s => s

/-- What a number is for the purpose of comparing it. Every finite number has a decimal expansion
that ends. -/
inductive Magnitude
  | finite (negative : Bool) (size : Digits)
  | infinite (negative : Bool)
  | nan (mark : Nat)

namespace Magnitude

/-- Equality by exact value: both zeros are one number, and a NaN equals only itself. -/
def same : Magnitude → Magnitude → Bool
  | .finite n a, .finite m b => a.same b && (n == m || a.coefficient == 0)
  | .infinite n, .infinite m => n == m
  | .nan i, .nan j => i == j
  | _, _ => false

end Magnitude

/-- Truth values count as the numbers one and zero. -/
def magnitude? : Scalar → Option Magnitude
  | .bool b => some (.finite false ⟨b.toNat, 0⟩)
  | .int n => some (.finite (n < 0) ⟨n.natAbs, 0⟩)
  | .real (.finite negative magnitude) _ => some (.finite negative (.expansion magnitude))
  | .real (.infinite negative) _ => some (.infinite negative)
  | .real .nan mark => some (.nan mark)
  | .decimal (.finite negative digits) _ => some (.finite negative digits)
  | .decimal (.infinite negative) _ => some (.infinite negative)
  | .decimal (.nan ..) mark => some (.nan mark)
  | _ => none

/-- Numbers of every kind are equal by value, and all else only to its own kind. It is assumed that no
signaling NaN of a decimal is compared with a number: that would be an error, and here such a NaN is
only equal to no other number. -/
def same (a b : Scalar) : Bool :=
  match a.magnitude?, b.magnitude? with
  | some m, some n => m.same n
  | none, none => a == b
  | _, _ => false

end Scalar

end Scribe
