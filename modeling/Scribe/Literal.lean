import Scribe.Style
import Scribe.Tree.Display
import Scribe.Tree.View

/-!
# Literals

The text of a literal at its kind. A literal without a kind takes the kind of its value: integers
are 32-bit where they fit, then 64-bit, then unsigned. The program is there for messages: what a
literal should not hold is shown in them, and may be an entity.
-/

namespace Scribe

/-- A width in bits and whether the numbers are signed. -/
structure IntegerKind where
  bits : Nat
  signed : Bool
deriving DecidableEq, Repr

namespace IntegerKind

def ofName? : String → Option IntegerKind
  | "sbyte" => some ⟨8, true⟩
  | "byte" => some ⟨8, false⟩
  | "int16" => some ⟨16, true⟩
  | "uint16" => some ⟨16, false⟩
  | "int32" => some ⟨32, true⟩
  | "uint32" => some ⟨32, false⟩
  | "int64" => some ⟨64, true⟩
  | "uint64" => some ⟨64, false⟩
  | _ => none

/-- The least integer of the kind. -/
def least (k : IntegerKind) : Int := if k.signed then -(Nat.pow 2 (k.bits - 1) : Nat) else 0

/-- The first integer past the greatest of the kind. -/
def bound (k : IntegerKind) : Int := (Nat.pow 2 (if k.signed then k.bits - 1 else k.bits) : Nat)

def contains (k : IntegerKind) (n : Int) : Bool := decide (k.least ≤ n ∧ n < k.bound)

/-- The upper half of the 64-bit numbers counts as negative where sizes are compared. -/
def wrapped (k : IntegerKind) (n : Int) : Int :=
  if k.bits = 64 ∧ 0x8000000000000000 ≤ n then n - 0x10000000000000000 else n

/-- Whether base ten is the natural choice because of the size alone. -/
def isSmall (k : IntegerKind) (n : Int) : Bool := decide (k.wrapped n < 16)

/-- Whether base ten is the natural choice: below sixteen, and for multiples of ten below a
thousand. -/
def prefersDecimal (k : IntegerKind) (n : Int) : Bool :=
  k.isSmall n || decide (k.wrapped n % 10 = 0 ∧ k.wrapped n < 1000)

/-- Two's complement at the width of the kind, in base sixteen. -/
def hexadecimal (k : IntegerKind) (n : Int) : String :=
  String.ofList ('0' :: 'x' :: Nat.toDigits 16 (n % (Nat.pow 2 k.bits : Nat)).toNat)

/-- An integer of the kind in the base that the format asks for. -/
def text (k : IntegerKind) (format : NumberFormat) (n : Int) : String :=
  match format with
  | .decimal => toString n
  | .auto => if k.prefersDecimal n then toString n else k.hexadecimal n
  | .hexadecimal | .other _ => k.hexadecimal n

/-- A number that is not given as an integer has a text only where base ten is chosen. `size` is the
number without its sign, rounded down if it is `cut`. -/
def numberText (k : IntegerKind) (format : NumberFormat) (negative : Bool) (size : Nat) (cut : Bool)
    (plain : String) : Except Fault String :=
  let isNatural := negative || (if cut then k.isSmall size else k.prefersDecimal size)
  if format = .decimal ∨ (format = .auto ∧ isNatural) then .ok plain else .error .illTyped

end IntegerKind

namespace Digits

/-- The number rounded down, and whether that cuts something off. Numbers of more than twenty digits
are not of interest. -/
def wholePart? (d : Digits) : Option (Nat × Bool) :=
  if d.coefficient = 0 then some (0, false)
  else if d.order < 0 then some (0, true)
  else if 20 ≤ d.order then none
  else
    let unit := Nat.pow 10 (-d.exponent).toNat
    let scaled := d.coefficient * Nat.pow 10 d.exponent.toNat
    some (scaled / unit, scaled % unit != 0)

end Digits

namespace Literal

/-- The text of a finite number at an integer kind, if it is in the range of the kind. -/
def number? (format : NumberFormat) (k : IntegerKind) (negative : Bool) (digits : Digits)
    (plain : String) : Option (Except Fault String) := do
  let (size, cut) ← digits.wholePart?
  let outer : Int := if cut then size + 1 else size
  if k.contains (if negative then -outer else outer) then
    some (k.numberText format negative size cut plain)
  else none

/-- The integer kind that a slot names. -/
def integerKind? : Value → Option IntegerKind
  | .scalar (.text name) => IntegerKind.ofName? name
  | _ => none

/-- The text of a value at an integer kind. Truth values are no numbers here, and what is no number
at all is refused. -/
def integer (p : Program) (format : NumberFormat) (kind value : Value) : Except Fault String :=
  let unsupported := Except.error (p.literalFault value kind)
  match integerKind? kind, value with
  | _, .scalar (.bool _) => unsupported
  | none, _ => .error (kind.lookupFault (p.literalFault value kind))
  | some k, .scalar (.int n) => if k.contains n then .ok (k.text format n) else unsupported
  | some k, .scalar s =>
    match s.magnitude? with
    | some (.finite negative digits) =>
      (number? format k negative digits s.plain).getD unsupported
    | some _ => unsupported
    | none => .error .illTyped
  | some _, _ => .error .illTyped

/-- The string literal of the one code point `n`. -/
def character (n : Int) : Except Fault String :=
  if n < -0x80000000 ∨ 0x80000000 ≤ n then .error .outOfRange
  else if n < 0 ∨ 0x10FFFF < n then .error .noCodePoint
  else .ok (String.ofList (Text.quotedPoints [n.toNat]))

def double : Scalar → Option (Except Fault String)
  | .real x _ => some (.ok (Numeral.ofDouble x))
  | .int n => match Double.ofInt? n with
    | some x => some (.ok (Numeral.ofDouble x))
    | none => some (.error .outOfRange)
  | _ => none

/-- The text of a double at single precision. -/
def singleText (x : Double) : Except Fault String :=
  match Numeral.ofSingle? x with
  | some text => .ok text
  | none => .error .outOfRange

def single : Scalar → Option (Except Fault String)
  | .real x _ => some (singleText x)
  | .int n => match Double.ofInt? n with
    | some x => some (singleText x)
    | none => some (.error .outOfRange)
  | _ => none

/-- The kind that a value implies. -/
def impliedKind : Value → Value
  | .scalar .null => .ofText "null"
  | .scalar (.bool _) => .ofText "boolean"
  | .scalar (.text _) => .ofText "string"
  | .scalar (.int n) =>
    if (IntegerKind.mk 32 true).contains n then .ofText "int32"
    else if (IntegerKind.mk 64 true).contains n then .ofText "int64"
    else .ofText "uint64"
  | .scalar (.real ..) => .ofText "double"
  | .scalar (.decimal ..) => .ofText "decimal"
  | _ => .null

/-- The kind of a literal: the given one, or the one that its value implies. -/
def kindOf (value kind : Value) : Value := if kind.isNull then impliedKind value else kind

/-- The text of a scalar at a kind, if the two go together. -/
def textOfScalar (p : Program) (format : NumberFormat) (value : Scalar) (kind : String) :
    Option (Except Fault String) :=
  match kind, value with
  | "boolean", .bool b => some (.ok (if b then "true" else "false"))
  | "string", .text s => some (.ok (Text.quoted s))
  | "char", .text s => if s.length = 1 then some (.ok (Text.quoted s)) else none
  | "char", .int n => some (character n)
  | "single", value => single value
  | "double", value => double value
  | "decimal", .decimal d _ => some (.ok d.plain)
  | "decimal", .int n => some (.ok (Decimal.ofInt n).plain)
  | kind, .int n => some (integer p format (.ofText kind) (.scalar (.int n)))
  | _, _ => none

/-- The text of a value at a kind, if the two go together. At the kind `null` every value does. -/
def textAt (p : Program) (format : NumberFormat) (value : Value) (kind : String) :
    Option (Except Fault String) :=
  if kind = "null" then some (.ok "null")
  else match value with
    | .scalar s => textOfScalar p format s kind
    | _ => none

/-- The source text of a literal. -/
def text (p : Program) (format : NumberFormat) (value kind : Value) : Except Fault String :=
  match kindOf value kind with
  | .scalar (.text kind) =>
    (textAt p format value kind).getD (.error (p.literalFault value (.ofText kind)))
  | kind => .error (kind.lookupFault (p.literalFault value kind))

end Literal

end Scribe
