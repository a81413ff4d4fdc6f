import Scribe.Scalar
import Scribe.Text.Printable
import Scribe.Text.Quoted

/-!
# Scalars in messages

Two texts of a scalar: the plain one, used where a value is part of a line, and the exact one, used
where a message shows a value that it cannot handle. They differ for texts, which the exact form
quotes, and for decimals, whose kind it names. An integer has either text only up to a number of
digits.
-/

namespace Scribe

namespace Text

/-- Single quotes, unless the text has a single quote and no double one. -/
def quoteFor (codes : List Nat) : Nat :=
  if codes.contains 0x27 && !codes.contains 0x22 then 0x22 else 0x27

/-- The escapes that texts and byte strings share: the backslash, the quote in use, tab, line feed
and carriage return. -/
def sharedEscape? (quote code : Nat) : Option (List Char) :=
  if code = quote ∨ code = 0x5C then some ['\x5c', Char.ofNat code]
  else if code = 0x09 then some ['\x5c', 't']
  else if code = 0x0A then some ['\x5c', 'n']
  else if code = 0x0D then some ['\x5c', 'r']
  else none

def exactChar (quote : Nat) (c : Char) : List Char :=
  match sharedEscape? quote c.toNat with
  | some escape => escape
  | none =>
    if isPrintable c then [c]
    else if c.toNat ≤ 0xFF then '\x5c' :: 'x' :: hex 2 c.toNat
    else if c.toNat ≤ 0xFFFF then '\x5c' :: 'u' :: hex 4 c.toNat
    else '\x5c' :: 'U' :: hex 8 c.toNat

def exactByte (quote : Nat) (b : UInt8) : List Char :=
  match sharedEscape? quote b.toNat with
  | some escape => escape
  | none =>
    if 0x20 ≤ b.toNat ∧ b.toNat < 0x7F then [Char.ofNat b.toNat] else '\x5c' :: 'x' :: hex 2 b.toNat

/-- The text between quotes, with all that is not printable escaped. -/
def exact (text : String) : String :=
  let quote := quoteFor (text.toList.map Char.toNat)
  String.ofList (Char.ofNat quote :: text.toList.flatMap (exactChar quote) ++ [Char.ofNat quote])

/-- The bytes between quotes after a `b`, with all that is not printable ASCII escaped. -/
def exactBytes (bytes : List UInt8) : String :=
  let quote := quoteFor (bytes.map UInt8.toNat)
  String.ofList ('b' :: Char.ofNat quote :: bytes.flatMap (exactByte quote) ++ [Char.ofNat quote])

end Text

namespace Double

/-- The shortest text that reads back, with `.0` where nothing else tells it from an integer. -/
def exact : Double → String
  | .nan => "nan"
  | .infinite negative => if negative then "-inf" else "inf"
  | .finite negative magnitude => String.ofList (Numeral.shortest negative magnitude)

end Double

/-- How many decimal digits an integer may have where its text is part of a line or a message. -/
def digitLimit : Nat := 4300

namespace Scalar

/-- Whether the scalar can be shown: not if it is an integer of too many digits. -/
def isShowable : Scalar → Bool
  | .int n => (Nat.toDigits 10 n.natAbs).length ≤ digitLimit
  | _ => true

theorem isShowable_int_iff {n : Int} :
    (int n).isShowable = true ↔ n.natAbs < Nat.pow 10 digitLimit := by
  rw [isShowable, decide_eq_true_iff, Nat.pow_eq, Nat.length_toDigits_le_iff (by decide) (by decide)]

/-- The scalar as part of a line of text. -/
def plain : Scalar → String
  | .null => "None"
  | .bool b => if b then "True" else "False"
  | .int n => toString n
  | .real x _ => x.exact
  | .decimal d _ => d.scientific
  | .text s => s
  | .bytes b => Text.exactBytes b

/-- The scalar with its kind and its contents told exactly. -/
def exact : Scalar → String
  | .text s => Text.exact s
  | .decimal d _ => "Decimal('" ++ d.scientific ++ "')"
  | s => s.plain

end Scalar

end Scribe
