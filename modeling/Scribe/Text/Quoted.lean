/-!
# String literals of the rendered code

A literal stands between double quotes. Five control characters have an escape of their own, and a
character past U+00FF is written as its UTF-16 code units; all else is written as it is.
-/

namespace Scribe

namespace Text

/-- At least `width` lower-case hexadecimal digits. -/
def hex (width n : Nat) : List Char :=
  let digits := Nat.toDigits 16 n
  List.replicate (width - digits.length) '0' ++ digits

/-- One UTF-16 code unit. -/
def unitEscape (unit : Nat) : List Char := '\x5c' :: 'u' :: hex 4 unit

/-- The text of one code point inside a literal. Surrogates are code points here too. -/
def quotedPoint (code : Nat) : List Char :=
  if 0xFFFF < code then
    unitEscape (0xD800 + (code - 0x10000) / 0x400) ++ unitEscape (0xDC00 + (code - 0x10000) % 0x400)
  else if 0xFF < code then unitEscape code
  else if code = 0x0D then ['\x5c', 'r']
  else if code = 0x09 then ['\x5c', 't']
  else if code = 0x27 then ['\x5c', '\x27']
  else if code = 0x00 then ['\x5c', '0']
  else if code = 0x0A then ['\x5c', 'n']
  else [Char.ofNat code]

/-- The literal for a sequence of code points. -/
def quotedPoints (codes : List Nat) : List Char :=
  '\x22' :: codes.flatMap quotedPoint ++ ['\x22']

def quoted (text : String) : String := String.ofList (quotedPoints (text.toList.map Char.toNat))

end Text

end Scribe
