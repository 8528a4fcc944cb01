/-!
# UTF-16 Code Units

Characters as 16-bit code units.

A character of the basic plane is one unit, any other a pair of surrogates. A
list of units in which a surrogate stands alone is no text, and `decode?`
refuses it.

## Main definitions

* `Utf16.encode`: The units of a character.
* `Utf16.decode?`: The characters of a list of units.
-/

namespace SymbolLocator

namespace Utf16

/-- The units of a character. -/
def encode (char : Char) : List UInt16 :=
  let value := char.toNat
  if value < 0x10000 then [UInt16.ofNat value]
  else [UInt16.ofNat (0xD800 + (value - 0x10000) / 0x400),
    UInt16.ofNat (0xDC00 + (value - 0x10000) % 0x400)]

/-- Whether a unit is the first of a pair. -/
def isHigh (unit : UInt16) : Bool := 0xD800 ≤ unit && unit < 0xDC00

/-- Whether a unit is the second of a pair. -/
def isLow (unit : UInt16) : Bool := 0xDC00 ≤ unit && unit < 0xE000

/-- The character of a pair of surrogates. -/
def pair (high low : UInt16) : Char :=
  Char.ofNat (0x10000 + (high.toNat - 0xD800) * 0x400 + (low.toNat - 0xDC00))

/-- The characters of a list of units, unless a surrogate stands alone. -/
def decode? : List UInt16 → Option (List Char)
  | [] => some []
  | high :: low :: rest =>
    if isHigh high then
      if isLow low then (decode? rest).map (pair high low :: ·) else none
    else if isLow high then none
    else (decode? (low :: rest)).map (Char.ofNat high.toNat :: ·)
  | [unit] => if isHigh unit || isLow unit then none else some [Char.ofNat unit.toNat]

end Utf16

end SymbolLocator
