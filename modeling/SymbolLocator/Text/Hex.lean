/-!
# Hexadecimal Numbers

Numbers in lower-case hexadecimal, as they appear in messages.

An address is written at a fixed least width, padded with zeros on the left; a
size or an offset is written with no padding. Both are the same function at
different widths.

## Main definitions

* `hexDigits`: The digits of a number, padded to a least width.
* `hex`: The same digits as a string.
-/

namespace SymbolLocator

/-- The lower-case hexadecimal digits of `value`, with zeros in front if there
    are fewer than `width` of them. -/
def hexDigits (width value : Nat) : List Char :=
  let digits := Nat.toDigits 16 value
  List.replicate (width - digits.length) '0' ++ digits

/-- The lower-case hexadecimal text of `value`, at least `width` digits long. -/
def hex (width value : Nat) : String := String.ofList (hexDigits width value)

end SymbolLocator
