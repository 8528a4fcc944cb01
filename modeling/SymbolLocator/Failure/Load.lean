import SymbolLocator.Text.Hex

/-!
# Load Failures

Why a buffer is not accepted as an image.

## Main definitions

* `LoadError`: What is wrong with the headers or the section table.
* `LoadError.message`: Its text.
-/

namespace SymbolLocator

/-- Why a buffer is not accepted as an image. -/
inductive LoadError where
  /-- A header needs `expected` bytes of a buffer that has `actual`. -/
  | headerTruncated (expected actual : Nat)
  /-- The buffer begins with the signature of no known format. -/
  | unknownFormat
  /-- The PE signature is not where it should be. -/
  | noPeSignature
  /-- The optional header is of no known kind. -/
  | unknownMagic (magic : UInt16)
  /-- The image is a TE image, and the options prohibit those. -/
  | teProhibited
  /-- Less was stripped off a TE image than its own header occupies. -/
  | strippedSizeTooSmall (size : UInt16)
  /-- The optional header is declared smaller than what it must hold. -/
  | optionalHeaderTooSmall (size : UInt16) (required : Nat)
  /-- The section table reaches past the file. -/
  | sectionTableOutsideFile
  /-- A section's virtual range reaches past the image. -/
  | sectionOutsideImage (index : Nat)
  /-- A section's data is not all in the file. -/
  | sectionOutsideFile (index : Nat)
  /-- A section begins before the end of the one in front of it. -/
  | sectionOutOfOrder (index : Nat)
  /-- The buffer is too long for 32-bit offsets. -/
  | bufferTooLarge (size : Nat)
deriving DecidableEq, Repr

/-- The text of a failure to load. -/
def LoadError.message : LoadError → String
  | headerTruncated expected actual =>
    "Truncated header: expected " ++ toString expected ++ " bytes, got " ++ toString actual
  | unknownFormat => "Invalid image signature"
  | noPeSignature => "Invalid PE signature"
  | unknownMagic magic => "Invalid optional header magic: 0x" ++ hex 4 magic.toNat
  | teProhibited => "TE images are prohibited"
  | strippedSizeTooSmall size => "Invalid TE stripped size: " ++ toString size.toNat
  | optionalHeaderTooSmall size required =>
    "Optional header too small: " ++ toString size.toNat ++ " bytes, need " ++ toString required
  | sectionTableOutsideFile => "Section table exceeds the file"
  | sectionOutsideImage index => "Section " ++ toString index ++ " exceeds the image"
  | sectionOutsideFile index => "Section " ++ toString index ++ " raw data exceeds the file"
  | sectionOutOfOrder index =>
    "Section " ++ toString index ++ " overlaps or precedes the previous section"
  | bufferTooLarge size => "Image buffer too large: " ++ toString size ++ " bytes"

end SymbolLocator
