import SymbolLocator.Debug.Location
import SymbolLocator.CodeView.Path

/-!
# CodeView Records

The record that a CodeView entry describes, and the path in it.

## Main definitions

* `Image.recordPath`: The path in the record that an entry describes.
-/

namespace SymbolLocator

namespace Image

/-- The path in the record that `entry` describes. The type of the entry does
    not matter. -/
def recordPath (image : Image) (entry : DebugEntry) (options : Options) :
    Except LookupError SymbolPath := do
  let size := entry.dataSize
  ensure (4 ≤ size) (.malformed (.recordTooSmall size))
  let offset ← require (.malformed (.recordInStrippedHeader entry.rawPointer))
    (Word.sub? entry.rawPointer (image.compensation options))
  let record ← require (.malformed (.recordOutsideFile offset size))
    ((Word.checkedEnd offset size image.fileSize).bind fun _ =>
      image.buffer.slice? offset.toNat size.toNat)
  ensure (Word.isAligned offset 4) (.malformed (.recordMisaligned offset))
  -- The record has at least four bytes, so its first word is there.
  let word := (record.word32? 0).getD 0
  let signature ← require (.malformed (.unknownSignature word)) (Signature.ofWord? word)
  let pathSize ← require (.malformed (.recordTooSmall size))
    (Word.sub? size signature.headerSize)
  ensure (pathSize ≠ 0) (.malformed .emptyPath)
  let bytes : Buffer := record.extract signature.headerSize.toNat record.size
  ensure (bytes.byte? (bytes.size - 1) = some 0) (.malformed .unterminatedPath)
  return { bytes, offset := offset + signature.headerSize, signature }

end Image

end SymbolLocator
