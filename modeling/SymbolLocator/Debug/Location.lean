import SymbolLocator.Options
import SymbolLocator.Checks
import SymbolLocator.Failure.Lookup
import SymbolLocator.Image.Basic
import SymbolLocator.Debug.Directory

/-!
# Location of the Debug Directory

From the headers of an image to the place of its debug directory in the file.

A directory is announced by a slot in the headers as a virtual range, and
found in the file by way of the section that holds the range. The stages are
functions of their own, each on the result of the one in front of it, and
none trusts the layout of the image: a layout that does not hold of the
buffer is reported as a contract violation.

Offsets in a TE image are compensated only where TE images are allowed. The
compensation is zero in every other case, so the same arithmetic serves all
formats.

## Main definitions

* `Image.compensation`: What is subtracted from file offsets.
* `VirtualRange.decode?`: The virtual range in a slot.
* `Image.slotOffset`, `Image.announcedRange`: The debug slot of an image, and
  the range in it.
* `VirtualRange.checkDirectory`: Whether a range can be a directory.
* `Placement`, `Image.place`: Where a range is in the file.
* `Image.directoryAt`: The entries at a place.
-/

namespace SymbolLocator

/-- Read the virtual range in the slot at the start of a buffer. -/
def VirtualRange.decode? (slot : Buffer) : Option VirtualRange := do
  let address ← slot.word32? 0
  let size ← slot.word32? 4
  return { address, size }

/-- The number of entries in a directory of this range. -/
def VirtualRange.entryCount (range : VirtualRange) : UInt32 :=
  range.size / UInt32.ofNat DebugEntry.size

/-- Check that a virtual range can be that of a debug directory: it is not
    empty, it is a whole number of entries, and it lies within the image. -/
def VirtualRange.checkDirectory (range : VirtualRange) (sizeOfImage : UInt32) :
    Except LookupError Unit := do
  ensure (range.size ≠ 0) (.absent .emptyDirectory)
  ensure (range.size.toNat % DebugEntry.size = 0) (.malformed (.directoryNotWhole range.size))
  ensure (range.end?.any fun last => last ≤ sizeOfImage)
    (.malformed (.directoryOutsideImage range.address range.size))

/-- Where a virtual range is in the file. -/
structure Placement where
  /-- The position in the section table of the section that holds it. -/
  sectionIndex : Nat
  header : Section
  fileOffset : UInt32

namespace Image

/-- What is subtracted from the file offsets in an image. -/
def compensation (image : Image) (options : Options) : UInt32 :=
  if options.allowTe then image.strippedOffset else 0

/-- The section table of an image. -/
def sectionTable (image : Image) : Except LookupError SectionTable :=
  require (.contract Violation.sectionTableOutsideBuffer) image.sections?

/-- Where the debug slot of an image is in the file. -/
def slotOffset (image : Image) (options : Options) : Except LookupError Nat :=
  match image.format with
  | .te _ => do
    ensure options.allowTe (.contract Violation.teDisabled)
    return teSlotOffset
  | .pe kind headerOffset => do
    let optionalOffset := headerOffset.toNat + coffHeaderSize
    let count ← require (.contract Violation.optionalHeaderOutsideFile)
      (image.buffer.word32? (optionalOffset + kind.countOffset))
    ensure (debugSlot < count.toNat) (.absent .noDirectory)
    return optionalOffset + kind.slotOffset debugSlot

/-- The virtual range that the debug slot of an image announces. -/
def announcedRange (image : Image) (options : Options) : Except LookupError VirtualRange := do
  let offset ← image.slotOffset options
  require (.contract Violation.slotOutsideFile)
    ((image.buffer.slice? offset slotSize).bind VirtualRange.decode?)

/-- Find the place of a virtual range in the file. The range must lie within
    the file data of the first section that holds it in the loaded image. -/
def place (image : Image) (range : VirtualRange) (options : Options) :
    Except LookupError Placement := do
  let table ← image.sectionTable
  let (sectionIndex, header) ← require (.malformed (.directoryOutsideSections range.address))
    (table.containing? range)
  -- The section holds the range, so this difference is not negative.
  let distance := range.address - header.virtualAddress
  ensure ((Word.add? distance range.size).any fun last => last ≤ header.rawSize)
    (.malformed (.directoryExceedsRawData sectionIndex))
  let offset ← require (.malformed .directoryOffsetOverflow)
    (Word.add? header.rawPointer distance)
  let compensation := image.compensation options
  ensure (compensation ≤ header.rawPointer) (.contract Violation.strippedPastRawData)
  let fileOffset := offset - compensation
  ensure (Word.isAligned fileOffset 4) (.malformed (.directoryMisaligned fileOffset))
  return { sectionIndex, header, fileOffset }

/-- The debug directory of `size` bytes at `fileOffset`. -/
def directoryAt (image : Image) (fileOffset size : UInt32) :
    Except LookupError DebugDirectory :=
  require (.malformed (.directoryOutsideFile fileOffset))
    (DebugDirectory.ofBuffer? image.buffer fileOffset size)

end Image

end SymbolLocator
