import SymbolLocator.Options
import SymbolLocator.Image.Basic
import SymbolLocator.Image.Sections

/-!
# Loading Images

Reading the layout of an image off its headers, and checking it.

The first bytes decide the format. A DOS header leads to a PE header further
on; a PE header may also stand at the very start; a TE header always does. The
layout is then read header by header, and nothing is accepted that a later
lookup would have to distrust: the headers and the section table lie within
the file, and the sections pass `SectionBounds.checkAll`.

A TE header has no field for the size of the image. The end of the furthest
section takes its place.

## Main definitions

* `dosHeaderOffset`: Where a DOS header says the PE header is.
* `CoffHeader`, `OptionalHeader`, `TeHeader`: The fields that are used.
* `Layout.readPe`, `Layout.readTe`: The layout behind a header of either kind.
* `Layout.read`: The layout of a buffer.
* `Image.load`: The buffer as an image with that layout.
-/

namespace SymbolLocator

/-- The bytes `PE`, NUL, NUL. -/
def peSignature : List UInt8 := [0x50, 0x45, 0, 0]

/-- The word `MZ`, which a DOS header begins with. -/
def dosSignature : UInt16 := 0x5A4D

/-- The word `VZ`, which a TE header begins with. -/
def teSignature : UInt16 := 0x5A56

/-- Where the DOS header at the start of a buffer says the PE header is. The
    answer is the last field of the header, so the header is complete if the
    field is there. -/
def dosHeaderOffset (buffer : Buffer) : Except LoadError UInt32 :=
  require (.headerTruncated 64 buffer.size) (buffer.word32? 60)

/-- The fields of a file header that are used. -/
structure CoffHeader where
  sectionCount : UInt16
  /-- The declared size of the optional header. -/
  optionalSize : UInt16
deriving DecidableEq, Repr

/-- Read the PE signature and the file header at `headerOffset`. -/
def CoffHeader.read (buffer : Buffer) (headerOffset : UInt32) : Except LoadError CoffHeader := do
  let start := headerOffset.toNat
  let truncated := LoadError.headerTruncated (start + coffHeaderSize) buffer.size
  let signature ← require truncated (buffer.slice? start 4)
  ensure (Buffer.bytes signature = peSignature) .noPeSignature
  let sectionCount ← require truncated (buffer.word16? (start + 6))
  let optionalSize ← require truncated (buffer.word16? (start + 20))
  return { sectionCount, optionalSize }

/-- The fields of an optional header that are used. -/
structure OptionalHeader where
  kind : PeKind
  /-- The number of data directories. -/
  directoryCount : UInt32
  sizeOfImage : UInt32
deriving DecidableEq, Repr

/-- Read an optional header, given the bytes that its declared size spans. The
    declared size must leave room for all data directories. -/
def OptionalHeader.read (header : Buffer) (declared : UInt16) :
    Except LoadError OptionalHeader := do
  let tooSmall := LoadError.optionalHeaderTooSmall declared
  let magic ← require (tooSmall 2) (header.word16? 0)
  let kind ← require (.unknownMagic magic) (PeKind.ofMagic? magic)
  let directoryCount ← require (tooSmall kind.directoriesOffset) (header.word32? kind.countOffset)
  let required := kind.slotOffset directoryCount.toNat
  ensure (required ≤ declared.toNat) (tooSmall required)
  let sizeOfImage ← require (tooSmall kind.directoriesOffset) (header.word32? 56)
  return { kind, directoryCount, sizeOfImage }

/-- The fields of a TE header that are used. -/
structure TeHeader where
  sectionCount : UInt8
  /-- How far the file offsets in the image are too large: the bytes stripped
      off the file, less those of the TE header that took their place. -/
  strippedOffset : UInt32
deriving DecidableEq, Repr

/-- Read the TE header at the start of a buffer. -/
def TeHeader.read (buffer : Buffer) : Except LoadError TeHeader := do
  let truncated := LoadError.headerTruncated teHeaderSize buffer.size
  let header ← require truncated (buffer.slice? 0 teHeaderSize)
  let sectionCount ← require truncated (header.byte? 4)
  let strippedSize ← require truncated (header.word16? 6)
  let strippedOffset ← require (.strippedSizeTooSmall strippedSize)
    (Word.sub? strippedSize.toUInt32 (UInt32.ofNat teHeaderSize))
  return { sectionCount, strippedOffset }

namespace Layout

/-- Read the layout of a PE image whose PE signature is at `headerOffset`. -/
def readPe (buffer : Buffer) (headerOffset : UInt32) : Except LoadError Layout := do
  let coff ← CoffHeader.read buffer headerOffset
  let optionalOffset := headerOffset.toNat + coffHeaderSize
  let sectionsOffset := optionalOffset + coff.optionalSize.toNat
  let declared ← require (.headerTruncated sectionsOffset buffer.size)
    (buffer.slice? optionalOffset coff.optionalSize.toNat)
  let optional ← OptionalHeader.read declared coff.optionalSize
  let table ← require .sectionTableOutsideFile
    (SectionTable.ofBuffer? buffer sectionsOffset coff.sectionCount)
  SectionBounds.checkAll ⟨optional.sizeOfImage, 0, buffer.size⟩ table.toList
  return {
    format := .pe optional.kind headerOffset
    sizeOfImage := optional.sizeOfImage
    sectionsOffset := UInt32.ofNat sectionsOffset
    sectionCount := coff.sectionCount }

/-- Read the layout of a TE image. -/
def readTe (buffer : Buffer) : Except LoadError Layout := do
  let header ← TeHeader.read buffer
  let sectionCount := header.sectionCount.toUInt16
  let table ← require .sectionTableOutsideFile
    (SectionTable.ofBuffer? buffer teHeaderSize sectionCount)
  let headers := table.toList
  let sizeOfImage ← highestEnd headers
  SectionBounds.checkAll ⟨sizeOfImage, header.strippedOffset, buffer.size⟩ headers
  return {
    format := .te header.strippedOffset
    sizeOfImage
    sectionsOffset := UInt32.ofNat teHeaderSize
    sectionCount }

/-- Read the layout of a buffer, whatever its format. A TE image is refused
    before anything behind its signature is read, if the options say so. -/
def read (buffer : Buffer) (options : Options) : Except LoadError Layout := do
  ensure (buffer.size < UInt32.size) (.bufferTooLarge buffer.size)
  let signature ← require (.headerTruncated 2 buffer.size) (buffer.word16? 0)
  if signature = dosSignature then
    let headerOffset ← dosHeaderOffset buffer
    readPe buffer headerOffset
  else if signature = teSignature then
    ensure options.allowTe .teProhibited
    readTe buffer
  else
    ensure ((buffer.slice? 0 4).map Buffer.bytes = some peSignature) .unknownFormat
    readPe buffer 0

end Layout

/-- The buffer as an image, if it is one. -/
def Image.load (buffer : Buffer) (options : Options) : Except LoadError Image :=
  (Layout.read buffer options).map fun layout => { layout with buffer }

end SymbolLocator
