import SymbolLocator.Image.Format
import SymbolLocator.Section.Table

/-!
# Images

A buffer together with the facts its headers state about it.

The facts are a value of their own. Loading a buffer establishes them and
checks them, but they can also be kept while the buffer changes, or be given
by hand; nothing about the type says that they hold. Every function on images
therefore checks its reads again, and says so when a fact turns out wrong.

## Main definitions

* `Layout`: What the headers of an image say.
* `Image`: A buffer and a layout.
* `Image.sections?`: The section table, if it is where the layout says.
-/

namespace SymbolLocator

/-- What the headers of an image say about it. -/
structure Layout where
  format : Format
  /-- The size of the loaded image. -/
  sizeOfImage : UInt32
  /-- Where in the file the section table begins. -/
  sectionsOffset : UInt32
  /-- The number of headers in the section table. -/
  sectionCount : UInt16
deriving DecidableEq, Repr

/-- A file buffer with the layout it is read by. -/
structure Image extends Layout where
  buffer : Buffer

namespace Image

/-- The number of bytes in the file. -/
def fileSize (image : Image) : Nat := image.buffer.size

/-- How far the file offsets in the image are too large. -/
def strippedOffset (image : Image) : UInt32 := image.format.strippedOffset

/-- The section table, if the buffer holds it. -/
def sections? (image : Image) : Option SectionTable :=
  SectionTable.ofBuffer? image.buffer image.sectionsOffset.toNat image.sectionCount

end Image

end SymbolLocator
