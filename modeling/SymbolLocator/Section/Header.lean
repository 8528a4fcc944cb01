import SymbolLocator.Buffer
import SymbolLocator.VirtualRange
import SymbolLocator.Text.Utf8

/-!
# Section Headers

The 40-byte headers that say where each section lies, in the loaded image and
in the file.

Only the fields a lookup needs are kept. The 12 bytes between the file
pointer and the characteristics name relocations and line numbers, which an
image does not have, and are skipped.

## Main definitions

* `Section`: The decoded header of a section.
* `Section.decode?`, `Section.encode`: Reading and writing a header.
* `Section.range`, `Section.end?`: Where a section lies in the loaded image.
* `Section.contains`: Whether a section holds a virtual range.
* `Section.label`: The name of a section as text.
-/

namespace SymbolLocator

/-- The header of a section. -/
structure Section where
  /-- The name, padded with NUL bytes if it is shorter than eight. -/
  name : Vector UInt8 8
  virtualSize : UInt32
  virtualAddress : UInt32
  /-- The number of bytes the section has in the file. -/
  rawSize : UInt32
  /-- Where those bytes begin, counted from the start of the whole file. -/
  rawPointer : UInt32
  characteristics : UInt32
deriving DecidableEq, Repr

namespace Section

/-- The size of a header in the file. -/
def headerSize : Nat := 40

/-- Read the header at the start of a buffer. -/
def decode? (buffer : Buffer) : Option Section := do
  let name ← buffer.vector? 8 0
  let virtualSize ← buffer.word32? 8
  let virtualAddress ← buffer.word32? 12
  let rawSize ← buffer.word32? 16
  let rawPointer ← buffer.word32? 20
  let characteristics ← buffer.word32? 36
  return { name, virtualSize, virtualAddress, rawSize, rawPointer, characteristics }

/-- The bytes of a header. The bytes that no field is read from are given
    separately. -/
def encode (header : Section) (skipped : Vector UInt8 12) : List UInt8 :=
  header.name.toList ++
    toLittleEndian 4 header.virtualSize.toNat ++
    toLittleEndian 4 header.virtualAddress.toNat ++
    toLittleEndian 4 header.rawSize.toNat ++
    toLittleEndian 4 header.rawPointer.toNat ++
    skipped.toList ++
    toLittleEndian 4 header.characteristics.toNat

/-- The virtual range of a section. -/
def range (header : Section) : VirtualRange := ⟨header.virtualAddress, header.virtualSize⟩

/-- The first address behind a section, if it is a 32-bit word. -/
def end? (header : Section) : Option UInt32 := header.range.end?

/-- Whether `inner` lies within the virtual range of a section. -/
def contains (header : Section) (inner : VirtualRange) : Bool := inner.within header.range

/-- The name as text, up to the first NUL byte. Bytes that are no text are
    shown as replacement characters. -/
def label (header : Section) : String :=
  Utf8.lossy (header.name.toList.takeWhile fun byte => byte != 0)

end Section

end SymbolLocator
