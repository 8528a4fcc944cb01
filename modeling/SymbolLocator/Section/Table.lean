import SymbolLocator.FirstMatch
import SymbolLocator.Section.Header

/-!
# Section Tables

The run of section headers in an image file.

A table keeps the bytes of its headers and decodes one when asked. Asking for
a header by its index and listing all of them are two ways through the same
bytes: the one multiplies the index by the size of a header, the other cuts
the bytes into blocks of that size.

## Main definitions

* `SectionTable`: The bytes of a run of section headers.
* `SectionTable.ofBuffer?`: The table at an offset of a buffer.
* `SectionTable.get?`, `SectionTable.toList`: One header, and all of them.
* `SectionTable.containing?`: The first section that holds a virtual range.
-/

namespace SymbolLocator

/-- A run of section headers. -/
structure SectionTable where
  bytes : Buffer

namespace SectionTable

/-- The table of `count` headers at `offset`, if the buffer holds it. -/
def ofBuffer? (buffer : Buffer) (offset : Nat) (count : UInt16) : Option SectionTable :=
  (buffer.slice? offset (count.toNat * Section.headerSize)).map fun bytes => { bytes }

/-- The number of headers. -/
def size (table : SectionTable) : Nat := table.bytes.size / Section.headerSize

/-- Whether the table has no bytes. -/
def isEmpty (table : SectionTable) : Bool := table.bytes.size == 0

/-- The header at `index`. -/
def get? (table : SectionTable) (index : Nat) : Option Section :=
  (table.bytes.slice? (index * Section.headerSize) Section.headerSize).bind Section.decode?

/-- All headers, in the order of the file. -/
def toList (table : SectionTable) : List Section :=
  (table.bytes.chunks Section.headerSize).filterMap Section.decode?

/-- The first section that holds `range`, with its index. -/
def containing? (table : SectionTable) (range : VirtualRange) : Option (Nat × Section) :=
  firstMatch (fun header => header.contains range) table.toList

end SectionTable

end SymbolLocator
