import SymbolLocator.FirstMatch
import SymbolLocator.Debug.Entry

/-!
# Debug Directories

The run of debug entries in an image file.

Like a section table, a directory keeps the bytes of its entries and decodes
one when asked. Its size need not be a whole number of entries; what is left
over at the end belongs to no entry.

## Main definitions

* `DebugDirectory`: The bytes of a run of entries, and where they were.
* `DebugDirectory.ofBuffer?`: The directory at an offset of a buffer.
* `DebugDirectory.get?`, `DebugDirectory.toList`: One entry, and all of them.
* `DebugDirectory.codeView?`: The first CodeView entry.
-/

namespace SymbolLocator

/-- A run of debug entries, taken from the file at `fileOffset`. -/
structure DebugDirectory where
  bytes : Buffer
  fileOffset : UInt32

namespace DebugDirectory

/-- The directory of `size` bytes at `fileOffset`, if the buffer holds it. -/
def ofBuffer? (buffer : Buffer) (fileOffset size : UInt32) : Option DebugDirectory :=
  (buffer.slice? fileOffset.toNat size.toNat).map fun bytes => { bytes, fileOffset }

/-- The number of whole entries. -/
def size (directory : DebugDirectory) : Nat := directory.bytes.size / DebugEntry.size

/-- Whether the directory has no whole entry. -/
def isEmpty (directory : DebugDirectory) : Bool := directory.bytes.size < DebugEntry.size

/-- The entry at `index`. -/
def get? (directory : DebugDirectory) (index : Nat) : Option DebugEntry :=
  (directory.bytes.slice? (index * DebugEntry.size) DebugEntry.size).bind DebugEntry.decode?

/-- All whole entries, in the order of the file. -/
def toList (directory : DebugDirectory) : List DebugEntry :=
  (directory.bytes.chunks DebugEntry.size).filterMap DebugEntry.decode?

/-- The first CodeView entry, with its index. -/
def codeView? (directory : DebugDirectory) : Option (Nat × DebugEntry) :=
  firstMatch DebugEntry.isCodeView directory.toList

end DebugDirectory

end SymbolLocator
