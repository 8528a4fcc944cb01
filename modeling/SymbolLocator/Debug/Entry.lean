import SymbolLocator.Buffer

/-!
# Debug Entries

The 28-byte entries of a debug directory.

## Main definitions

* `DebugEntry`: A decoded entry.
* `DebugEntry.decode?`, `DebugEntry.encode`: Reading and writing an entry.
* `DebugEntry.isCodeView`: Whether an entry describes a CodeView record.
-/

namespace SymbolLocator

/-- An entry of a debug directory. -/
structure DebugEntry where
  characteristics : UInt32 := 0
  timeDateStamp : UInt32 := 0
  majorVersion : UInt16 := 0
  minorVersion : UInt16 := 0
  /-- The type of the data the entry describes. -/
  dataType : UInt32 := 0
  dataSize : UInt32 := 0
  /-- Where the data is in the loaded image. -/
  virtualAddress : UInt32 := 0
  /-- Where the data is in the file, counted from the start of the whole
      file. -/
  rawPointer : UInt32 := 0
deriving DecidableEq, Repr

namespace DebugEntry

/-- The size of an entry in the file. -/
def size : Nat := 28

/-- The data type of CodeView records. -/
def codeViewType : UInt32 := 2

/-- Read the entry at the start of a buffer. -/
def decode? (buffer : Buffer) : Option DebugEntry := do
  let characteristics ← buffer.word32? 0
  let timeDateStamp ← buffer.word32? 4
  let majorVersion ← buffer.word16? 8
  let minorVersion ← buffer.word16? 10
  let dataType ← buffer.word32? 12
  let dataSize ← buffer.word32? 16
  let virtualAddress ← buffer.word32? 20
  let rawPointer ← buffer.word32? 24
  return {
    characteristics, timeDateStamp, majorVersion, minorVersion,
    dataType, dataSize, virtualAddress, rawPointer }

/-- The bytes of an entry. -/
def encode (entry : DebugEntry) : List UInt8 :=
  toLittleEndian 4 entry.characteristics.toNat ++
    toLittleEndian 4 entry.timeDateStamp.toNat ++
    toLittleEndian 2 entry.majorVersion.toNat ++
    toLittleEndian 2 entry.minorVersion.toNat ++
    toLittleEndian 4 entry.dataType.toNat ++
    toLittleEndian 4 entry.dataSize.toNat ++
    toLittleEndian 4 entry.virtualAddress.toNat ++
    toLittleEndian 4 entry.rawPointer.toNat

/-- Whether the entry describes a CodeView record. -/
def isCodeView (entry : DebugEntry) : Bool := entry.dataType == codeViewType

end DebugEntry

end SymbolLocator
