import SymbolLocator.Text.Hex

/-!
# Lookup Failures

Why a lookup in an image gives no symbol-file path.

Three kinds of outcome are kept apart. An absence is no fault: the image, or
the caller, simply has nothing to offer. A defect is a fault of the file's
debug data. A contract violation is a fault of the caller, who handed over
image facts that do not hold of the buffer.

## Main definitions

* `Absence`, `Absence.reason`: Why there is nothing to find.
* `Defect`, `Defect.reason`: What is wrong with the debug data.
* `Violation`: The texts of the contract violations that a lookup looks for.
* `LookupError`, `LookupError.message`: The failure of a lookup.
-/

namespace SymbolLocator

/-- Why there is no path to find, although nothing is wrong. -/
inductive Absence where
  /-- The options switch debug data off. -/
  | supportDisabled
  /-- The image has no slot for a debug directory. -/
  | noDirectory
  /-- The slot is there, and the directory has size zero. -/
  | emptyDirectory
  /-- No entry of the directory is a CodeView entry. -/
  | noCodeViewEntry
deriving DecidableEq, Repr

/-- The text of an absence. -/
def Absence.reason : Absence → String
  | supportDisabled => "debug support disabled"
  | noDirectory => "image has no debug data directory"
  | emptyDirectory => "debug directory is empty"
  | noCodeViewEntry => "no CodeView debug entry"

/-- What is wrong with the debug data of a file. -/
inductive Defect where
  /-- The directory's size is no multiple of the size of an entry. -/
  | directoryNotWhole (size : UInt32)
  /-- The directory's virtual range reaches past the image. -/
  | directoryOutsideImage (address size : UInt32)
  /-- No section holds the directory's virtual range. -/
  | directoryOutsideSections (address : UInt32)
  /-- The directory reaches past the file data of its section. -/
  | directoryExceedsRawData (sectionIndex : Nat)
  /-- The directory's offset in the file is no 32-bit word. -/
  | directoryOffsetOverflow
  /-- The directory's offset in the file is no multiple of four. -/
  | directoryMisaligned (offset : UInt32)
  /-- The directory reaches past the file. -/
  | directoryOutsideFile (offset : UInt32)
  /-- The record is too small for its signature or its header. -/
  | recordTooSmall (size : UInt32)
  /-- The record lies in the part of the file that was stripped off. -/
  | recordInStrippedHeader (offset : UInt32)
  /-- The record reaches past the file. -/
  | recordOutsideFile (offset size : UInt32)
  /-- The record's offset in the file is no multiple of four. -/
  | recordMisaligned (offset : UInt32)
  /-- The record begins with no known signature. -/
  | unknownSignature (word : UInt32)
  /-- The record ends where its path should begin. -/
  | emptyPath
  /-- The last byte of the record's path is not NUL. -/
  | unterminatedPath
deriving DecidableEq, Repr

/-- The text of a defect. Addresses and signatures are padded to eight digits,
    offsets and sizes are not. -/
def Defect.reason : Defect → String
  | directoryNotWhole size =>
    "debug directory size " ++ toString size.toNat ++ " is not a whole number of entries"
  | directoryOutsideImage address size =>
    "debug directory 0x" ++ hex 8 address.toNat ++ "+0x" ++ hex 1 size.toNat ++
      " exceeds the image"
  | directoryOutsideSections address =>
    "debug directory at 0x" ++ hex 8 address.toNat ++ " is not contained in any section"
  | directoryExceedsRawData sectionIndex =>
    "debug directory exceeds the raw data of section " ++ toString sectionIndex
  | directoryOffsetOverflow => "debug directory file offset overflows"
  | directoryMisaligned offset =>
    "debug directory file offset 0x" ++ hex 1 offset.toNat ++ " is misaligned"
  | directoryOutsideFile offset =>
    "debug directory at file offset 0x" ++ hex 1 offset.toNat ++ " exceeds the file"
  | recordTooSmall size =>
    "CodeView data of " ++ toString size.toNat ++ " bytes cannot hold a signature"
  | recordInStrippedHeader offset =>
    "CodeView file offset 0x" ++ hex 1 offset.toNat ++ " lies inside the stripped header"
  | recordOutsideFile offset size =>
    "CodeView data 0x" ++ hex 1 offset.toNat ++ "+0x" ++ hex 1 size.toNat ++ " exceeds the file"
  | recordMisaligned offset =>
    "CodeView file offset 0x" ++ hex 1 offset.toNat ++ " is misaligned"
  | unknownSignature word => "unknown CodeView signature 0x" ++ hex 8 word.toNat
  | emptyPath => "PDB path is empty"
  | unterminatedPath => "PDB path is not NUL-terminated"

namespace Violation

/-- A TE image is looked into while the options prohibit TE images. -/
def teDisabled : String := "TE image with TE support disabled"

/-- The offset of the optional header, or of something in it, is no 64-bit
    number. -/
def optionalOffsetOverflow : String := "optional header offset overflows"

/-- The directory count of the optional header is not in the buffer. -/
def optionalHeaderOutsideFile : String := "optional header outside the file"

/-- The slot of the debug directory is not in the buffer. -/
def slotOutsideFile : String := "debug data directory outside the file"

/-- The section table is not in the buffer. -/
def sectionTableOutsideBuffer : String := "section table outside image buffer"

/-- More was stripped off the file than lies before the section's data. -/
def strippedPastRawData : String := "TE stripped offset exceeds a section's raw data pointer"

end Violation

/-- Why a lookup in an image gives no path. -/
inductive LookupError where
  /-- There is nothing to find. -/
  | absent (absence : Absence)
  /-- The debug data of the file is defective. -/
  | malformed (defect : Defect)
  /-- The image facts do not hold of the buffer. -/
  | contract (violation : String)
deriving DecidableEq, Repr

namespace LookupError

/-- The text of a failure, without the words that say of which kind it is. -/
def reason : LookupError → String
  | absent absence => absence.reason
  | malformed defect => defect.reason
  | contract violation => violation

/-- The whole text of a failure. -/
def message : LookupError → String
  | absent absence => "PDB path not found: " ++ absence.reason
  | malformed defect => "malformed debug data: " ++ defect.reason
  | contract violation => "image descriptor contract violated: " ++ violation

/-- Whether a failure is an absence. -/
def isAbsent : LookupError → Bool
  | absent _ => true
  | _ => false

/-- Whether a failure is a defect of the file. -/
def isMalformed : LookupError → Bool
  | malformed _ => true
  | _ => false

/-- Whether a failure is a contract violation. -/
def isContract : LookupError → Bool
  | contract _ => true
  | _ => false

end LookupError

end SymbolLocator
