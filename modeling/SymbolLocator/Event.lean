import SymbolLocator.Failure
import SymbolLocator.Image.Format
import SymbolLocator.CodeView.Signature

/-!
# Events

What a lookup tells an observer while it runs.

An event is the fact it reports. How it is shown, as a message with a level
and named fields, is a matter of separate functions, so a statement about the
course of a lookup can speak of facts and not of texts.

## Main definitions

* `Event`: The facts that are reported.
* `Event.kind`, `Event.level`, `Event.message`, `Event.fields`: How an event
  is shown.
-/

namespace SymbolLocator

/-- A fact that is reported in the course of a lookup. -/
inductive Event where
  /-- A lookup in a buffer of `fileSize` bytes begins. -/
  | lookupStarted (fileSize : Nat)
  /-- A buffer was accepted as an image. -/
  | imageClassified (format : Format) (sizeOfImage : UInt32) (sectionCount : UInt16)
      (fileSize : Nat)
  /-- The debug directory lies in a section. -/
  | directoryInSection (label : String) (sectionIndex : Nat) (fileOffset : UInt32)
  /-- The entries of the debug directory are in the file. -/
  | directoryMapped (fileOffset entryCount : UInt32)
  /-- An entry of the debug directory is the first CodeView entry. -/
  | codeViewFound (index : Nat) (dataSize : UInt32)
  /-- A CodeView record gave a path. -/
  | pathFound (signature : Signature) (offset : UInt32) (size : Nat)
  /-- The lookup failed. -/
  | lookupFailed (error : LookupError)
deriving DecidableEq, Repr

/-- Whether an event marks a point in time or the beginning of a span. -/
inductive EventKind where
  | point
  | span
deriving DecidableEq, Repr

/-- How important an event is. -/
inductive Level where
  | trace
  | debug
  | error
deriving DecidableEq, Repr

/-- The value of a named field. -/
inductive FieldValue where
  | number (value : Nat)
  | text (value : String)
deriving DecidableEq, Repr

namespace Event

/-- Only the beginning of a lookup is a span. -/
def kind : Event → EventKind
  | lookupStarted _ => .span
  | _ => .point

/-- Progress and absence are traces. A defect is worth a look, and a contract
    violation is an error of the program. -/
def level : Event → Level
  | lookupStarted _ => .debug
  | imageClassified _ _ _ _ => .debug
  | directoryInSection _ _ _ => .trace
  | directoryMapped _ _ => .trace
  | codeViewFound _ _ => .trace
  | pathFound _ _ _ => .trace
  | lookupFailed (.absent _) => .trace
  | lookupFailed (.malformed _) => .debug
  | lookupFailed (.contract _) => .error

/-- The text of an event, or the name of a span. -/
def message : Event → String
  | lookupStarted _ => "pdb_path"
  | imageClassified _ _ _ _ => "classified image"
  | directoryInSection _ _ _ => "debug directory in section"
  | directoryMapped _ _ => "debug directory mapped"
  | codeViewFound _ _ => "CodeView entry found"
  | pathFound _ _ _ => "PDB path extracted"
  | lookupFailed (.absent _) => "no PDB path"
  | lookupFailed (.malformed _) => "malformed debug data"
  | lookupFailed (.contract _) => "image descriptor contract violated"

/-- The named fields of an event. -/
def fields : Event → List (String × FieldValue)
  | lookupStarted fileSize => [("file_size", .number fileSize)]
  | imageClassified format sizeOfImage sectionCount fileSize => [
      ("format", .text format.name),
      ("size_of_image", .number sizeOfImage.toNat),
      ("sections", .number sectionCount.toNat),
      ("file_size", .number fileSize)]
  | directoryInSection label sectionIndex fileOffset => [
      ("section", .text label),
      ("index", .number sectionIndex),
      ("file_offset", .number fileOffset.toNat)]
  | directoryMapped fileOffset entryCount => [
      ("file_offset", .number fileOffset.toNat),
      ("entries", .number entryCount.toNat)]
  | codeViewFound index dataSize => [
      ("index", .number index),
      ("size", .number dataSize.toNat)]
  | pathFound signature offset size => [
      ("signature", .text signature.name),
      ("offset", .number offset.toNat),
      ("len", .number size)]
  | lookupFailed (.contract violation) => [("violation", .text violation)]
  | lookupFailed error => [("reason", .text error.reason)]

end Event

end SymbolLocator
