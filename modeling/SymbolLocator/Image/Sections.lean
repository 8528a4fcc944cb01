import SymbolLocator.Checks
import SymbolLocator.Failure.Load
import SymbolLocator.Section.Header

/-!
# Section Checks

What a list of sections must satisfy before an image is accepted.

Every section must end within the image, begin at or behind the end of the one
in front of it, and have its file data, if it has any, within the file. The
sections are checked front to back, and each is checked in that order, so the
error names the first section that has a fault.

## Main definitions

* `SectionBounds`: What sections are checked against.
* `Section.rawEnd?`: The end of a section's file data.
* `SectionBounds.check`, `SectionBounds.checkAll`: The check of one section
  and of all of them.
* `highestEnd`: The end of the section that reaches furthest.
-/

namespace SymbolLocator

/-- What the sections of an image are checked against. -/
structure SectionBounds where
  sizeOfImage : UInt32
  /-- How far the file offsets in the image are too large. -/
  strippedOffset : UInt32
  fileSize : Nat

/-- The end of a section's data in a file of `fileSize` bytes that had
    `stripped` bytes more in front, if the data is all there. -/
def Section.rawEnd? (header : Section) (stripped : UInt32) (fileSize : Nat) : Option UInt32 :=
  (Word.sub? header.rawPointer stripped).bind fun start =>
    Word.checkedEnd start header.rawSize fileSize

namespace SectionBounds

/-- Check the section at `index`, which must not begin before `previousEnd`,
    and give its end. -/
def check (bounds : SectionBounds) (index : Nat) (previousEnd : UInt32) (header : Section) :
    Except LoadError UInt32 := do
  let last ← require (.sectionOutsideImage index)
    (header.end?.filter fun last => last ≤ bounds.sizeOfImage)
  ensure (previousEnd ≤ header.virtualAddress) (.sectionOutOfOrder index)
  ensure (header.rawSize = 0 ∨ (header.rawEnd? bounds.strippedOffset bounds.fileSize).isSome)
    (.sectionOutsideFile index)
  return last

/-- Check sections in order, the first of them being at `index` and behind
    `previousEnd`. -/
def checkFrom (bounds : SectionBounds) :
    (index : Nat) → (previousEnd : UInt32) → List Section → Except LoadError Unit
  | _, _, [] => .ok ()
  | index, previousEnd, header :: rest =>
    match bounds.check index previousEnd header with
    | .error error => .error error
    | .ok last => checkFrom bounds (index + 1) last rest

/-- Check all sections of an image. -/
def checkAll (bounds : SectionBounds) (headers : List Section) : Except LoadError Unit :=
  bounds.checkFrom 0 0 headers

end SectionBounds

/-- The highest of `highest` and the ends of the sections from `index` on, if
    all those ends are 32-bit words. -/
def highestEndFrom :
    (index : Nat) → (highest : UInt32) → List Section → Except LoadError UInt32
  | _, highest, [] => .ok highest
  | index, highest, header :: rest =>
    match header.end? with
    | none => .error (.sectionOutsideImage index)
    | some last => highestEndFrom (index + 1) (max highest last) rest

/-- The end of the section that reaches furthest, or zero without sections. -/
def highestEnd (headers : List Section) : Except LoadError UInt32 := highestEndFrom 0 0 headers

end SymbolLocator
