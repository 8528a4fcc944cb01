/-!
# Image Formats

The three container formats an image can have, and where each keeps what a
lookup needs.

PE32 and PE32+ differ in the magic number of their optional header and in how
wide its fields are, which moves the table of data directories by 16 bytes. A
TE image is a PE image whose headers were replaced by a shorter one. Offsets
in it still count from the start of the full file, so every one of them is
too large by the number of bytes that were saved.

## Main definitions

* `PeKind`: The two kinds of optional header.
* `PeKind.slotOffset`: Where in an optional header a data directory's slot is.
* `Format`: The format of an image, with the offset it is read by.
* `Format.strippedOffset`: How far the offsets in an image are off.

## Theorems

* `PeKind.ofMagic?_eq_some_iff`: The magic number determines the kind.
-/

namespace SymbolLocator

/-- The size of the PE signature and the file header behind it, which the
    optional header follows. -/
def coffHeaderSize : Nat := 24

/-- The size of a TE header. -/
def teHeaderSize : Nat := 40

/-- The size of the slot of a data directory: an address and a size. -/
def slotSize : Nat := 8

/-- The position of the debug directory among the data directories. -/
def debugSlot : Nat := 6

/-- Where in a TE header the slot of the debug directory is. -/
def teSlotOffset : Nat := 32

/-- The kind of an optional header. -/
inductive PeKind where
  | pe32
  | pe32Plus
deriving DecidableEq, Repr

namespace PeKind

/-- The magic number an optional header of this kind begins with. -/
def magic : PeKind → UInt16
  | pe32 => 0x10B
  | pe32Plus => 0x20B

/-- The kind that a magic number announces. -/
def ofMagic? (magic : UInt16) : Option PeKind :=
  if magic = pe32.magic then some pe32
  else if magic = pe32Plus.magic then some pe32Plus
  else none

/-- Where in the optional header the number of data directories is. -/
def countOffset : PeKind → Nat
  | pe32 => 92
  | pe32Plus => 108

/-- Where in the optional header the data directories begin. -/
def directoriesOffset : PeKind → Nat
  | pe32 => 96
  | pe32Plus => 112

/-- Where in the optional header the slot of the data directory at `index`
    is. -/
def slotOffset (kind : PeKind) (index : Nat) : Nat := kind.directoriesOffset + index * slotSize

theorem ofMagic?_eq_some_iff {magic : UInt16} {kind : PeKind} :
    ofMagic? magic = some kind ↔ kind.magic = magic := by
  unfold ofMagic?
  split
  case isTrue h =>
    subst h
    cases kind <;> decide
  case isFalse h =>
    split
    case isTrue h' =>
      subst h'
      cases kind <;> decide
    case isFalse h' => cases kind <;> simp [Ne.symm h, Ne.symm h']

end PeKind

/-- The format of an image. -/
inductive Format where
  /-- A PE image whose PE signature is at `headerOffset`. -/
  | pe (kind : PeKind) (headerOffset : UInt32)
  /-- A TE image in which every file offset is too large by `strippedOffset`. -/
  | te (strippedOffset : UInt32)
deriving DecidableEq, Repr

namespace Format

/-- The usual name of a format. -/
def name : Format → String
  | pe .pe32 _ => "PE32"
  | pe .pe32Plus _ => "PE32+"
  | te _ => "TE"

/-- Whether the format is known to be of a 64-bit image. -/
def is64Bit : Format → Bool
  | pe .pe32Plus _ => true
  | _ => false

/-- How far the file offsets in an image of this format are too large. -/
def strippedOffset : Format → UInt32
  | pe _ _ => 0
  | te strippedOffset => strippedOffset

/-- Where the PE signature is, for a format that has one. -/
def headerOffset? : Format → Option UInt32
  | pe _ headerOffset => some headerOffset
  | te _ => none

/-- Whether the format is TE. -/
def isTe : Format → Bool
  | pe _ _ => false
  | te _ => true

end Format

end SymbolLocator
