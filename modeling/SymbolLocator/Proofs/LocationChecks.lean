import SymbolLocator.Debug.Location
import SymbolLocator.Proofs.CheckLists
import SymbolLocator.Proofs.Tables
import SymbolLocator.Proofs.Words

/-!
# Location Checks

What finding the debug directory of an image checks, in order, as conditions
on its bytes.

The directory is announced by a slot, its range is checked, placed in the file
by way of a section, and viewed. The checks of each stage stand in a list of
their own, over the numbers of the file and the layout the image was given.
None of it presumes that the layout holds of the buffer, and where it does not,
that is one of the conditions.

The quantities that the stages hand on, such as the section a range lies in,
are functions of the image here. They are meant for an image that passed the
checks in front, and have some value where it did not. A word that an error
reports is written as the word of a number; the numbers are below the word
size wherever the checks in front hold.

## Main definitions

* `Image.shift`: What file offsets are too large by.
* `Image.slotAt`, `Image.announcedAddress`, `Image.announcedSize`: The slot of
  the debug directory and the range in it.
* `Image.holderIndex`, `Image.placeAt`: The section that holds a range, and
  the place of the range in the file.
* `slotChecks`, `locateChecks`, `rangeChecks`, `placeChecks`, `viewChecks`:
  The checks of each stage.

## Theorems

* `Image.announcedRange_follows`, `VirtualRange.checkDirectory_follows`,
  `Image.place_follows`, `Image.directoryAt_follows`: Each stage decides as its
  list says.
-/

namespace SymbolLocator

/-! ### Quantities -/

namespace Image

/-- What file offsets in the image are too large by, as far as the options
    let it count. -/
def shift (image : Image) (options : Options) : Nat :=
  if options.allowTe then image.strippedOffset.toNat else 0

/-- Where the slot of the debug directory is. -/
def slotAt (image : Image) : Nat :=
  match image.format with
  | .te _ => 32
  | .pe .pe32 start => start.toNat + 24 + 96 + 48
  | .pe .pe32Plus start => start.toNat + 24 + 112 + 48

/-- The address in the slot. -/
def announcedAddress (image : Image) : Nat := image.buffer.numberAt 4 image.slotAt

/-- The size in the slot. -/
def announcedSize (image : Image) : Nat := image.buffer.numberAt 4 (image.slotAt + 4)

/-- Where the section at `index` lies. -/
def extentAt (image : Image) (index : Nat) : Extent :=
  image.buffer.extentAt image.sectionsOffset.toNat index

/-- The position of the first section that holds a range. -/
def holderIndex (image : Image) (address size : Nat) : Nat :=
  leastIndex (fun i => (image.extentAt i).Holds address size) image.sectionCount.toNat

/-- The extent of the first section that holds a range. -/
def holder (image : Image) (address size : Nat) : Extent :=
  image.extentAt (image.holderIndex address size)

/-- Where a range is in the file, by the first section that holds it. -/
def placeAt (image : Image) (options : Options) (address size : Nat) : Nat :=
  (image.holder address size).rawPointer + (address - (image.holder address size).address) -
    image.shift options

end Image

/-! ### Lists -/

/-- The checks that the image has a slot for a debug directory. -/
def slotChecks (image : Image) (options : Options) : List (Check LookupError) :=
  match image.format with
  | .te _ => [⟨options.allowTe = true, .contract Violation.teDisabled⟩]
  | .pe kind start => [
      ⟨start.toNat + 24 + kind.countOffset + 4 ≤ image.buffer.size,
        .contract Violation.optionalHeaderOutsideFile⟩,
      ⟨6 < image.buffer.numberAt 4 (start.toNat + 24 + kind.countOffset), .absent .noDirectory⟩]

/-- The checks on the way to the range in the slot. -/
def locateChecks (image : Image) (options : Options) : List (Check LookupError) :=
  slotChecks image options ++
    [⟨image.slotAt + 8 ≤ image.buffer.size, .contract Violation.slotOutsideFile⟩]

/-- The checks of the range of a debug directory. -/
def rangeChecks (address size sizeOfImage : Nat) : List (Check LookupError) := [
  ⟨size ≠ 0, .absent .emptyDirectory⟩,
  ⟨28 ∣ size, .malformed (.directoryNotWhole (UInt32.ofNat size))⟩,
  ⟨address + size ≤ sizeOfImage,
    .malformed (.directoryOutsideImage (UInt32.ofNat address) (UInt32.ofNat size))⟩]

/-- The checks on the way from a range to its place in the file. -/
def placeChecks (image : Image) (options : Options) (address size : Nat) :
    List (Check LookupError) :=
  let extent := image.holder address size
  let place := image.placeAt options address size
  [⟨image.sectionsOffset.toNat + 40 * image.sectionCount.toNat ≤ image.buffer.size,
      .contract Violation.sectionTableOutsideBuffer⟩,
    ⟨∃ i < image.sectionCount.toNat, (image.extentAt i).Holds address size,
      .malformed (.directoryOutsideSections (UInt32.ofNat address))⟩,
    ⟨address - extent.address + size ≤ extent.rawSize,
      .malformed (.directoryExceedsRawData (image.holderIndex address size))⟩,
    ⟨extent.rawPointer + (address - extent.address) < UInt32.size,
      .malformed .directoryOffsetOverflow⟩,
    ⟨image.shift options ≤ extent.rawPointer, .contract Violation.strippedPastRawData⟩,
    ⟨4 ∣ place, .malformed (.directoryMisaligned (UInt32.ofNat place))⟩]

/-- The check that the directory is in the file. -/
def viewChecks (buffer : Buffer) (directory size : Nat) : List (Check LookupError) := [
  ⟨directory + size ≤ buffer.size, .malformed (.directoryOutsideFile (UInt32.ofNat directory))⟩]

/-! ### Locating -/

theorem VirtualRange.slot_eq_some_iff {buffer : Buffer} {offset : Nat} {range : VirtualRange} :
    (buffer.slice? offset slotSize).bind VirtualRange.decode? = some range ↔
      offset + 8 ≤ buffer.size ∧ range.address.toNat = buffer.numberAt 4 offset ∧
        range.size.toNat = buffer.numberAt 4 (offset + 4) := by
  -- Whatever slot is read, the range in it holds two numbers of the buffer.
  have hnumbers : ∀ slot, buffer.slice? offset 8 = some slot →
      (VirtualRange.decode? slot = some range ↔
        range.address.toNat = buffer.numberAt 4 offset ∧
          range.size.toNat = buffer.numberAt 4 (offset + 4)) := by
    intro slot hslice
    have hsize := Buffer.size_slice hslice
    simp only [VirtualRange.decode?, Option.bind_eq_bind, Option.pure_def,
      Option.bind_eq_some_iff, Option.some.injEq, Buffer.word32?_eq_some_iff,
      Buffer.numberAt_slice hslice (by omega : 0 + 4 ≤ 8),
      Buffer.numberAt_slice hslice (by omega : 4 + 4 ≤ 8), Nat.add_zero]
    constructor
    · intro h
      rcases h with ⟨address, ⟨-, haddress⟩, size, ⟨-, hword⟩, hrange⟩
      rw [← hrange]
      exact ⟨haddress, hword⟩
    · intro h
      exact ⟨range.address, ⟨by omega, h.1⟩, range.size, ⟨by omega, h.2⟩, rfl⟩
  rw [Option.bind_eq_some_iff, slotSize]
  constructor
  · intro h
    rcases h with ⟨slot, hslice, hdecode⟩
    exact ⟨(Buffer.slice?_eq_some_iff.mp hslice).1, (hnumbers slot hslice).mp hdecode⟩
  · intro h
    rcases buffer.slice?_eq_some h.1 with ⟨slot, hslice⟩
    exact ⟨slot, hslice, (hnumbers slot hslice).mpr h.2⟩

theorem VirtualRange.slot_ne_none_iff {buffer : Buffer} {offset : Nat} :
    (buffer.slice? offset slotSize).bind VirtualRange.decode? ≠ none ↔
      offset + 8 ≤ buffer.size := by
  rw [Option.ne_none_iff_exists']
  simp only [slot_eq_some_iff]
  constructor
  · intro h
    rcases h with ⟨range, hfit, -⟩
    exact hfit
  · intro h
    rcases Word.exists_toNat_eq (buffer.wordAt_lt offset) with ⟨address, haddress⟩
    rcases Word.exists_toNat_eq (buffer.wordAt_lt (offset + 4)) with ⟨size, hsize⟩
    exact ⟨⟨address, size⟩, h, haddress, hsize⟩

namespace Image

theorem slotOffset_follows (image : Image) (options : Options) :
    Follows (image.slotOffset options) (slotChecks image options)
      (fun offset => offset = image.slotAt) := by
  unfold slotOffset slotChecks slotAt
  rcases image.format with ⟨kind, start⟩ | stripped
  · -- A PE image has as many slots as the count says, and only then is the slot looked at.
    refine follows_require_bind Buffer.word32?_ne_none_iff fun count hcount _ => ?_
    rw [Buffer.word32?_eq_some_iff] at hcount
    have hslot : debugSlot < count.toNat ↔
        6 < image.buffer.numberAt 4 (start.toNat + 24 + kind.countOffset) := by
      rw [hcount.2]
      rfl
    refine follows_ensure_bind hslot fun _ => follows_ok ?_
    cases kind with
    | pe32 => rfl
    | pe32Plus => rfl
  · -- A TE image always has one.
    exact follows_ensure_bind Iff.rfl fun _ => follows_ok rfl

theorem announcedRange_follows (image : Image) (options : Options) :
    Follows (image.announcedRange options) (locateChecks image options)
      (fun range => range.address.toNat = image.announcedAddress ∧
        range.size.toNat = image.announcedSize) := by
  refine follows_bind (slotOffset_follows image options) fun offset hoffset => ?_
  rw [hoffset]
  refine (follows_require VirtualRange.slot_ne_none_iff).mono fun range hrange => ?_
  exact (VirtualRange.slot_eq_some_iff.mp hrange.1).2

end Image

theorem VirtualRange.checkDirectory_follows (range : VirtualRange) (sizeOfImage : UInt32) :
    Follows (range.checkDirectory sizeOfImage)
      (rangeChecks range.address.toNat range.size.toNat sizeOfImage.toNat)
      (fun _ => True) := by
  have hzero : range.size ≠ 0 ↔ range.size.toNat ≠ 0 := by
    rw [ne_eq, ← UInt32.toNat_inj]
    rfl
  have hwhole : range.size.toNat % DebugEntry.size = 0 ↔ 28 ∣ range.size.toNat :=
    Nat.dvd_iff_mod_eq_zero.symm
  rw [rangeChecks, UInt32.ofNat_toNat, UInt32.ofNat_toNat]
  refine follows_ensure_bind hzero fun _ => ?_
  refine follows_ensure_bind hwhole fun _ => ?_
  exact (follows_ensure Word.any_add?_le_iff).mono fun _ _ => trivial

/-! ### Placing -/

namespace Image

theorem toNat_compensation (image : Image) (options : Options) :
    (image.compensation options).toNat = image.shift options := by
  unfold compensation shift
  by_cases h : options.allowTe = true
  · rw [if_pos h, if_pos h]
  · rw [if_neg h, if_neg h]
    rfl

theorem containing?_ne_none_iff {image : Image} {table : SectionTable}
    (htable : image.sections? = some table) {range : VirtualRange} :
    table.containing? range ≠ none ↔
      ∃ i < image.sectionCount.toNat,
        (image.extentAt i).Holds range.address.toNat range.size.toNat := by
  rw [ne_eq, SectionTable.containing?_eq_none_iff htable]
  simp only [Classical.not_forall, Classical.not_not, exists_prop]
  rfl

-- The section that the search finds is the one at the least index that holds the range.
theorem of_containing?_eq_some {image : Image} {table : SectionTable}
    (htable : image.sections? = some table) {range : VirtualRange} {i : Nat} {header : Section}
    (hhit : table.containing? range = some (i, header)) :
    i = image.holderIndex range.address.toNat range.size.toNat ∧
      header.extent = image.holder range.address.toNat range.size.toNat ∧
      header.extent.Holds range.address.toNat range.size.toNat := by
  rw [SectionTable.containing?_eq_some_iff htable] at hhit
  rcases hhit with ⟨hget, hholds, hfirst⟩
  rcases List.getElem?_eq_some_iff.mp hget with ⟨hi, hheader⟩
  have hcount : i < image.sectionCount.toNat := by
    rw [← SectionTable.length_toList htable]
    exact hi
  have hindex : image.holderIndex range.address.toNat range.size.toNat = i :=
    (leastIndex_eq_iff hcount).mpr ⟨hholds, hfirst⟩
  have hextent : header.extent = image.extentAt i := by
    rw [← hheader]
    exact SectionTable.extent_getElem htable hi
  refine ⟨hindex.symm, ?_, ?_⟩
  · rw [hextent, holder, hindex]
  · rw [hextent]
    exact hholds

theorem place_follows (image : Image) (range : VirtualRange) (options : Options) :
    Follows (image.place range options)
      (placeChecks image options range.address.toNat range.size.toNat)
      (fun placement =>
        placement.fileOffset.toNat =
          image.placeAt options range.address.toNat range.size.toNat) := by
  rw [placeChecks, UInt32.ofNat_toNat]
  refine follows_require_bind SectionTable.ofBuffer?_ne_none_iff fun table htable _ => ?_
  refine follows_require_bind (containing?_ne_none_iff htable) fun hit hhit _ => ?_
  rcases hit with ⟨i, header⟩
  -- The section that was found is the holder, and begins no later than the range.
  rcases of_containing?_eq_some htable hhit with ⟨hindex, hextent, hbegin, -, -⟩
  rw [placeAt, ← hindex, ← hextent]
  have haddress : header.extent.address = header.virtualAddress.toNat := rfl
  have hpointer : header.extent.rawPointer = header.rawPointer.toNat := rfl
  have hdistance : (range.address - header.virtualAddress).toNat =
      range.address.toNat - header.extent.address :=
    UInt32.toNat_sub_of_le _ _ (UInt32.le_iff_toNat_le.mpr hbegin)
  rw [← hdistance]
  refine follows_ensure_bind Word.any_add?_le_iff fun _ => ?_
  have hsum : Word.add? header.rawPointer (range.address - header.virtualAddress) ≠ none ↔
      header.extent.rawPointer + (range.address - header.virtualAddress).toNat < UInt32.size := by
    rw [ne_eq, Word.add?_eq_none_iff, Nat.not_le]
    rfl
  refine follows_require_bind hsum fun offset hoffset _ => ?_
  rw [Word.add?_eq_some_iff] at hoffset
  have hshift : image.compensation options ≤ header.rawPointer ↔
      image.shift options ≤ header.extent.rawPointer := by
    rw [UInt32.le_iff_toNat_le, toNat_compensation]
    rfl
  refine follows_ensure_bind hshift fun hle => ?_
  -- What is subtracted is at most the pointer, so the difference is that of the numbers.
  have hplace : (offset - image.compensation options).toNat =
      header.extent.rawPointer + (range.address - header.virtualAddress).toNat -
        image.shift options := by
    rw [UInt32.toNat_sub_of_le, hoffset, toNat_compensation, hpointer]
    rw [UInt32.le_iff_toNat_le, toNat_compensation]
    omega
  rw [← hplace, UInt32.ofNat_toNat]
  exact follows_ensure_bind Word.isAligned_four_iff fun _ => follows_ok rfl

/-! ### Viewing -/

theorem directoryAt_follows (image : Image) (fileOffset size : UInt32) :
    Follows (image.directoryAt fileOffset size)
      (viewChecks image.buffer fileOffset.toNat size.toNat)
      (fun directory =>
        DebugDirectory.ofBuffer? image.buffer fileOffset size = some directory) := by
  have hview : DebugDirectory.ofBuffer? image.buffer fileOffset size ≠ none ↔
      fileOffset.toNat + size.toNat ≤ image.buffer.size := by
    rw [ne_eq, DebugDirectory.ofBuffer?_eq_none_iff, Nat.not_lt]
  rw [viewChecks, UInt32.ofNat_toNat]
  exact (follows_require hview).mono fun _ hdirectory => hdirectory.1

end Image

end SymbolLocator
