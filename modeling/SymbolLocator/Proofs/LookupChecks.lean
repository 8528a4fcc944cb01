import SymbolLocator.Lookup
import SymbolLocator.Proofs.RecordChecks

/-!
# Lookup Checks

What a whole lookup in an image checks, in order.

The list of a lookup is made of the lists of its stages, one behind the other,
each over what the stages in front hand on. A lookup therefore fails with the
first fault of the image in this order, whatever else is wrong with it, and it
reports the numbers of that fault.

## Main definitions

* `Buffer.codeViewIndex`: The position of the first CodeView entry.
* `scanChecks`: The check that there is one.
* `Image.directoryStart`, `Image.recordSize`, `Image.recordPointer`: What the
  stages hand on.
* `directoryChecks`, `lookupChecks`: The checks on the way to the entries, and
  those of a whole lookup.

## Theorems

* `DebugDirectory.codeViewEntry_follows`: The search decides as its list says.
* `Image.debugDirectory_follows`, `Image.symbolPath_follows`: So do all stages
  together.
-/

namespace SymbolLocator

namespace Buffer

/-- The position of the first CodeView entry of a directory. -/
def codeViewIndex (buffer : Buffer) (directory size : Nat) : Nat :=
  leastIndex (fun i => buffer.entryTypeAt directory i = 2) (size / 28)

end Buffer

/-- The check that the directory has a CodeView entry. -/
def scanChecks (buffer : Buffer) (directory size : Nat) : List (Check LookupError) := [
  ⟨∃ i < size / 28, buffer.entryTypeAt directory i = 2, .absent .noCodeViewEntry⟩]

namespace DebugDirectory

variable {buffer : Buffer} {fileOffset size : UInt32} {directory : DebugDirectory}

theorem codeView?_ne_none_iff (h : ofBuffer? buffer fileOffset size = some directory) :
    directory.codeView? ≠ none ↔
      ∃ i < size.toNat / 28, buffer.entryTypeAt fileOffset.toNat i = 2 := by
  rw [ne_eq, codeView?_eq_none_iff h]
  simp only [Classical.not_forall, Classical.not_not, exists_prop]

theorem codeViewEntry_follows (h : ofBuffer? buffer fileOffset size = some directory) :
    Follows directory.codeViewEntry (scanChecks buffer fileOffset.toNat size.toNat)
      (fun hit =>
        hit.1 = buffer.codeViewIndex fileOffset.toNat size.toNat ∧
          hit.2.dataSize.toNat = buffer.entrySizeAt fileOffset.toNat hit.1 ∧
          hit.2.rawPointer.toNat = buffer.entryPointerAt fileOffset.toNat hit.1) := by
  refine (follows_require (codeView?_ne_none_iff h)).mono fun hit hhit => ?_
  rcases hit with ⟨i, entry⟩
  -- The hit is at the least index, and the entry there holds the numbers of the buffer.
  rw [codeView?_eq_some_iff h] at hhit
  rcases hhit with ⟨⟨hget, htype, hfirst⟩, -⟩
  rcases List.getElem?_eq_some_iff.mp hget with ⟨hi, hentry⟩
  have hcount : i < size.toNat / 28 := by
    rw [← length_toList h]
    exact hi
  have hnumbers := numbers_getElem h hi
  rw [hentry] at hnumbers
  exact ⟨((leastIndex_eq_iff hcount).mpr ⟨htype, hfirst⟩).symm, hnumbers.2⟩

end DebugDirectory

namespace Image

/-- Where the debug directory that the slot announces is in the file. -/
def directoryStart (image : Image) (options : Options) : Nat :=
  image.placeAt options image.announcedAddress image.announcedSize

/-- The position of the first CodeView entry in the debug directory. -/
def entryIndex (image : Image) (options : Options) : Nat :=
  image.buffer.codeViewIndex (image.directoryStart options) image.announcedSize

/-- The size of the record that the first CodeView entry describes. -/
def recordSize (image : Image) (options : Options) : Nat :=
  image.buffer.entrySizeAt (image.directoryStart options) (image.entryIndex options)

/-- The file pointer in the first CodeView entry. -/
def recordPointer (image : Image) (options : Options) : Nat :=
  image.buffer.entryPointerAt (image.directoryStart options) (image.entryIndex options)

end Image

/-- The checks on the way to the entries of the debug directory. -/
def directoryChecks (image : Image) (options : Options) : List (Check LookupError) :=
  ⟨options.debugSupport = true, .absent .supportDisabled⟩ ::
    (locateChecks image options ++
      (rangeChecks image.announcedAddress image.announcedSize image.sizeOfImage.toNat ++
        (placeChecks image options image.announcedAddress image.announcedSize ++
          viewChecks image.buffer (image.directoryStart options) image.announcedSize)))

/-- The checks of a lookup in an image, from first to last. -/
def lookupChecks (image : Image) (options : Options) : List (Check LookupError) :=
  directoryChecks image options ++
    (scanChecks image.buffer (image.directoryStart options) image.announcedSize ++
      recordChecks image options (image.recordSize options) (image.recordPointer options))

namespace Image

theorem debugDirectory_follows (image : Image) (options : Options) :
    Follows (image.debugDirectory options) (directoryChecks image options)
      (fun directory => ∃ fileOffset size : UInt32,
        fileOffset.toNat = image.directoryStart options ∧
          size.toNat = image.announcedSize ∧
          DebugDirectory.ofBuffer? image.buffer fileOffset size = some directory) := by
  refine follows_ensure_bind Iff.rfl fun _ => ?_
  refine follows_bind (announcedRange_follows image options) fun range hrange => ?_
  rcases hrange with ⟨haddress, hsize⟩
  -- The lists of the later stages are over the range that was read.
  rw [directoryStart, ← haddress, ← hsize]
  refine follows_bind (VirtualRange.checkDirectory_follows range _) fun _ _ => ?_
  refine follows_bind (place_follows image range options) fun placement hplace => ?_
  rw [← hplace]
  exact (directoryAt_follows image placement.fileOffset range.size).mono
    fun directory hdirectory => ⟨placement.fileOffset, range.size, rfl, rfl, hdirectory⟩

/-- A lookup in an image decides as the list of its checks says, in a file that
    32-bit offsets reach. -/
theorem symbolPath_follows {image : Image} (hsize : image.buffer.size < UInt32.size)
    (options : Options) :
    Follows (image.symbolPath options) (lookupChecks image options)
      (PathFacts image.buffer (image.recordPointer options - image.shift options)
        (image.recordSize options)) := by
  refine follows_bind (debugDirectory_follows image options) fun directory hdirectory => ?_
  rcases hdirectory with ⟨fileOffset, size, hoffset, hannounced, hview⟩
  rw [recordPointer, recordSize, entryIndex, ← hoffset, ← hannounced]
  refine follows_bind (DebugDirectory.codeViewEntry_follows hview) fun hit hhit => ?_
  rcases hit with ⟨i, entry⟩
  -- The record is the one that the numbers of the entry in the buffer describe.
  rcases hhit with ⟨hindex, hdataSize, hpointer⟩
  rw [← hindex, ← hdataSize, ← hpointer]
  exact recordPath_follows hsize entry options

-- Behind the first CodeView entry, a lookup is about its record.
theorem symbolPath_eq_recordPath {image : Image} {options : Options}
    {directory : DebugDirectory} {hit : Nat × DebugEntry}
    (hdirectory : image.debugDirectory options = .ok directory)
    (hhit : directory.codeViewEntry = .ok hit) :
    image.symbolPath options = image.recordPath hit.2 options := by
  unfold symbolPath
  rw [hdirectory]
  show (directory.codeViewEntry >>= fun found => image.recordPath found.2 options) = _
  rw [hhit]
  rfl

end Image

end SymbolLocator
