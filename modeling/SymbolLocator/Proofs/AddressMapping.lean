import SymbolLocator.Proofs.LoadedLookup
import SymbolLocator.Proofs.TeGrammar

/-!
# Address Mapping

How the virtual addresses of a loaded image go to places in its file.

An address goes to the file by way of the section that holds it, so the
mapping is only as good as the choice of the section. A lookup takes the first
that holds the range. In a loaded image this is no choice: at most one section
holds a range that is not empty. For an empty range it would be one, since two
sections that touch both hold the empty range between them.

What the section maps to then stays with it. The distance to the start of the
section is the same in the file as in memory, the range ends in the data of
the section, and the data ends in the file. So no lookup in a loaded image
reads bytes that belong to another section.

## Main definitions

* `SectionTable.HoldsAt`: The section at an index holds a range.
* `Image.dataStart`: Where the data of a section begins in the file.
* `Image.MapsTo`: A directory is what a section has for a range.

## Theorems

* `WellFormed.holdsAt_unique`: At most one section holds a range.
* `WellFormed.containing?_iff_holdsAt`: The search finds it wherever it is.
* `not_outsideImage_of_end_le`: A directory within the image is not reported to
  reach past it.
* `WellFormed.exists_mapsTo`: A directory is what its section has for its range.
* `Image.directory_in_one_section`: All of this for a loaded image.
-/

namespace SymbolLocator

/-- The section at `index` is `header`, and holds the range. -/
def SectionTable.HoldsAt (table : SectionTable) (range : VirtualRange) (index : Nat)
    (header : Section) : Prop :=
  table.toList[index]? = some header ∧ header.contains range = true

namespace Image

/-- Where the data of a section begins in the file, once the bytes that were
    stripped off are taken into account. -/
def dataStart (image : Image) (header : Section) : Nat :=
  header.rawPointer.toNat - image.strippedOffset.toNat

/-- The directory is what the data of the section `header` has for the
    range. -/
structure MapsTo (image : Image) (range : VirtualRange) (header : Section)
    (directory : DebugDirectory) : Prop where
  notStripped : image.strippedOffset.toNat ≤ header.rawPointer.toNat
  start_le : image.dataStart header ≤ directory.fileOffset.toNat
  distance : directory.fileOffset.toNat - image.dataStart header =
    range.address.toNat - header.virtualAddress.toNat
  inData : directory.fileOffset.toNat + range.size.toNat ≤
    image.dataStart header + header.rawSize.toNat
  dataInFile : image.dataStart header + header.rawSize.toNat ≤ image.buffer.size
  aligned : 4 ∣ directory.fileOffset.toNat
  whole : directory.size * 28 = range.size.toNat
  bytes : directory.bytes.bytes =
    (image.buffer.bytes.drop directory.fileOffset.toNat).take range.size.toNat

variable {image : Image} {options : Options} {table : SectionTable} {range : VirtualRange}

/-! ### Sections of a table -/

theorem lt_count_of_getElem? (htable : image.sections? = some table) {i : Nat} {header : Section}
    (hget : table.toList[i]? = some header) : i < image.sectionCount.toNat := by
  rcases List.getElem?_eq_some_iff.mp hget with ⟨hi, -⟩
  rw [← SectionTable.length_toList htable]
  exact hi

theorem extent_of_getElem? (htable : image.sections? = some table) {i : Nat} {header : Section}
    (hget : table.toList[i]? = some header) : header.extent = image.extentAt i := by
  rcases List.getElem?_eq_some_iff.mp hget with ⟨hi, hheader⟩
  rw [← hheader]
  exact SectionTable.extent_getElem htable hi

theorem exists_getElem? (htable : image.sections? = some table) {i : Nat}
    (hi : i < image.sectionCount.toNat) : ∃ header, table.toList[i]? = some header := by
  rw [← SectionTable.length_toList htable] at hi
  exact ⟨_, List.getElem?_eq_getElem hi⟩

theorem holds_of_holdsAt (htable : image.sections? = some table) {i : Nat} {header : Section}
    (h : table.HoldsAt range i header) :
    (image.extentAt i).Holds range.address.toNat range.size.toNat := by
  rw [← extent_of_getElem? htable h.1]
  exact Section.contains_iff.mp h.2

namespace WellFormed

theorem exists_sections? (hwell : image.WellFormed) : ∃ table, image.sections? = some table :=
  Option.ne_none_iff_exists'.mp (SectionTable.ofBuffer?_ne_none_iff.mpr hwell.table)

/-- At most one section holds a range that is not empty. -/
theorem holdsAt_unique (hwell : image.WellFormed) (htable : image.sections? = some table)
    (hpos : 0 < range.size.toNat) {i j : Nat} {header other : Section}
    (h : table.HoldsAt range i header) (hother : table.HoldsAt range j other) : i = j :=
  hwell.index_unique (lt_count_of_getElem? htable h.1) (lt_count_of_getElem? htable hother.1) hpos
    (holds_of_holdsAt htable h) (holds_of_holdsAt htable hother)

/-- The search finds the section that holds a range, wherever it is in the
    table. -/
theorem containing?_iff_holdsAt (hwell : image.WellFormed)
    (htable : image.sections? = some table) (hpos : 0 < range.size.toNat) {i : Nat}
    {header : Section} :
    table.containing? range = some (i, header) ↔ table.HoldsAt range i header := by
  rw [SectionTable.containing?, firstMatch_eq_some_iff]
  constructor
  · intro h
    exact ⟨h.1, h.2.1⟩
  · intro h
    refine ⟨h.1, h.2, fun j hj other hother => ?_⟩
    -- A section in front that holds the range too would be another one.
    rw [← Bool.not_eq_true]
    intro hholds
    have heq : j = i := hwell.holdsAt_unique htable hpos ⟨hother, hholds⟩ h
    omega

/-- A range in a section ends within the image. -/
theorem end_le_of_holdsAt (hwell : image.WellFormed) (htable : image.sections? = some table)
    {i : Nat} {header : Section} (h : table.HoldsAt range i header) :
    range.address.toNat + range.size.toNat ≤ image.sizeOfImage.toNat := by
  have htop := hwell.sections.inImage i (lt_count_of_getElem? htable h.1)
  exact Nat.le_trans (holds_of_holdsAt htable h).2.1 htop

end WellFormed

/-! ### Ranges within the image -/

-- Of all checks of a lookup, one reports that the directory reaches past the image, and it
-- looks at nothing but the range in the slot.
theorem not_outsideImage_of_end_le (options : Options)
    (hend : image.announcedAddress + image.announcedSize ≤ image.sizeOfImage.toNat)
    (address size : UInt32) :
    ¬ FirstFailure (lookupChecks image options)
      (.malformed (.directoryOutsideImage address size)) := by
  have hslot : ∀ check ∈ slotChecks image options,
      check.error ≠ .malformed (.directoryOutsideImage address size) := by
    unfold slotChecks
    cases image.format with
    | pe kind start => simp
    | te stripped => simp
  have hall : ∀ check ∈ lookupChecks image options,
      check.error = .malformed (.directoryOutsideImage address size) → check.condition := by
    simp only [lookupChecks, directoryChecks, locateChecks, rangeChecks, placeChecks, viewChecks,
      scanChecks, recordChecks, List.forall_mem_append, List.forall_mem_cons, List.not_mem_nil,
      LookupError.malformed.injEq, reduceCtorEq, false_implies, implies_true, true_and, and_true,
      hend]
    exact fun check hmem herror => absurd herror (hslot check hmem)
  intro h
  rcases h.exists_failed with ⟨check, hmem, hfailed, herror⟩
  exact hfailed (hall check hmem herror)

/-- A directory that some section holds is not reported to reach past the
    image. -/
theorem WellFormed.not_reports_outsideImage (hwell : image.WellFormed)
    (htable : image.sections? = some table) {i : Nat} {header : Section}
    (hholds : table.HoldsAt range i header) (hrange : image.announcedRange options = .ok range)
    (address size : UInt32) :
    image.debugDirectory options ≠ .error (.malformed (.directoryOutsideImage address size)) ∧
      image.symbolPath options ≠ .error (.malformed (.directoryOutsideImage address size)) := by
  rcases ((announcedRange_follows image options).of_eq_ok hrange).2 with ⟨haddress, hsize⟩
  have hend := hwell.end_le_of_holdsAt htable hholds
  rw [haddress, hsize] at hend
  have hnot := not_outsideImage_of_end_le options hend address size
  rw [ne_eq, ne_eq, (debugDirectory_follows image options).eq_error_iff,
    (symbolPath_follows hwell.small options).eq_error_iff]
  -- The checks on the way to the directory are the first of the whole lookup.
  exact ⟨fun h => hnot (firstFailure_append.mpr (Or.inl h)), hnot⟩

/-! ### Placed directories -/

/-- Where a range is placed, in numbers. The distance to the start of the
    section is kept, and the data that the range ends in is in the file. -/
theorem WellFormed.placeAt_in_data (hwell : image.WellFormed) (hadmitted : image.AdmittedBy options)
    {address size : Nat} (hpos : 0 < size)
    (hplace : AllHold (placeChecks image options address size)) :
    image.strippedOffset.toNat ≤ (image.holder address size).rawPointer ∧
      image.placeAt options address size =
        (image.holder address size).rawPointer - image.strippedOffset.toNat +
          (address - (image.holder address size).address) ∧
      address - (image.holder address size).address + size ≤ (image.holder address size).rawSize ∧
      (image.holder address size).rawPointer - image.strippedOffset.toNat +
        (image.holder address size).rawSize ≤ image.buffer.size ∧
      4 ∣ image.placeAt options address size := by
  simp only [placeChecks, allHold_cons] at hplace
  rcases hplace with ⟨-, hsome, hdata, -, hstripped, haligned, -⟩
  rw [shift_eq hadmitted] at hstripped
  -- The range is not empty, so its section has data, which the loader has looked at.
  have hraw : 0 < (image.holder address size).rawSize := by omega
  have hfile := hwell.sections.inFile _ (holder_holds hsome).1 hraw
  refine ⟨hstripped, ?_, hdata, hfile.2, haligned⟩
  rw [placeAt, shift_eq hadmitted, Nat.sub_add_comm hstripped]

/-- The view of a range that is placed in the data of its section is what the
    section has for the range. -/
theorem WellFormed.mapsTo_of_placed (hwell : image.WellFormed)
    (hadmitted : image.AdmittedBy options) (hpos : 0 < range.size.toNat)
    (hwhole : 28 ∣ range.size.toNat)
    (hplace : AllHold (placeChecks image options range.address.toNat range.size.toNat))
    {header : Section} (hextent : header.extent = image.holder range.address.toNat range.size.toNat)
    {directory : DebugDirectory}
    (hoffset : directory.fileOffset.toNat =
      image.placeAt options range.address.toNat range.size.toNat)
    (hslice : image.buffer.slice? directory.fileOffset.toNat range.size.toNat =
      some directory.bytes) :
    image.MapsTo range header directory := by
  rcases hwell.placeAt_in_data hadmitted hpos hplace with
    ⟨hstripped, hplaced, hdata, hfile, haligned⟩
  rw [← hoffset] at hplaced haligned
  rw [← hextent] at hstripped hplaced hdata hfile
  have hstart : image.dataStart header =
      header.extent.rawPointer - image.strippedOffset.toNat := rfl
  have haddress : header.virtualAddress.toNat = header.extent.address := rfl
  have hraw : header.rawSize.toNat = header.extent.rawSize := rfl
  refine ⟨hstripped, ?_, ?_, ?_, ?_, haligned, ?_, (Buffer.slice?_eq_some_iff.mp hslice).2⟩
  · omega
  · omega
  · omega
  · omega
  · rw [DebugDirectory.size, Buffer.size_slice hslice, DebugEntry.size, Nat.div_mul_cancel hwhole]

/-- A directory that is found is what one section has for the range in the
    slot. -/
theorem WellFormed.exists_mapsTo (hwell : image.WellFormed) (htable : image.sections? = some table)
    {directory : DebugDirectory} (hdirectory : image.debugDirectory options = .ok directory) :
    ∃ range, image.announcedRange options = .ok range ∧ 0 < range.size.toNat ∧
      ∃ i header, table.HoldsAt range i header ∧ image.MapsTo range header directory := by
  rcases (debugDirectory_follows image options).of_eq_ok hdirectory with
    ⟨hall, fileOffset, size, hoffset, hsize, hview⟩
  have hadmitted := admitted_of_allHold hall
  rw [directoryChecks, allHold_cons, allHold_append, allHold_append, allHold_append] at hall
  rcases hall with ⟨-, hlocate, hrange, hplace, -⟩
  rcases (announcedRange_follows image options).exists_ok_iff.mpr hlocate with ⟨range, hannounced⟩
  rcases ((announcedRange_follows image options).of_eq_ok hannounced).2 with
    ⟨haddress, hannouncedSize⟩
  -- From here on the range in the slot stands for the numbers of the file.
  rw [directoryStart, ← haddress, ← hannouncedSize] at hoffset
  rw [← haddress, ← hannouncedSize] at hrange hplace
  rw [← hannouncedSize] at hsize
  simp only [rangeChecks, allHold_cons] at hrange
  rcases hrange with ⟨hnonempty, hwhole, -⟩
  have hpos : 0 < range.size.toNat := Nat.pos_of_ne_zero hnonempty
  -- The section that was found is in the table, and the header there says where it lies.
  have hsome := hplace
  simp only [placeChecks, allHold_cons] at hsome
  rcases holder_holds hsome.2.1 with ⟨hindex, hholds⟩
  rcases exists_getElem? htable hindex with ⟨header, hget⟩
  have hextent : header.extent = image.holder range.address.toNat range.size.toNat :=
    extent_of_getElem? htable hget
  rw [← hextent] at hholds
  rcases DebugDirectory.ofBuffer?_eq_some_iff.mp hview with ⟨hslice, rfl⟩
  rw [hsize] at hslice
  exact ⟨range, hannounced, hpos, _, header, ⟨hget, Section.contains_iff.mpr hholds⟩,
    hwell.mapsTo_of_placed hadmitted hpos hwhole hplace hextent hoffset hslice⟩

/-! ### Loaded images -/

/-- The mapping of a loaded image. At most one section holds a range that is
    not empty, and the search finds it. A range in a section is within the
    image, so a directory there is never reported to reach past it. And a
    directory that is found is what the one section that holds its range has
    for it, whatever options it is looked up with. -/
theorem directory_in_one_section {buffer : Buffer} {loading : Options} {image : Image}
    (hload : Image.load buffer loading = .ok image) :
    image.buffer = buffer ∧ ∃ table, image.sectionTable = .ok table ∧
      (∀ range : VirtualRange, 0 < range.size.toNat →
        (∀ i j header other, table.HoldsAt range i header → table.HoldsAt range j other → i = j) ∧
        ∀ i header, table.containing? range = some (i, header) ↔ table.HoldsAt range i header) ∧
      (∀ range i header, table.HoldsAt range i header →
        range.address.toNat + range.size.toNat ≤ image.sizeOfImage.toNat ∧
        ∀ options address size, image.announcedRange options = .ok range →
          image.debugDirectory options ≠
              .error (.malformed (.directoryOutsideImage address size)) ∧
            image.symbolPath options ≠
              .error (.malformed (.directoryOutsideImage address size))) ∧
      ∀ options directory, image.debugDirectory options = .ok directory →
        ∃ range, image.announcedRange options = .ok range ∧
          ∃ i header, table.HoldsAt range i header ∧
            (∀ j other, table.HoldsAt range j other → j = i) ∧
            image.MapsTo range header directory := by
  have hwell := wellFormed_of_load hload
  rcases hwell.exists_sections? with ⟨table, htable⟩
  refine ⟨(load_cases hload).1, table, require_eq_ok_iff.mpr htable, ?_, ?_, ?_⟩
  · intro range hpos
    exact ⟨fun i j header other h hother => hwell.holdsAt_unique htable hpos h hother,
      fun i header => hwell.containing?_iff_holdsAt htable hpos⟩
  · intro range i header hholds
    exact ⟨hwell.end_le_of_holdsAt htable hholds, fun options address size hrange =>
      hwell.not_reports_outsideImage htable hholds hrange address size⟩
  · intro options directory hdirectory
    rcases hwell.exists_mapsTo htable hdirectory with
      ⟨range, hrange, hpos, i, header, hholds, hmaps⟩
    exact ⟨range, hrange, i, header, hholds,
      fun j other hother => hwell.holdsAt_unique htable hpos hother hholds, hmaps⟩

end Image

theorem strippedImage_directory_in_one_section :
    Image.load strippedImage .standard = .ok strippedLoaded ∧
      ∃ directory range header, strippedLoaded.debugDirectory .standard = .ok directory ∧
        header.contains range = true ∧ strippedLoaded.MapsTo range header directory := by
  rcases Image.directory_in_one_section load_strippedImage with ⟨-, table, -, -, -, hmaps⟩
  have hfound : (strippedLoaded.debugDirectory .standard).isOk = true := by decide +kernel
  rcases exists_ok_of_isOk hfound with ⟨directory, hdirectory⟩
  rcases hmaps .standard directory hdirectory with ⟨range, -, i, header, hholds, -, hmaps⟩
  exact ⟨load_strippedImage, directory, range, header, hdirectory, hholds.2, hmaps⟩

end SymbolLocator
