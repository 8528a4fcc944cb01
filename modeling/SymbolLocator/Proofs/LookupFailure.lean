import SymbolLocator.Proofs.LookupChecks

/-!
# Failing Lookups

Which error a lookup reports.

A lookup reports the first check of its list that does not hold, for any
layout whatever, be it read from the buffer or given by hand. The reverse
holds too: where a check is the first that does not hold, its error is the one
that is reported. So no fault hides behind a later one, and the three kinds of
failure are never taken for each other.

The list names the words of an error as words of numbers. `Exact` says that
nothing is lost in that. For most numbers this is because they are words of
the file. The place of the directory is a sum, and is a word because the check
for it comes earlier.

## Main definitions

* `LookupError.Exact`: The numbers in an error are those of the image.

## Theorems

* `exact_of_firstFailure`: The first failure of a lookup is exact.
* `Image.symbolPath_reports_first_failure`: A lookup fails with an error iff it
  is the first failure of its list.
-/

namespace SymbolLocator

namespace Image

/-- Where the record that the first CodeView entry describes is in the
    file. -/
def recordStart (image : Image) (options : Options) : Nat :=
  image.recordPointer options - image.shift options

end Image

/-- The numbers in an error are those of the image. -/
def LookupError.Exact (image : Image) (options : Options) : LookupError → Prop
  | .malformed (.directoryNotWhole size) => size.toNat = image.announcedSize
  | .malformed (.directoryOutsideImage address size) =>
    address.toNat = image.announcedAddress ∧ size.toNat = image.announcedSize
  | .malformed (.directoryOutsideSections address) => address.toNat = image.announcedAddress
  | .malformed (.directoryExceedsRawData index) =>
    index = image.holderIndex image.announcedAddress image.announcedSize
  | .malformed (.directoryMisaligned offset) => offset.toNat = image.directoryStart options
  | .malformed (.directoryOutsideFile offset) => offset.toNat = image.directoryStart options
  | .malformed (.recordTooSmall size) => size.toNat = image.recordSize options
  | .malformed (.recordInStrippedHeader offset) => offset.toNat = image.recordPointer options
  | .malformed (.recordOutsideFile offset size) =>
    offset.toNat = image.recordStart options ∧ size.toNat = image.recordSize options
  | .malformed (.recordMisaligned offset) => offset.toNat = image.recordStart options
  | .malformed (.unknownSignature word) =>
    word.toNat = image.buffer.numberAt 4 (image.recordStart options)
  | _ => True

variable {image : Image} {options : Options} {error : LookupError}

/-! ### Words -/

theorem toNat_announcedAddress (image : Image) :
    (UInt32.ofNat image.announcedAddress).toNat = image.announcedAddress :=
  UInt32.toNat_ofNat_of_lt (image.buffer.wordAt_lt _)

theorem toNat_announcedSize (image : Image) :
    (UInt32.ofNat image.announcedSize).toNat = image.announcedSize :=
  UInt32.toNat_ofNat_of_lt (image.buffer.wordAt_lt _)

theorem toNat_recordSize (image : Image) (options : Options) :
    (UInt32.ofNat (image.recordSize options)).toNat = image.recordSize options :=
  UInt32.toNat_ofNat_of_lt (image.buffer.wordAt_lt _)

theorem toNat_recordStart (image : Image) (options : Options) :
    (UInt32.ofNat (image.recordStart options)).toNat = image.recordStart options :=
  UInt32.toNat_ofNat_of_lt
    (Nat.lt_of_le_of_lt (Nat.sub_le _ _) (image.buffer.wordAt_lt _))

-- The place of a directory is a word where the sum that it is taken from is one.
theorem toNat_directoryStart
    (hsum : (image.holder image.announcedAddress image.announcedSize).rawPointer +
      (image.announcedAddress -
        (image.holder image.announcedAddress image.announcedSize).address) < UInt32.size) :
    (UInt32.ofNat (image.directoryStart options)).toNat = image.directoryStart options :=
  UInt32.toNat_ofNat_of_lt (Nat.lt_of_le_of_lt (Nat.sub_le _ _) hsum)

/-! ### Stages -/

theorem exact_locateChecks (image : Image) (options : Options) :
    ∀ check ∈ locateChecks image options, check.error.Exact image options := by
  unfold locateChecks slotChecks
  cases image.format with
  | pe kind start =>
      simp only [List.cons_append, List.nil_append, List.forall_mem_cons]
      exact ⟨trivial, trivial, trivial, List.forall_mem_nil _⟩
  | te stripped =>
      simp only [List.cons_append, List.nil_append, List.forall_mem_cons]
      exact ⟨trivial, trivial, List.forall_mem_nil _⟩

theorem exact_rangeChecks (image : Image) (options : Options) :
    ∀ check ∈ rangeChecks image.announcedAddress image.announcedSize image.sizeOfImage.toNat,
      check.error.Exact image options := by
  simp only [rangeChecks, List.forall_mem_cons]
  exact ⟨trivial, toNat_announcedSize image,
    ⟨toNat_announcedAddress image, toNat_announcedSize image⟩, List.forall_mem_nil _⟩

theorem exact_recordChecks (image : Image) (options : Options) :
    ∀ check ∈ recordChecks image options (image.recordSize options)
      (image.recordPointer options), check.error.Exact image options := by
  have hpointer : (UInt32.ofNat (image.recordPointer options)).toNat =
      image.recordPointer options :=
    UInt32.toNat_ofNat_of_lt (image.buffer.wordAt_lt _)
  have hword := UInt32.toNat_ofNat_of_lt
    (image.buffer.wordAt_lt (image.recordStart options))
  have hsize := toNat_recordSize image options
  have hstart := toNat_recordStart image options
  simp only [recordChecks, List.forall_mem_cons]
  exact ⟨hsize, hpointer, ⟨hstart, hsize⟩, hstart, hword, hsize, trivial, trivial,
    List.forall_mem_nil _⟩

-- In this stage exactness is not a property of the list: the place of the directory is a word
-- only where the check of the sum has passed.
theorem exact_of_placeChecks
    (h : FirstFailure (placeChecks image options image.announcedAddress image.announcedSize)
      error) : error.Exact image options := by
  simp only [placeChecks, firstFailure_cons, not_firstFailure_nil, and_false, or_false] at h
  rcases h with ⟨-, h⟩ | ⟨-, ⟨-, h⟩ | ⟨-, ⟨-, h⟩ | ⟨-, ⟨-, h⟩ | ⟨hsum, ⟨-, h⟩ | ⟨-, -, h⟩⟩⟩⟩⟩
  · rw [← h]
    exact trivial
  · rw [← h]
    exact toNat_announcedAddress image
  · rw [← h]
    rfl
  · rw [← h]
    exact trivial
  · rw [← h]
    exact trivial
  · rw [← h]
    exact toNat_directoryStart hsum

theorem exact_of_viewChecks
    (hplace : AllHold (placeChecks image options image.announcedAddress image.announcedSize))
    (h : FirstFailure (viewChecks image.buffer (image.directoryStart options)
      image.announcedSize) error) : error.Exact image options := by
  -- The check of the sum is the fourth of the stage in front.
  simp only [placeChecks, allHold_cons] at hplace
  simp only [viewChecks, firstFailure_cons, not_firstFailure_nil, and_false, or_false] at h
  rw [← h.2]
  exact toNat_directoryStart hplace.2.2.2.1

/-- The first failure of a lookup is exact. -/
theorem exact_of_firstFailure (h : FirstFailure (lookupChecks image options) error) :
    error.Exact image options := by
  -- One case for each stage, in the order of the lookup.
  simp only [lookupChecks, directoryChecks, firstFailure_append, firstFailure_cons] at h
  rcases h with (⟨-, h⟩ | ⟨-, h⟩) | ⟨-, h⟩
  · rw [← h]
    exact trivial
  · rcases h with h | ⟨-, h | ⟨-, h | ⟨hplace, h⟩⟩⟩
    · exact h.of_forall (exact_locateChecks image options)
    · exact h.of_forall (exact_rangeChecks image options)
    · exact exact_of_placeChecks h
    · exact exact_of_viewChecks hplace h
  · rcases h with h | ⟨-, h⟩
    · simp only [scanChecks, firstFailure_cons, not_firstFailure_nil, and_false, or_false] at h
      rw [← h.2]
      exact trivial
    · exact h.of_forall (exact_recordChecks image options)

/-! ### Whole lookups -/

/-- A lookup fails with an error iff the error is that of the first check that
    does not hold, and the error then has the numbers of the image. This is so
    for any layout, in a file that 32-bit offsets reach. -/
theorem Image.symbolPath_reports_first_failure (hsize : image.buffer.size < UInt32.size)
    (options : Options) (error : LookupError) :
    (image.symbolPath options = .error error ↔
      FirstFailure (lookupChecks image options) error) ∧
    (image.symbolPath options = .error error → error.Exact image options) := by
  have hfollows := symbolPath_follows hsize options
  refine ⟨hfollows.eq_error_iff, fun herror => ?_⟩
  exact exact_of_firstFailure (hfollows.eq_error_iff.mp herror)

/-- A TE image of no sections, whose debug directory reaches past the image. -/
def strayImage : Image where
  format := .te 100
  sizeOfImage := 4
  sectionsOffset := 40
  sectionCount := 0
  buffer := ⟨(List.replicate 32 0 ++ toLittleEndian 4 8 ++ toLittleEndian 4 28).toArray⟩

-- The directory of the stray image lies in no section either, but the range is checked first.
theorem strayImage_reports_range :
    strayImage.buffer.size < UInt32.size ∧
      strayImage.symbolPath .standard = .error (.malformed (.directoryOutsideImage 8 28)) := by
  have hsize : strayImage.buffer.size < UInt32.size := by decide +kernel
  refine ⟨hsize, (Image.symbolPath_reports_first_failure hsize .standard _).1.mpr ?_⟩
  have haddress : strayImage.announcedAddress = 8 := by decide +kernel
  have hannounced : strayImage.announcedSize = 28 := by decide +kernel
  -- The slot is there and the range is whole, but it ends behind the image.
  rw [lookupChecks, directoryChecks, haddress, hannounced]
  refine firstFailure_append.mpr (Or.inl (firstFailure_cons.mpr (Or.inr ⟨rfl, ?_⟩)))
  refine firstFailure_append.mpr (Or.inr ⟨?_, firstFailure_append.mpr (Or.inl ?_)⟩)
  · simp only [locateChecks, slotChecks, strayImage, List.cons_append, List.nil_append,
      allHold_cons, allHold_nil, and_true]
    decide +kernel
  · exact ⟨[⟨28 ≠ 0, _⟩, ⟨28 ∣ 28, _⟩], _, _, rfl, by simp, by decide +kernel, rfl⟩

end SymbolLocator
