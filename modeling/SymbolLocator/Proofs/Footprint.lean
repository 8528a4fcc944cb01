import SymbolLocator.Proofs.Agreement
import SymbolLocator.Proofs.LookupSuccess

/-!
# Footprint of a Lookup

The bytes of a file that a successful lookup depends on.

A lookup reads the headers, the types of the debug entries up to the first
CodeView entry, two fields of that entry, and two places of the record it
describes: the signature at its start and the terminator at its end. A buffer
of the same length that agrees on these bytes gives a path at the same place.
The bytes of the path are then those of the other buffer.

So nothing else in the file has a say. Later entries may be anything, CodeView
entries included, and so may the other fields of every entry, what stands
between the signature and the path, and all of the path but its terminator.
It does not matter that these regions may overlap, since the two buffers are
only ever asked to agree.

## Main definitions

* `Footprint`: Where the bytes are that a lookup depends on.
* `Buffer.AgreeOnFootprint`: Two buffers have the same bytes there.

## Theorems

* `Announces.of_agreeOn`, `Places.of_agreeOn`, `FirstCodeView.of_agreeOn`,
  `HoldsPath.of_agreeOn`: What each part of the footprint carries over.
* `NamesBy.of_agreeOn`: The other buffer names a path at the same place.
* `Image.numbers_of_found`: Which numbers of the file the stages find.
* `locate_reads_footprint`: A lookup reads its footprint only.
-/

namespace SymbolLocator

/-- Where the bytes are that a lookup depends on: the end of the headers, the
    place of the debug directory, the index of its first CodeView entry, and
    the start and size of the record. -/
structure Footprint where
  headersEnd : Nat
  directory : Nat
  index : Nat
  start : Nat
  size : Nat

/-- Two buffers of one length agree on the bytes that a lookup depends on. -/
structure Buffer.AgreeOnFootprint (a b : Buffer) (footprint : Footprint) : Prop where
  size : a.size = b.size
  headers : a.AgreeOn b 0 footprint.headersEnd
  types : ∀ j ≤ footprint.index,
    a.AgreeOn b (footprint.directory + 28 * j + 12) (footprint.directory + 28 * j + 16)
  recordSize : a.AgreeOn b (footprint.directory + 28 * footprint.index + 16)
    (footprint.directory + 28 * footprint.index + 20)
  recordPointer : a.AgreeOn b (footprint.directory + 28 * footprint.index + 24)
    (footprint.directory + 28 * footprint.index + 28)
  signature : a.AgreeOn b footprint.start (footprint.start + 4)
  terminator : a.AgreeOn b (footprint.start + footprint.size - 1)
    (footprint.start + footprint.size)

/-! ### Directories and records -/

namespace Buffer

variable {a b : Buffer} {directory size index start : Nat} {path : SymbolPath}

/-- The types of the entries up to the first CodeView entry determine that it
    is the first. -/
theorem FirstCodeView.of_agreeOn (h : a.FirstCodeView directory size index)
    (hagree : ∀ j ≤ index, a.AgreeOn b (directory + 28 * j + 12) (directory + 28 * j + 16)) :
    b.FirstCodeView directory size index := by
  have htype : ∀ j ≤ index, a.entryTypeAt directory j = b.entryTypeAt directory j := by
    intro j hj
    exact (hagree j hj).numberAt_eq (Nat.le_refl _) (Nat.le_refl _)
  refine ⟨h.whole, ?_, fun earlier hlt => ?_⟩
  · rw [← htype index (Nat.le_refl _)]
    exact h.codeView
  · rw [← htype earlier (Nat.le_of_lt hlt)]
    exact h.first earlier hlt

/-- The path in a record is a slice of the buffer. -/
theorem HoldsPath.slice?_eq (h : a.HoldsPath start size path) :
    a.slice? path.offset.toNat (size - path.signature.headerSize.toNat) = some path.bytes := by
  have hfile := h.inFile
  have hlonger := h.longer
  rw [slice?_eq_some_iff, h.offset]
  exact ⟨by omega, h.bytes⟩

/-- The two ends of a record determine that there is a path in it, and where.
    The bytes of the path are those of the buffer. -/
theorem HoldsPath.of_agreeOn (h : a.HoldsPath start size path) (hsize : a.size = b.size)
    (hsignature : a.AgreeOn b start (start + 4))
    (hterminator : a.AgreeOn b (start + size - 1) (start + size)) :
    ∃ other : SymbolPath, b.HoldsPath start size other ∧ other.offset = path.offset ∧
      other.size = path.size ∧ other.signature = path.signature ∧
      b.slice? path.offset.toNat path.size = some other.bytes := by
  have hfile := h.inFile
  have hlonger := h.longer
  have hpathSize := size_slice h.slice?_eq
  have hfit : path.offset.toNat + path.bytes.size ≤ b.size := by
    rw [hpathSize, h.offset]
    omega
  rcases b.slice?_eq_some hfit with ⟨bytes, hbytes⟩
  have hcharacters : start + path.signature.characters.length ≤ start + 4 :=
    Nat.le_of_eq (by rw [path.signature.length_characters])
  have hfour := path.signature.four_le_headerSize
  refine ⟨⟨bytes, path.offset, path.signature⟩, ⟨⟨?_, h.offset, ?_⟩, ?_, h.aligned, h.longer, ?_⟩,
    rfl, size_slice hbytes, rfl, hbytes⟩
  · exact hsignature.hasBytesAt h.signature (Nat.le_refl _) hcharacters
  · rw [(slice?_eq_some_iff.mp hbytes).2, h.offset, hpathSize]
  · rw [← hsize]
    exact hfile
  · rw [← hterminator.numberAt_eq (Nat.le_refl _) (by omega)]
    exact h.terminated

end Buffer

/-! ### Images -/

namespace Image

variable {image : Image} {data other : Buffer} {options : Options} {address size place index : Nat}
  {path : SymbolPath}

/-- The slot of the debug directory is in the headers. -/
theorem Announces.of_agreeOn (h : image.Announces address size)
    (hload : Image.load data options = .ok image) (hagree : data.AgreeOn other 0 image.headersEnd) :
    (image.withBuffer other).Announces address size := by
  rcases load_cases hload with ⟨rfl, -, ⟨start, kind, hgrammar, hfacts⟩ | ⟨-, -, hfacts⟩⟩
  · have hend : start.toNat + 24 + image.buffer.peOptionalSize start.toNat ≤ image.headersEnd := by
      rw [Layout.headersEnd, hfacts.sectionsOffset]
      exact Nat.le_add_right _ _
    rcases hgrammar.optional.slot_le hend with ⟨hcount, hslot⟩
    unfold Announces at h ⊢
    rw [withBuffer_toLayout, hfacts.format]
    rw [hfacts.format] at h
    have hslotAt : kind.slotOffset 6 = kind.directoriesOffset + 48 := rfl
    have hroom := hslot h.1
    dsimp only [withBuffer_buffer] at h ⊢
    rw [← hagree.numberAt_eq (Nat.zero_le _) hcount,
      ← hagree.numberAt_eq (Nat.zero_le _) (by omega),
      ← hagree.numberAt_eq (Nat.zero_le _) (by omega)]
    exact h
  · rcases hfacts.format with ⟨stripped, hformat, -⟩
    have hend : 40 ≤ image.headersEnd := by
      rw [Layout.headersEnd, hfacts.sectionsOffset]
      exact Nat.le_add_right _ _
    unfold Announces at h ⊢
    rw [withBuffer_toLayout, hformat]
    rw [hformat] at h
    dsimp only [withBuffer_buffer] at h ⊢
    rw [← hagree.numberAt_eq (Nat.zero_le _) (by omega),
      ← hagree.numberAt_eq (Nat.zero_le _) (by omega)]
    exact h

theorem extentAt_withBuffer (hagree : image.buffer.AgreeOn other 0 image.headersEnd) {i : Nat}
    (hi : i < image.sectionCount.toNat) :
    (image.withBuffer other).extentAt i = image.extentAt i := by
  have hstop : image.sectionsOffset.toNat + 40 * i + 40 ≤ image.headersEnd := by
    rw [Layout.headersEnd]
    omega
  exact (hagree.extentAt_eq (Nat.zero_le _) hstop).symm

theorem Places.of_agreeOn (h : image.Places address size place)
    (hagree : image.buffer.AgreeOn other 0 image.headersEnd) :
    (image.withBuffer other).Places address size place := by
  rcases h with ⟨i, hi, hplace⟩
  refine ⟨i, hi, ?_⟩
  rw [extentAt_withBuffer hagree hi]
  exact hplace

/-- An image names a path at the same place in every buffer that agrees on the
    footprint. -/
theorem NamesBy.of_agreeOn (h : image.NamesBy address size place index path)
    (hload : Image.load data options = .ok image)
    (hagree : data.AgreeOnFootprint other ⟨image.headersEnd, place, index,
      data.entryPointerAt place index - image.strippedOffset.toNat, data.entrySizeAt place index⟩) :
    ∃ found : SymbolPath, (image.withBuffer other).NamesBy address size place index found ∧
      found.offset = path.offset ∧ found.size = path.size ∧ found.signature = path.signature ∧
      other.slice? path.offset.toNat path.size = some found.bytes := by
  have hbuffer := (load_cases hload).1
  subst hbuffer
  have hdataSize : image.buffer.entrySizeAt place index = other.entrySizeAt place index :=
    hagree.recordSize.numberAt_eq (Nat.le_refl _) (Nat.le_refl _)
  have hpointer : image.buffer.entryPointerAt place index = other.entryPointerAt place index :=
    hagree.recordPointer.numberAt_eq (Nat.le_refl _) (Nat.le_refl _)
  rcases h.record.of_agreeOn hagree.size hagree.signature hagree.terminator with
    ⟨found, hholds, hfound⟩
  have hnotStripped := h.notStripped
  rw [hpointer] at hholds hnotStripped
  rw [hdataSize] at hholds
  exact ⟨found, ⟨h.announced.of_agreeOn hload hagree.headers, h.nonempty, h.whole, h.inImage,
    h.placed.of_agreeOn hagree.headers, h.aligned, h.first.of_agreeOn hagree.types, hnotStripped,
    hholds⟩, hfound⟩

/-- What the stages of a lookup find are the numbers of the image. -/
theorem numbers_of_found {directory : DebugDirectory} {entry : DebugEntry}
    (hdirectory : image.debugDirectory options = .ok directory)
    (hentry : directory.codeView? = some (index, entry)) :
    directory.fileOffset.toNat = image.directoryStart options ∧
      index = image.entryIndex options ∧
      entry.dataSize.toNat = image.recordSize options ∧
      entry.rawPointer.toNat = image.recordPointer options := by
  rcases ((debugDirectory_follows image options).of_eq_ok hdirectory).2 with
    ⟨fileOffset, size, hoffset, hsize, hview⟩
  have hfound := (DebugDirectory.codeViewEntry_follows hview).of_eq_ok
    (require_eq_ok_iff.mpr hentry)
  rcases hfound.2 with ⟨hindex, hdataSize, hpointer⟩
  rw [hoffset, hsize] at hindex
  rw [hoffset] at hdataSize hpointer
  have hindex' : index = image.entryIndex options := hindex
  rw [(DebugDirectory.ofBuffer?_eq_some_iff.mp hview).2, recordSize, recordPointer, ← hindex']
  exact ⟨hoffset, rfl, hdataSize, hpointer⟩

-- What is compensated is all of the stripped bytes, as the image is admitted.
theorem exists_compensated (hadmitted : image.AdmittedBy options) {pointer : UInt32}
    (hstripped : image.strippedOffset.toNat ≤ pointer.toNat) :
    ∃ start, Word.sub? pointer (image.compensation options) = some start ∧
      start.toNat = pointer.toNat - image.strippedOffset.toNat := by
  have hcompensation : (image.compensation options).toNat = image.strippedOffset.toNat := by
    rw [toNat_compensation, shift_eq hadmitted]
  have hsub : Word.sub? pointer (image.compensation options) ≠ none := by
    rw [ne_eq, Word.sub?_eq_none_iff, hcompensation]
    omega
  rcases Option.ne_none_iff_exists'.mp hsub with ⟨start, hstart⟩
  refine ⟨start, hstart, ?_⟩
  rw [Word.sub?_eq_some_iff, hcompensation] at hstart
  omega

end Image

/-! ### Lookups -/

/-- A lookup that gives a path reads its footprint only. What the stages find
    says where the footprint is, and every buffer that agrees on it gives a
    path of the same length and signature at the same place. The bytes of that
    path are the ones that the other buffer has there. -/
theorem locate_reads_footprint {data : Buffer} {options : Options} {path : SymbolPath}
    (hlocate : locate data options = .ok path) :
    ∃ image directory index entry start,
      Image.load data options = .ok image ∧
      image.debugDirectory options = .ok directory ∧
      directory.codeView? = some (index, entry) ∧
      Word.sub? entry.rawPointer (image.compensation options) = some start ∧
      ∀ other : Buffer, data.AgreeOnFootprint other ⟨image.headersEnd,
          directory.fileOffset.toNat, index, start.toNat, entry.dataSize.toNat⟩ →
        ∃ found, locate other options = .ok found ∧ found.offset = path.offset ∧
          found.size = path.size ∧ found.signature = path.signature ∧
          other.slice? path.offset.toNat path.size = some found.bytes := by
  rcases locate_eq_ok_iff.mp hlocate with ⟨hsupport, image, hload, hpath⟩
  have hwell := Image.wellFormed_of_load hload
  have hadmitted := Image.admitted_of_load hload
  have hnames := hwell.namesBy_of_symbolPath hadmitted hpath
  -- What each stage of the lookup finds.
  rcases bind_eq_ok_iff.mp hpath with ⟨directory, hdirectory, hrest⟩
  rcases bind_eq_ok_iff.mp hrest with ⟨⟨index, entry⟩, hentry, -⟩
  have hcodeView : directory.codeView? = some (index, entry) := require_eq_ok_iff.mp hentry
  rcases Image.numbers_of_found hdirectory hcodeView with ⟨hplace, rfl, hdataSize, hpointer⟩
  have hstripped : image.strippedOffset.toNat ≤ entry.rawPointer.toNat := by
    rw [hpointer]
    exact hnames.notStripped
  rcases Image.exists_compensated hadmitted hstripped with ⟨start, hstart, hstartAt⟩
  refine ⟨image, directory, _, entry, start, hload, hdirectory, hcodeView, hstart, ?_⟩
  intro other hagree
  have hbuffer := (Image.load_cases hload).1
  rw [hplace, hstartAt, hpointer, hdataSize, Image.recordPointer, Image.recordSize,
    hbuffer] at hagree
  -- The other buffer is loaded with the same layout, and names a path in the same way.
  have hsmall : other.size < UInt32.size := by
    rw [← hagree.size]
    exact (Image.load_cases hload).2.1
  have hload' : Image.load other options = .ok (image.withBuffer other) :=
    Image.load_of_agreeOn hload (Nat.le_of_eq hagree.size) hsmall hagree.headers
  rcases hnames.of_agreeOn hload hagree with ⟨found, hnames', hfound⟩
  exact ⟨found, locate_eq_ok_of_names hsupport hload' ⟨_, _, _, _, hnames'⟩, hfound⟩

/-- The small image with another identity in its record, and the path `b`. -/
def renamedImage : Buffer :=
  ⟨(smallImage.bytes.take 248 ++ (List.replicate 20 0xFF ++ [0x62, 0])).toArray⟩

-- The two images are the same up to the end of the signature.
theorem smallImage_agreeOn_renamedImage : smallImage.AgreeOn renamedImage 0 248 := by
  intro i hi _
  have hsize : 248 ≤ smallImage.bytes.length := by decide +kernel
  have hfront : i < (smallImage.bytes.take 248).length := by
    rw [List.length_take]
    omega
  have hbytes : renamedImage.bytes =
      smallImage.bytes.take 248 ++ (List.replicate 20 0xFF ++ [0x62, 0]) := rfl
  rw [hbytes, List.getElem?_append_left hfront, List.getElem?_take, if_pos hi]

-- The headers end at 216, where the directory begins. The record is behind it.
theorem smallImage_agreeOnFootprint :
    smallImage.AgreeOnFootprint renamedImage ⟨216, 216, 0, 244, 26⟩ where
  size := by decide +kernel
  headers := smallImage_agreeOn_renamedImage.mono (by decide) (by decide)
  types := by
    intro j hj
    dsimp only at hj ⊢
    exact smallImage_agreeOn_renamedImage.mono (Nat.zero_le _) (by omega)
  recordSize := smallImage_agreeOn_renamedImage.mono (by decide) (by decide)
  recordPointer := smallImage_agreeOn_renamedImage.mono (by decide) (by decide)
  signature := smallImage_agreeOn_renamedImage.mono (by decide) (by decide)
  terminator := by decide +kernel

theorem renamedImage_reads_footprint :
    locate smallImage .standard = .ok smallPath ∧
      ∃ found, locate renamedImage .standard = .ok found ∧ found.offset = smallPath.offset ∧
        renamedImage.slice? 268 2 = some found.bytes := by
  rcases locate_reads_footprint smallImage_locates with
    ⟨image, directory, index, entry, start, hload, hdirectory, hentry, hstart, hreads⟩
  rw [load_smallImage, Except.ok.injEq] at hload
  subst hload
  rcases Image.numbers_of_found hdirectory hentry with ⟨hplace, rfl, hdataSize, hpointer⟩
  -- The numbers of the small image say where its footprint is.
  have hnumbers : smallLoaded.directoryStart .standard = 216 ∧
      smallLoaded.entryIndex .standard = 0 ∧ smallLoaded.recordSize .standard = 26 ∧
      smallLoaded.recordPointer .standard = 244 := by
    decide +kernel
  rcases hnumbers with ⟨hplaceAt, hindexAt, hsizeAt, hpointerAt⟩
  have hstartAt : start.toNat = 244 := by
    have hcompensation : (smallLoaded.compensation .standard).toNat = 0 := rfl
    rw [Word.sub?_eq_some_iff] at hstart
    omega
  rw [hplace, hplaceAt, hindexAt, hstartAt, hdataSize, hsizeAt] at hreads
  rcases hreads renamedImage smallImage_agreeOnFootprint with
    ⟨found, hfound, hoffset, -, -, hbytes⟩
  exact ⟨smallImage_locates, found, hfound, hoffset, hbytes⟩

end SymbolLocator
