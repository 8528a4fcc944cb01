import SymbolLocator.Proofs.Agreement
import SymbolLocator.Proofs.LookupSuccess

/-!
# Appended and Cut Buffers

What becomes of a lookup when bytes are appended to a file, or cut off.

An image says where its parts are, and loading makes sure that they are in the
file. So bytes behind the end of a file that was loaded belong to no part, and
a lookup does not notice them. There is one exception. The place and size of
the record come from a debug entry that no loading looks at, and a record that
reaches past the file may be within a longer one.

The other way round, a file that was cut off is not refused for what its
headers say, since these are either whole or gone. It is refused for a header
or a table that is not all there, or for the data of a section that is not all
there. A PE image without a DOS header that was cut in the middle of its
signature is taken for no image at all, as nothing else can be told from two
or three bytes.

## Main definitions

* `LoadError.OfCut`: An error that says that a file was cut off.

## Theorems

* `Image.debugDirectory_withBuffer`, `Image.symbolPath_withBuffer`: Lookups in
  a longer buffer.
* `firstFailure_sectionChecks_of_allHold`: Sections that fit a longer file can
  only be refused for their data.
* `ofCut_of_load_eq_error`: What is reported of a buffer that was cut off.
* `load_append`: Both for buffers of two parts.
-/

namespace SymbolLocator

/-! ### Longer buffers -/

namespace Buffer

variable {a b : Buffer} {stop : Nat}

theorem bytes_append (front back : Buffer) : (front ++ back).bytes = front.bytes ++ back.bytes := by
  rw [bytes, ByteArray.data_append, Array.toList_append]
  rfl

theorem agreeOn_append (front back : Buffer) : front.AgreeOn (front ++ back) 0 front.size := by
  intro i hi _
  have hlength : i < front.bytes.length := hi
  rw [bytes_append, List.getElem?_append_left hlength]

namespace AgreeOn

theorem size_le (h : a.AgreeOn b 0 a.size) : a.size ≤ b.size := by
  -- Otherwise the byte of `a` at the end of `b` has no counterpart.
  rcases Nat.lt_or_ge b.size a.size with hlt | hle
  · have hbyte := h b.size hlt (Nat.zero_le _)
    have hend : b.bytes[b.size]? = none := List.getElem?_eq_none (Nat.le_refl _)
    rw [hend, List.getElem?_eq_none_iff] at hbyte
    exact absurd hbyte (Nat.not_le_of_lt hlt)
  · exact hle

theorem slice?_eq_of_le (h : a.AgreeOn b 0 a.size) {offset length : Nat}
    (hfit : offset + length ≤ a.size) : b.slice? offset length = a.slice? offset length :=
  (h.slice?_eq (Nat.zero_le _) hfit hfit (Nat.le_trans hfit h.size_le)).symm

theorem word32?_eq_of_le (h : a.AgreeOn b 0 a.size) {offset : Nat} (hfit : offset + 4 ≤ a.size) :
    b.word32? offset = a.word32? offset := by
  rw [word32?, number?, h.slice?_eq_of_le hfit, word32?, number?]

theorem extents_eq (h : a.AgreeOn b 0 stop) {table count : Nat}
    (hstop : table + 40 * count ≤ stop) : a.extents table count = b.extents table count := by
  apply List.map_congr_left
  intro i hi
  have hlt := List.mem_range.mp hi
  exact h.extentAt_eq (Nat.zero_le _) (by omega)

end AgreeOn

end Buffer

/-! ### Lookups -/

namespace Image

variable {image : Image} {longer : Buffer} {options : Options}

theorem slotOffset_withBuffer (hwell : image.WellFormed)
    (hagree : image.buffer.AgreeOn longer 0 image.buffer.size) :
    (image.withBuffer longer).slotOffset options = image.slotOffset options := by
  have hslot := hwell.slot
  unfold SlotInFile at hslot
  unfold slotOffset
  rw [withBuffer_toLayout]
  cases hformat : image.format with
  | te stripped => rfl
  | pe kind start =>
      rw [hformat] at hslot
      dsimp only [withBuffer_buffer, coffHeaderSize]
      rw [hagree.word32?_eq_of_le hslot.1]

theorem announcedRange_withBuffer (hwell : image.WellFormed)
    (hagree : image.buffer.AgreeOn longer 0 image.buffer.size) :
    (image.withBuffer longer).announcedRange options = image.announcedRange options := by
  unfold announcedRange
  rw [slotOffset_withBuffer hwell hagree]
  refine bind_congr_of_ok fun offset hoffset => ?_
  -- A slot that is there is in the file.
  have hslot : offset + 8 ≤ image.buffer.size := by
    have hfile := hwell.slot
    rcases (slotOffset_follows image options).of_eq_ok hoffset with ⟨hall, rfl⟩
    unfold SlotInFile at hfile
    unfold slotChecks at hall
    cases hformat : image.format with
    | te stripped =>
        rw [hformat] at hfile
        exact hfile
    | pe kind start =>
        rw [hformat] at hfile hall
        simp only [allHold_cons] at hall
        exact hfile.2 hall.2.1
  dsimp only [withBuffer_buffer, slotSize]
  rw [hagree.slice?_eq_of_le hslot]

theorem sections?_withBuffer (hwell : image.WellFormed)
    (hagree : image.buffer.AgreeOn longer 0 image.buffer.size) :
    (image.withBuffer longer).sections? = image.sections? := by
  have htable := hwell.table
  have hfit : image.sectionsOffset.toNat + image.sectionCount.toNat * Section.headerSize ≤
      image.buffer.size := by
    rw [Section.headerSize, Nat.mul_comm]
    exact htable
  unfold sections? SectionTable.ofBuffer?
  dsimp only [withBuffer_buffer, withBuffer_toLayout]
  rw [hagree.slice?_eq_of_le hfit]

theorem place_withBuffer (hwell : image.WellFormed)
    (hagree : image.buffer.AgreeOn longer 0 image.buffer.size) (range : VirtualRange) :
    (image.withBuffer longer).place range options = image.place range options := by
  unfold place sectionTable
  rw [sections?_withBuffer hwell hagree]
  rfl

/-- The debug directory of a loaded image is the same in a longer buffer, and
    so is the error where there is none. -/
theorem debugDirectory_withBuffer (hwell : image.WellFormed)
    (hadmitted : image.AdmittedBy options)
    (hagree : image.buffer.AgreeOn longer 0 image.buffer.size) :
    (image.withBuffer longer).debugDirectory options = image.debugDirectory options := by
  unfold debugDirectory
  rw [announcedRange_withBuffer hwell hagree]
  refine bind_congr_of_ok fun _ _ => bind_congr_of_ok fun range _ => ?_
  refine bind_congr_of_ok fun _ hchecked => ?_
  rw [place_withBuffer hwell hagree]
  refine bind_congr_of_ok fun placement hplacement => ?_
  -- The range is not empty, and a directory that has a place in the file is in the file.
  have hrange := ((VirtualRange.checkDirectory_follows range _).of_eq_ok hchecked).1
  simp only [rangeChecks, allHold_cons] at hrange
  have hpos : 0 < range.size.toNat := Nat.pos_of_ne_zero hrange.1
  rcases (place_follows image range options).of_eq_ok hplacement with ⟨hplace, hoffset⟩
  have hview := hwell.allHold_viewChecks hadmitted hpos hplace
  rw [viewChecks, allHold_cons, ← hoffset] at hview
  unfold directoryAt DebugDirectory.ofBuffer?
  dsimp only [withBuffer_buffer]
  rw [hagree.slice?_eq_of_le hview.1]

theorem record_eq_slice? (hsmall : image.buffer.size < UInt32.size) {offset size : UInt32} :
    ((Word.checkedEnd offset size image.fileSize).bind fun _ =>
      image.buffer.slice? offset.toNat size.toNat) =
      image.buffer.slice? offset.toNat size.toNat :=
  Option.ext fun _ => record_eq_some_iff hsmall

/-- A record is taken apart in the same way in a longer buffer, unless it
    reaches past the shorter one. -/
theorem recordPath_withBuffer (hlonger : longer.size < UInt32.size)
    (hagree : image.buffer.AgreeOn longer 0 image.buffer.size) (entry : DebugEntry) :
    (∃ offset size, image.recordPath entry options =
        .error (.malformed (.recordOutsideFile offset size))) ∨
      (image.withBuffer longer).recordPath entry options = image.recordPath entry options := by
  have hsmall : image.buffer.size < UInt32.size := Nat.lt_of_le_of_lt hagree.size_le hlonger
  have hlonger' : (image.withBuffer longer).buffer.size < UInt32.size := hlonger
  by_cases houtside : 4 ≤ entry.dataSize ∧ ∃ offset,
      Word.sub? entry.rawPointer (image.compensation options) = some offset ∧
        image.buffer.size < offset.toNat + entry.dataSize.toNat
  · rcases houtside with ⟨hfour, offset, hoffset, hend⟩
    have hnone : ((Word.checkedEnd offset entry.dataSize image.fileSize).bind fun _ =>
        image.buffer.slice? offset.toNat entry.dataSize.toNat) = none := by
      rw [record_eq_slice? hsmall, Buffer.slice?_eq_none_iff]
      exact hend
    exact Or.inl ⟨offset, entry.dataSize,
      bind_eq_error_iff.mpr (Or.inr ⟨(), ensure_eq_ok_iff.mpr hfour,
        bind_eq_error_iff.mpr (Or.inr ⟨offset, require_eq_ok_iff.mpr hoffset,
          bind_eq_error_iff.mpr (Or.inl (require_eq_error_iff.mpr ⟨hnone, rfl⟩))⟩)⟩)⟩
  · refine Or.inr (bind_congr_of_ok fun _ hfour => bind_congr_of_ok fun offset hoffset => ?_)
    have hfit : offset.toNat + entry.dataSize.toNat ≤ image.buffer.size := by
      rw [← Nat.not_lt]
      intro hend
      exact houtside ⟨ensure_eq_ok_iff.mp hfour, offset, require_eq_ok_iff.mp hoffset, hend⟩
    rw [record_eq_slice? hlonger', record_eq_slice? hsmall, withBuffer_buffer,
      hagree.slice?_eq_of_le hfit]

/-- A lookup in a loaded image is the same in a longer buffer, unless it says
    that the record reaches past the shorter one. -/
theorem symbolPath_withBuffer (hwell : image.WellFormed) (hadmitted : image.AdmittedBy options)
    (hlonger : longer.size < UInt32.size)
    (hagree : image.buffer.AgreeOn longer 0 image.buffer.size) :
    (∃ offset size, image.symbolPath options =
        .error (.malformed (.recordOutsideFile offset size))) ∨
      (image.withBuffer longer).symbolPath options = image.symbolPath options := by
  have hdirectory' := debugDirectory_withBuffer hwell hadmitted hagree
  by_cases hfound : ∃ directory hit, image.debugDirectory options = .ok directory ∧
      directory.codeViewEntry = .ok hit
  · rcases hfound with ⟨directory, hit, hdirectory, hhit⟩
    rw [symbolPath_eq_recordPath hdirectory hhit,
      symbolPath_eq_recordPath (hdirectory'.trans hdirectory) hhit]
    exact recordPath_withBuffer hlonger hagree hit.2
  · unfold symbolPath
    rw [hdirectory']
    refine Or.inr (bind_congr_of_ok fun directory hdirectory => ?_)
    exact bind_congr_of_ok fun hit hhit => absurd ⟨directory, hit, hdirectory, hhit⟩ hfound

end Image

/-- A lookup in a buffer that was loaded is the same in a longer one, unless
    it says that the record reaches past the shorter one. -/
theorem locate_of_agreeOn {buffer longer : Buffer} {options : Options} {image : Image}
    (hload : Image.load buffer options = .ok image)
    (hload' : Image.load longer options = .ok (image.withBuffer longer))
    (hagree : buffer.AgreeOn longer 0 buffer.size) :
    (∃ offset size, locate buffer options =
        .error (.lookup (.malformed (.recordOutsideFile offset size)))) ∨
      locate longer options = locate buffer options := by
  have hbuffer := (Image.load_cases hload).1
  have hlonger := (Image.load_cases hload').2.1
  unfold locate
  rw [hload, hload']
  by_cases hsupport : options.debugSupport = true
  · rcases Image.symbolPath_withBuffer (Image.wellFormed_of_load hload)
      (Image.admitted_of_load hload) hlonger (by rw [hbuffer]; exact hagree) with
      ⟨offset, size, herror⟩ | hsame
    · refine Or.inl ⟨offset, size, bind_eq_error_iff.mpr (Or.inr ⟨(), ?_, ?_⟩)⟩
      · exact ensure_eq_ok_iff.mpr hsupport
      · show (image.symbolPath options).mapError _ = _
        rw [herror]
        rfl
    · refine Or.inr (bind_congr_of_ok fun _ _ => ?_)
      show ((image.withBuffer longer).symbolPath options).mapError _ =
        (image.symbolPath options).mapError _
      rw [hsame]
  · refine Or.inr (bind_congr_of_ok fun _ hensured => ?_)
    exact absurd (ensure_eq_ok_iff.mp hensured) hsupport

/-! ### Cut buffers -/

/-- The error says that `front` is what is left of `whole` after it was cut
    off. -/
def LoadError.OfCut (front whole : Buffer) : LoadError → Prop
  | .headerTruncated expected actual => actual = front.size ∧ front.size < expected
  | .sectionTableOutsideFile => True
  | .sectionOutsideFile _ => True
  | .unknownFormat =>
    whole.hasBytesAt 0 [0x50, 0x45, 0, 0] ∧ (front.size = 2 ∨ front.size = 3)
  | _ => False

-- The checks of the image and of the order do not know how long the file is. The induction is
-- along the table, with the end of the section in front generalized.
theorem firstFailure_sectionChecks_of_allHold {limits longer : Limits}
    (hsize : limits.sizeOfImage = longer.sizeOfImage) {extents : List Extent}
    {index previousTop : Nat} (hall : AllHold (sectionChecks longer index previousTop extents))
    {error : LoadError} (h : FirstFailure (sectionChecks limits index previousTop extents) error) :
    ∃ i, error = .sectionOutsideFile i := by
  induction extents generalizing index previousTop with
  | nil => exact absurd h not_firstFailure_nil
  | cons extent rest ih =>
      rw [sectionChecks, allHold_append, Extent.checks] at hall
      rw [sectionChecks, firstFailure_append, Extent.checks, hsize] at h
      simp only [allHold_cons, allHold_nil, and_true] at hall
      rcases hall with ⟨⟨himage, horder, -⟩, hrest⟩
      rcases h with h | ⟨-, h⟩
      · simp only [firstFailure_cons, not_firstFailure_nil, and_false, or_false] at h
        rcases h with ⟨hfails, -⟩ | ⟨-, ⟨hfails, -⟩ | ⟨-, -, h⟩⟩
        · exact absurd himage hfails
        · exact absurd horder hfails
        · exact ⟨index, h.symm⟩
      · exact ih hrest h

section Cut

variable {front whole : Buffer} {options : Options} {error : LoadError}

theorem LoadError.ofCut_of_sectionChecks {limits longer : Limits} {extents : List Extent}
    (hsize : limits.sizeOfImage = longer.sizeOfImage)
    (hall : AllHold (sectionChecks longer 0 0 extents))
    (h : FirstFailure (sectionChecks limits 0 0 extents) error) : error.OfCut front whole := by
  rcases firstFailure_sectionChecks_of_allHold hsize hall h with ⟨i, rfl⟩
  exact trivial

theorem ofCut_of_peChecks (hagree : front.AgreeOn whole 0 front.size) {start : Nat}
    {kind : PeKind} (hgrammar : PeGrammar whole start kind)
    (h : FirstFailure (peChecks front start) error) : error.OfCut front whole := by
  simp only [peChecks, coffChecks, peTableChecks, firstFailure_append, firstFailure_cons,
    not_firstFailure_nil, allHold_cons, allHold_nil, and_false, or_false, and_true] at h
  rcases h with h | ⟨⟨hfour, hsignature, -, hheader⟩, h⟩
  · rcases h with ⟨hshort, rfl⟩ | ⟨hfour, ⟨hsignature, -⟩ | ⟨-, ⟨hshort, rfl⟩ | ⟨-, hshort, rfl⟩⟩⟩
    · exact ⟨rfl, by omega⟩
    -- A signature that is all there is the one of the whole.
    · exact absurd (hagree.symm.hasBytesAt hgrammar.signature (Nat.zero_le _) hfour) hsignature
    · exact ⟨rfl, by omega⟩
    · exact ⟨rfl, by omega⟩
  · -- Behind the file header, the numbers of the two buffers are the same.
    have htable : front.peTable start = whole.peTable start := hagree.peTable_eq hheader
    have hcount : front.peSectionCount start = whole.peSectionCount start :=
      hagree.peSectionCount_eq hheader
    rcases h with ⟨hshort, rfl⟩ | ⟨hin, h | ⟨-, ⟨hshort, rfl⟩ | ⟨hfit, h⟩⟩⟩
    · exact ⟨rfl, by omega⟩
    · have hoptional : OptionalFits front start kind :=
        hgrammar.optional.of_agreeOn (hagree.symm.mono (Nat.le_refl _) (by omega))
      have hall : AllHold (optionalChecks front start) := by
        rw [allHold_optionalChecks_iff, hoptional.kind_eq]
        exact hoptional
      exact absurd hall h.not_allHold
    · exact trivial
    · have hfixed := hgrammar.optional.fixed_le
      have htableAt : whole.peTable start = start + 24 + whole.peOptionalSize start := rfl
      have hsizeOfImage : front.peSizeOfImage start = whole.peSizeOfImage start :=
        hagree.numberAt_eq (Nat.zero_le _) (by omega)
      have hsections := allHold_sectionChecks_extents_iff.mpr hgrammar.sections
      rw [← htable, ← hcount, ← hagree.extents_eq hfit] at hsections
      exact LoadError.ofCut_of_sectionChecks hsizeOfImage hsections h

theorem ofCut_of_teChecks (hagree : front.AgreeOn whole 0 front.size)
    (hwhole : AllHold (teChecks whole)) (h : FirstFailure (teChecks front) error) :
    error.OfCut front whole := by
  simp only [teChecks, teHeaderChecks, teTableChecks, allHold_append, allHold_cons, allHold_nil,
    and_true] at hwhole
  simp only [teChecks, teHeaderChecks, teTableChecks, firstFailure_append, firstFailure_cons,
    not_firstFailure_nil, allHold_cons, allHold_nil, and_false, or_false, and_true] at h
  rcases hwhole with ⟨⟨-, hstripped⟩, -, htops, hsections⟩
  rcases h with h | ⟨⟨hheader, -⟩, h⟩
  · rcases h with ⟨hshort, rfl⟩ | ⟨hheader, hfails, -⟩
    · exact ⟨rfl, by omega⟩
    · have hsame : front.teStrippedSize = whole.teStrippedSize :=
        hagree.numberAt_eq (Nat.zero_le _) (by omega)
      exact absurd (hsame ▸ hstripped) hfails
  · have hcount : front.teSectionCount = whole.teSectionCount :=
      hagree.numberAt_eq (Nat.zero_le _) (by omega)
    rcases h with ⟨hshort, rfl⟩ | ⟨hfit, h⟩
    · exact trivial
    -- The whole table is there, so both passes see the same sections.
    · rw [← hcount, ← hagree.extents_eq hfit] at htops hsections
      rcases h with h | ⟨-, h⟩
      · exact absurd htops h.not_allHold
      · exact LoadError.ofCut_of_sectionChecks (by rfl) hsections h

/-- A buffer that was cut off is refused for its length, or not told apart as a
    PE image. -/
theorem ofCut_of_load_eq_error (hagree : front.AgreeOn whole 0 front.size) {image : Image}
    (hload : Image.load whole options = .ok image)
    (herror : Image.load front options = .error error) : error.OfCut front whole := by
  rw [Image.load_eq_error_iff, (Layout.read_follows front options).eq_error_iff, imageChecks,
    firstFailure_cons, firstFailure_cons] at herror
  rcases Image.load_eq_ok_iff.mp hload with ⟨hread, -⟩
  have hall := ((Layout.read_follows whole options).of_eq_ok hread).1
  rw [imageChecks, allHold_cons, allHold_cons] at hall
  rcases hall with ⟨hsize, -, hall⟩
  rcases herror with ⟨hlarge, -⟩ | ⟨-, ⟨hshort, rfl⟩ | ⟨htwo, h⟩⟩
  · exact absurd (Nat.lt_of_le_of_lt hagree.size_le hsize) hlarge
  · exact ⟨rfl, by omega⟩
  -- With two bytes there, both buffers begin with the same word.
  have hword : front.numberAt 2 0 = whole.numberAt 2 0 :=
    hagree.numberAt_eq (Nat.zero_le _) (by omega)
  have hisDos : front.isDos ↔ whole.isDos := by rw [Buffer.isDos, Buffer.isDos, hword]
  have hisTe : front.isTe ↔ whole.isTe := by rw [Buffer.isTe, Buffer.isTe, hword]
  unfold formatChecks at h hall
  by_cases hdos : front.isDos
  · rw [if_pos hdos, firstFailure_cons] at h
    rw [if_pos (hisDos.mp hdos), allHold_cons, allHold_peChecks_iff] at hall
    rcases h with ⟨hshort, rfl⟩ | ⟨hheader, h⟩
    · exact ⟨rfl, by omega⟩
    · have hstart : front.numberAt 4 60 = whole.numberAt 4 60 :=
        hagree.numberAt_eq (Nat.zero_le _) hheader
      exact ofCut_of_peChecks hagree hall.2 (hstart ▸ h)
  · rw [if_neg hdos] at h
    rw [if_neg (fun h => hdos (hisDos.mpr h))] at hall
    by_cases hte : front.isTe
    · rw [if_pos hte, firstFailure_cons] at h
      rw [if_pos (hisTe.mp hte), allHold_cons] at hall
      rcases h with ⟨hprohibited, -⟩ | ⟨-, h⟩
      · exact absurd hall.1 hprohibited
      · exact ofCut_of_teChecks hagree hall.2 h
    · rw [if_neg hte, firstFailure_cons] at h
      rw [if_neg (fun h => hte (hisTe.mpr h)), allHold_cons, allHold_peChecks_iff] at hall
      rcases h with ⟨hsignature, rfl⟩ | ⟨-, h⟩
      -- The whole begins with the signature, so of the four bytes some were cut off.
      · refine ⟨hall.1, ?_⟩
        rcases Nat.lt_or_ge front.size 4 with hlt | hge
        · omega
        · exact absurd (hagree.symm.hasBytesAt hall.1 (Nat.le_refl 0) hge) hsignature
      · exact ofCut_of_peChecks hagree hall.2 h

end Cut

/-! ### Buffers of two parts -/

/-- An image that bytes are appended to is loaded with the same layout, and a
    lookup in it is the same unless the record reached past the shorter file.
    An image that bytes are cut off from is refused, if it is, with an error
    that says so. -/
theorem load_append {front back : Buffer} (hsize : front.size + back.size < UInt32.size)
    (options : Options) :
    (∀ image, Image.load front options = .ok image →
      Image.load (front ++ back) options = .ok (image.withBuffer (front ++ back)) ∧
      ((∃ offset size, locate front options =
          .error (.lookup (.malformed (.recordOutsideFile offset size)))) ∨
        locate (front ++ back) options = locate front options)) ∧
    ∀ image error, Image.load (front ++ back) options = .ok image →
      Image.load front options = .error error → error.OfCut front (front ++ back) := by
  have hagree := Buffer.agreeOn_append front back
  have hwhole : (front ++ back).size < UInt32.size := by
    rw [ByteArray.size_append]
    exact hsize
  refine ⟨fun image hload => ?_, fun image error hload herror => ?_⟩
  · -- The headers are in the file, which the longer one begins with.
    have hheaders : image.headersEnd ≤ front.size := by
      rw [← (Image.load_cases hload).1]
      exact (Image.wellFormed_of_load hload).table
    have hload' := Image.load_of_agreeOn hload hagree.size_le hwhole
      (hagree.mono (Nat.le_refl _) hheaders)
    exact ⟨hload', locate_of_agreeOn hload hload' hagree⟩
  · exact ofCut_of_load_eq_error hagree hload herror

/-- The small image up to the middle of its section table. -/
def smallFront : Buffer := ⟨(smallImage.bytes.take 180).toArray⟩

/-- The rest of the small image. -/
def smallBack : Buffer := ⟨(smallImage.bytes.drop 180).toArray⟩

theorem smallFront_append_smallBack : smallFront ++ smallBack = smallImage := by
  rw [← Buffer.bytes_inj, Buffer.bytes_append]
  exact List.take_append_drop 180 smallImage.bytes

-- The small image with its own back once more behind it, and without it.
theorem smallImage_load_append :
    smallImage.size + smallBack.size < UInt32.size ∧
      locate (smallImage ++ smallBack) .standard = .ok smallPath ∧
      ∃ error, Image.load smallFront .standard = .error error ∧
        error.OfCut smallFront smallImage := by
  have hlonger : smallImage.size + smallBack.size < UInt32.size := by decide +kernel
  refine ⟨hlonger, ?_, ?_⟩
  · rcases ((load_append hlonger .standard).1 _ load_smallImage).2 with ⟨_, _, herror⟩ | hsame
    · rw [smallImage_locates] at herror
      simp only [reduceCtorEq] at herror
    · rw [hsame, smallImage_locates]
  · have hcut : smallFront.size + smallBack.size < UInt32.size := by decide +kernel
    have hrefused : (Image.load smallFront .standard).isOk = false := by decide +kernel
    have hhonest := (load_append hcut .standard).2 smallLoaded
    rw [smallFront_append_smallBack] at hhonest
    rcases exists_error_of_isOk hrefused with ⟨error, herror⟩
    exact ⟨error, herror, hhonest error load_smallImage herror⟩

end SymbolLocator
