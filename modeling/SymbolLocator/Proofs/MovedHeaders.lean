import SymbolLocator.Proofs.FullFile
import SymbolLocator.Proofs.DecodedHeaders

/-!
# Moved Headers

The same PE headers at the start of a file and further on in one.

A PE signature may stand anywhere in a file. All places in the headers count
from it, so bytes in front of it change nothing of what is decoded, except that
every place in the file is larger by the number of those bytes. The places of
section data are the exception. They count from the start of the file wherever
the signature is, and are checked against nothing but its length, which the
bytes in front add to. Of all the checks this is the only one that can pass
further on in a file where it fails at the start.

The slot of the debug directory is found by the lookup and not by the loader,
with arithmetic of its own. It moves along with the headers for any layout, so
what is announced stays the same even where the layout is wrong.

## Main definitions

* `Buffer.tail`: What is left of a buffer behind an offset.
* `Image.MovedTo`: The image further on in a file, with what it keeps.

## Theorems

* `PeGrammar.append_add`: A PE image is one behind other bytes.
* `Layout.readPe_of_append`: Of a PE image behind other bytes, all but the data
  of its sections is sure to be in place without them.
* `Image.announcedRange_append`: The slot of a directory behind other bytes.
* `Layout.headers_move_with_signature`: Both directions together.
-/

namespace SymbolLocator

/-- What is left of a buffer behind the first `offset` bytes. -/
def Buffer.tail (buffer : Buffer) (offset : Nat) : Buffer := buffer.extract offset buffer.size

/-- `moved` is the PE image `image` with its signature at `start` in place of
    the very start of the file. It has the same kind, size and sections, the
    section table is as much further on as the signature, and a lookup finds
    the same range announced, or fails in the same way. -/
structure Image.MovedTo (start : UInt32) (image moved : Image) : Prop where
  format : ∃ kind, image.format = .pe kind 0 ∧ moved.format = .pe kind start
  sizeOfImage : moved.sizeOfImage = image.sizeOfImage
  sectionCount : moved.sectionCount = image.sectionCount
  sectionsOffset : moved.sectionsOffset.toNat = start.toNat + image.sectionsOffset.toNat
  sections : ∃ table, image.sections? = some table ∧ moved.sections? = some table
  announced : ∀ options, moved.announcedRange options = image.announcedRange options

/-! ### Numbers behind other bytes -/

namespace Buffer

theorem exists_append_tail {buffer : Buffer} {offset : Nat} (h : offset ≤ buffer.size) :
    ∃ front : Buffer, front.size = offset ∧ front ++ buffer.tail offset = buffer := by
  refine ⟨buffer.extract 0 offset, ?_, ?_⟩
  · rw [ByteArray.size_extract]
    omega
  · rw [tail, ByteArray.extract_append_extract, Nat.min_eq_left (Nat.zero_le _),
      Nat.max_eq_right h, ByteArray.extract_zero_size]

theorem tail_append {front back : Buffer} {offset : Nat} (h : offset = front.size) :
    (front ++ back).tail offset = back :=
  ByteArray.extract_append_eq_right h (size_append front back)

variable (front back : Buffer) (start : Nat)

theorem peOptionalSize_append_add :
    (front ++ back).peOptionalSize (front.size + start) = back.peOptionalSize start := by
  rw [peOptionalSize, Nat.add_assoc, numberAt_append_add, peOptionalSize]

theorem peSectionCount_append_add :
    (front ++ back).peSectionCount (front.size + start) = back.peSectionCount start := by
  rw [peSectionCount, Nat.add_assoc, numberAt_append_add, peSectionCount]

theorem peSizeOfImage_append_add :
    (front ++ back).peSizeOfImage (front.size + start) = back.peSizeOfImage start := by
  rw [peSizeOfImage, Nat.add_assoc, Nat.add_assoc, numberAt_append_add, peSizeOfImage,
    Nat.add_assoc]

theorem peTable_append_add :
    (front ++ back).peTable (front.size + start) = front.size + back.peTable start := by
  rw [peTable, peOptionalSize_append_add, peTable]
  omega

theorem extentAt_append_add (table index : Nat) :
    (front ++ back).extentAt (front.size + table) index = back.extentAt table index := by
  simp only [extentAt, Nat.add_assoc, numberAt_append_add]

theorem word32?_append_add (offset : Nat) :
    (front ++ back).word32? (front.size + offset) = back.word32? offset := by
  rw [word32?, number?, slice?_append_add, word32?, number?]

end Buffer

/-! ### Grammar behind other bytes -/

section Append

variable {front back : Buffer}

theorem optionalFits_append_add_iff {start : Nat} {kind : PeKind} :
    OptionalFits (front ++ back) (front.size + start) kind ↔ OptionalFits back start kind := by
  cases kind with
  | pe32 =>
      simp only [OptionalFits, Buffer.peOptionalSize_append_add, Nat.add_assoc,
        Buffer.numberAt_append_add]
  | pe32Plus =>
      simp only [OptionalFits, Buffer.peOptionalSize_append_add, Nat.add_assoc,
        Buffer.numberAt_append_add]

/-- Sections that fit a file fit one with more bytes. Their order and the size
    of the image have nothing to do with it. -/
theorem SectionsFit.of_fileSize_le {extents : Nat → Extent} {count sizeOfImage fileSize : Nat}
    (h : SectionsFit extents count ⟨sizeOfImage, 0, fileSize⟩) {longer : Nat}
    (hle : fileSize ≤ longer) : SectionsFit extents count ⟨sizeOfImage, 0, longer⟩ where
  inImage := h.inImage
  inOrder := h.inOrder
  inFile := by
    intro i hi hpos
    rcases h.inFile i hi hpos with ⟨hstripped, hfit⟩
    exact ⟨hstripped, Nat.le_trans hfit hle⟩

/-- The sections of a PE image behind other bytes lie where they say in either
    file. -/
theorem extentAt_peTable_append_add {start : Nat} :
    (front ++ back).extentAt ((front ++ back).peTable (front.size + start)) =
      back.extentAt (back.peTable start) := by
  funext i
  rw [Buffer.peTable_append_add, Buffer.extentAt_append_add]

theorem PeGrammar.append_add {start : Nat} {kind : PeKind} (h : PeGrammar back start kind) :
    PeGrammar (front ++ back) (front.size + start) kind := by
  have hsize := Buffer.size_append front back
  have hoptional := h.optionalInFile
  have htable := h.tableInFile
  refine ⟨Buffer.hasBytesAt_append_add.mpr h.signature, ?_,
    optionalFits_append_add_iff.mpr h.optional, ?_, ?_⟩
  · rw [Buffer.peOptionalSize_append_add, hsize]
    omega
  · rw [Buffer.peTable_append_add, Buffer.peSectionCount_append_add, hsize]
    omega
  · rw [extentAt_peTable_append_add, Buffer.peSectionCount_append_add,
      Buffer.peSizeOfImage_append_add]
    exact h.sections.of_fileSize_le (by omega)

/-- Without the bytes in front, a PE image can only lose the data of its
    sections. -/
theorem Layout.readPe_of_append (hsize : back.size < UInt32.size) {start : UInt32} {kind : PeKind}
    (h : PeGrammar (front ++ back) (front.size + start.toNat) kind) :
    (∃ layout, Layout.readPe back start = .ok layout) ∨
      ∃ i, Layout.readPe back start = .error (.sectionOutsideFile i) := by
  have hlength := Buffer.size_append front back
  have hoptional := h.optionalInFile
  have htable := h.tableInFile
  rw [Buffer.peOptionalSize_append_add, hlength] at hoptional
  rw [Buffer.peTable_append_add, Buffer.peSectionCount_append_add, hlength] at htable
  have hfits : OptionalFits back start.toNat kind := optionalFits_append_add_iff.mp h.optional
  -- The checks of the headers and of the place of the table hold in either file.
  have hcoff : AllHold (coffChecks back start.toNat) := by
    simp only [coffChecks, allHold_cons, allHold_nil, and_true]
    exact ⟨by omega, Buffer.hasBytesAt_append_add.mp h.signature, by omega, by omega⟩
  have hread : AllHold (optionalChecks back start.toNat) := by
    rw [allHold_optionalChecks_iff, hfits.kind_eq]
    exact hfits
  have hdeclared : back.peTable start.toNat ≤ back.size := by
    rw [Buffer.peTable]
    omega
  have hfollows := ((readPe_follows hsize start).of_append hcoff).of_cons hdeclared
  have hsections := (hfollows.of_append hread).of_cons (by omega)
  rcases hrun : readPe back start with error | layout
  · -- The sections fit the longer file, so what is left is that the data is missing.
    have hall := h.sections
    rw [extentAt_peTable_append_add, Buffer.peSectionCount_append_add,
      Buffer.peSizeOfImage_append_add] at hall
    rcases firstFailure_sectionChecks_of_allHold (by rfl)
      (allHold_sectionChecks_extents_iff.mpr hall) (hsections.eq_error_iff.mp hrun) with ⟨i, rfl⟩
    exact Or.inr ⟨i, rfl⟩
  · exact Or.inl ⟨layout, rfl⟩

/-! ### Lookups behind other bytes -/

namespace Image

variable {image moved : Image} {kind : PeKind} {start start' : UInt32}

theorem slotOffset_append (hbuffer : moved.buffer = front ++ image.buffer)
    (hformat : image.format = .pe kind start) (hformat' : moved.format = .pe kind start')
    (hstart : start'.toNat = front.size + start.toNat) (options : Options) :
    moved.slotOffset options = (image.slotOffset options).map (front.size + ·) := by
  have hcount : moved.buffer.word32? (start'.toNat + 24 + kind.countOffset) =
      image.buffer.word32? (start.toNat + 24 + kind.countOffset) := by
    rw [hbuffer, hstart, Nat.add_assoc, Nat.add_assoc, Buffer.word32?_append_add, Nat.add_assoc]
  rcases hword : image.buffer.word32? (start.toNat + 24 + kind.countOffset) with _ | count
  · rw [hword] at hcount
    unfold slotOffset
    rw [hformat, hformat']
    simp only [coffHeaderSize, hword, hcount]
    rfl
  · rw [slotOffset_pe hformat hword, slotOffset_pe hformat' (hcount.trans hword), hstart]
    by_cases hmany : 6 < count.toNat
    · rw [if_pos hmany, if_pos hmany]
      simp only [Except.map, Nat.add_assoc]
    · rw [if_neg hmany, if_neg hmany]
      rfl

/-- What is announced in a file stays the same behind other bytes. Nothing has
    to be known of the layout but where it has the signature. -/
theorem announcedRange_append (hbuffer : moved.buffer = front ++ image.buffer)
    (hformat : image.format = .pe kind start) (hformat' : moved.format = .pe kind start')
    (hstart : start'.toNat = front.size + start.toNat) (options : Options) :
    moved.announcedRange options = image.announcedRange options := by
  unfold announcedRange
  rw [slotOffset_append hbuffer hformat hformat' hstart options]
  rcases image.slotOffset options with error | offset
  · rfl
  · show require _ ((moved.buffer.slice? (front.size + offset) slotSize).bind _) =
      require _ ((image.buffer.slice? offset slotSize).bind _)
    rw [hbuffer, Buffer.slice?_append_add]

theorem sections?_append (hbuffer : moved.buffer = front ++ image.buffer)
    (hoffset : moved.sectionsOffset.toNat = front.size + image.sectionsOffset.toNat)
    (hcount : moved.sectionCount = image.sectionCount) : moved.sections? = image.sections? := by
  rw [sections?, sections?, hbuffer, hoffset, hcount, SectionTable.ofBuffer?,
    Buffer.slice?_append_add, SectionTable.ofBuffer?]

end Image

/-! ### Moving the headers -/

/-- The facts of a PE image behind other bytes are those without them, but for
    the place of the section table. -/
theorem PeFacts.append_add {start start' : UInt32} {kind : PeKind} {layout moved : Layout}
    (hstart : start'.toNat = front.size + start.toNat) (h : PeFacts back start kind layout)
    (hmoved : PeFacts (front ++ back) start' kind moved) :
    moved.sizeOfImage = layout.sizeOfImage ∧ moved.sectionCount = layout.sectionCount ∧
      moved.sectionsOffset.toNat = front.size + layout.sectionsOffset.toNat := by
  have hsize := hmoved.sizeOfImage
  have hcount := hmoved.sectionCount
  have hoffset := hmoved.sectionsOffset
  rw [hstart, Buffer.peSizeOfImage_append_add, ← h.sizeOfImage] at hsize
  rw [hstart, Buffer.peSectionCount_append_add, ← h.sectionCount] at hcount
  rw [hstart, Buffer.peTable_append_add, ← h.sectionsOffset] at hoffset
  exact ⟨UInt32.toNat_inj.mp hsize, UInt16.toNat_inj.mp hcount, hoffset⟩

theorem PeGrammar.exists_table {start : UInt32} {kind : PeKind} {layout : Layout}
    (h : PeGrammar back start.toNat kind) (hfacts : PeFacts back start kind layout) :
    ∃ table, SectionTable.ofBuffer? back layout.sectionsOffset.toNat layout.sectionCount =
      some table := by
  apply Option.ne_none_iff_exists'.mp
  rw [SectionTable.ofBuffer?_ne_none_iff, hfacts.sectionsOffset, hfacts.sectionCount]
  exact h.tableInFile

/-- A layout that is read at the start of a file is read further on in one. -/
theorem Layout.exists_movedTo (hsize : front.size + back.size < UInt32.size) {start : UInt32}
    (hstart : start.toNat = front.size) {layout : Layout}
    (h : Layout.readPe back 0 = .ok layout) :
    ∃ moved, Layout.readPe (front ++ back) start = .ok moved ∧
      Image.MovedTo start { layout with buffer := back } { moved with buffer := front ++ back } := by
  have hlonger : (front ++ back).size < UInt32.size := by
    rw [Buffer.size_append]
    exact hsize
  have hzero : start.toNat = front.size + (0 : UInt32).toNat := hstart
  rcases (readPe_eq_ok_iff (by omega)).mp h with ⟨kind, hgrammar, hfacts⟩
  have hmoved : PeGrammar (front ++ back) start.toNat kind := by
    rw [hzero]
    exact hgrammar.append_add
  rcases (exists_readPe_iff hlonger start).mpr ⟨kind, hmoved⟩ with ⟨moved, hread⟩
  rcases (readPe_eq_ok_iff hlonger).mp hread with ⟨kind', hgrammar', hfacts'⟩
  -- An image is of one kind, so the two layouts are of the same.
  have hsame : kind' = kind := hgrammar'.kind_eq.symm.trans hmoved.kind_eq
  rw [hsame] at hfacts'
  rcases hfacts.append_add hzero hfacts' with ⟨hsizeOfImage, hcount, hoffset⟩
  rcases hgrammar.exists_table hfacts with ⟨table, htable⟩
  refine ⟨moved, hread, ⟨kind, hfacts.format, hfacts'.format⟩, hsizeOfImage, hcount, ?_,
    ⟨table, htable, ?_⟩, ?_⟩
  · rw [hstart]
    exact hoffset
  · rw [← htable]
    exact @Image.sections?_append front { layout with buffer := back }
      { moved with buffer := front ++ back } rfl hoffset hcount
  · exact Image.announcedRange_append rfl hfacts.format hfacts'.format hzero

end Append

/-- The headers of a PE image may be moved along with its signature. Where they
    are read at the start of a file, they are read behind other bytes, and
    everything decoded is the same but for the places that count from the start
    of the file. Where they are read behind other bytes, they are read without
    them, unless the data of a section is then no longer in the file. -/
theorem Layout.headers_move_with_signature {buffer : Buffer} (hsize : buffer.size < UInt32.size)
    {start : UInt32} (hstart : start.toNat ≤ buffer.size) :
    (∀ layout, Layout.readPe (buffer.tail start.toNat) 0 = .ok layout →
      ∃ moved, Layout.readPe buffer start = .ok moved ∧
        Image.MovedTo start { layout with buffer := buffer.tail start.toNat }
          { moved with buffer }) ∧
    ∀ moved, Layout.readPe buffer start = .ok moved →
      (∃ layout, Layout.readPe (buffer.tail start.toNat) 0 = .ok layout ∧
        Image.MovedTo start { layout with buffer := buffer.tail start.toNat }
          { moved with buffer }) ∨
      ∃ i, Layout.readPe (buffer.tail start.toNat) 0 = .error (.sectionOutsideFile i) := by
  rcases Buffer.exists_append_tail hstart with ⟨front, hfront, happend⟩
  generalize buffer.tail start.toNat = back at happend ⊢
  subst happend
  have hsum : front.size + back.size < UInt32.size := by
    rw [← Buffer.size_append]
    exact hsize
  have hmove : ∀ layout, readPe back 0 = .ok layout →
      ∃ moved, readPe (front ++ back) start = .ok moved ∧
        Image.MovedTo start { layout with buffer := back }
          { moved with buffer := front ++ back } :=
    fun layout h => exists_movedTo hsum hfront.symm h
  refine ⟨hmove, fun moved hread => ?_⟩
  rcases (readPe_eq_ok_iff hsize).mp hread with ⟨kind, hgrammar, -⟩
  have hzero : start.toNat = front.size + (0 : UInt32).toNat := hfront.symm
  rw [hzero] at hgrammar
  rcases readPe_of_append (by omega) hgrammar with ⟨layout, hlayout⟩ | herror
  · -- The layout that the bytes behind give leads back to the one that was read.
    rcases hmove layout hlayout with ⟨moved', hread', hmoved⟩
    rw [hread, Except.ok.injEq] at hread'
    exact Or.inl ⟨layout, hlayout, hread' ▸ hmoved⟩
  · exact Or.inr herror

/-- The small image behind eight zero bytes. -/
def paddedImage : Buffer := Buffer.zeros 8 ++ smallImage

theorem paddedImage_headers_move_with_signature :
    paddedImage.size < UInt32.size ∧ (8 : UInt32).toNat ≤ paddedImage.size ∧
      Layout.readPe (paddedImage.tail 8) 0 = .ok smallLoaded.toLayout ∧
      ∃ moved, Layout.readPe paddedImage 8 = .ok moved ∧
        Image.MovedTo 8 smallLoaded { moved with buffer := paddedImage } := by
  have hsize : paddedImage.size < UInt32.size := by decide +kernel
  have hstart : (8 : UInt32).toNat ≤ paddedImage.size := by decide +kernel
  have htail : paddedImage.tail 8 = smallImage := Buffer.tail_append (Buffer.size_zeros 8).symm
  have hread : Layout.readPe (paddedImage.tail 8) 0 = .ok smallLoaded.toLayout := by
    rw [htail]
    exact readPe_smallImage
  rcases (Layout.headers_move_with_signature hsize hstart).1 _ hread with ⟨moved, hmoved, hkeeps⟩
  rw [show (8 : UInt32).toNat = 8 from rfl, htail] at hkeeps
  exact ⟨hsize, hstart, hread, moved, hmoved, hkeeps⟩

end SymbolLocator
