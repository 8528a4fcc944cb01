import SymbolLocator.Image.Load
import SymbolLocator.Proofs.SectionOrder

/-!
# Header Checks

What loading an image checks, in order, as conditions on its bytes.

The loader reads header by header, each read bounded by what the one in front
declared. Here the same checks stand in one list per format, with numbers in
place of reads. `Layout.read_follows` says that loading decides as the list
says, so every question about acceptance, or about which error is reported, is
a question about the list.

Two reads never fail where they are made and have no place in the list. The
size of a PE image lies in front of the data directories, which are known to
be there, and the fields of a TE header lie in a slice of the right length.

## Main definitions

* `Buffer.peOptionalSize`, `Buffer.peSectionCount`, `Buffer.peSizeOfImage`,
  `Buffer.peTable`: The numbers of the headers behind a PE signature.
* `Buffer.peKind`: The kind of optional header behind a PE signature.
* `Buffer.teSectionCount`, `Buffer.teStrippedSize`: The numbers of a TE header.
* `coffChecks`, `optionalChecks`, `peChecks`, `teChecks`, `imageChecks`: The
  checks of each header, of each format, and of a whole buffer.
* `PeFacts`, `TeFacts`: What a layout says that was read from a buffer.

## Theorems

* `Layout.readPe_follows`, `Layout.readTe_follows`: Reading a layout decides
  as the lists say, and gives a layout with the facts of the buffer.
* `Layout.read_follows`: The same for a buffer of any format.
-/

namespace SymbolLocator

namespace Buffer

/-- The declared size of the optional header behind the PE signature at
    `start`. -/
def peOptionalSize (buffer : Buffer) (start : Nat) : Nat := buffer.numberAt 2 (start + 20)

/-- The number of sections of the PE image with its signature at `start`. -/
def peSectionCount (buffer : Buffer) (start : Nat) : Nat := buffer.numberAt 2 (start + 6)

/-- The declared size of the PE image with its signature at `start`. -/
def peSizeOfImage (buffer : Buffer) (start : Nat) : Nat := buffer.numberAt 4 (start + 24 + 56)

/-- Where the section table of the PE image with its signature at `start`
    is. -/
def peTable (buffer : Buffer) (start : Nat) : Nat := start + 24 + buffer.peOptionalSize start

/-- The kind that the magic number behind the PE signature at `start` stands
    for, if it is one. -/
def peKind (buffer : Buffer) (start : Nat) : PeKind :=
  if buffer.numberAt 2 (start + 24) = 0x20B then .pe32Plus else .pe32

/-- The number of data directories behind the PE signature at `start`. -/
def peDirectoryCount (buffer : Buffer) (start : Nat) : Nat :=
  buffer.numberAt 4 (start + 24 + (buffer.peKind start).countOffset)

/-- The number of sections of the TE image in the buffer. -/
def teSectionCount (buffer : Buffer) : Nat := buffer.numberAt 1 4

/-- The number of bytes stripped off the TE image in the buffer. -/
def teStrippedSize (buffer : Buffer) : Nat := buffer.numberAt 2 6

end Buffer

/-- The checks of the file header behind the PE signature at `start`. -/
def coffChecks (buffer : Buffer) (start : Nat) : List (Check LoadError) := [
  ⟨start + 4 ≤ buffer.size, .headerTruncated (start + 24) buffer.size⟩,
  ⟨buffer.hasBytesAt start peSignature, .noPeSignature⟩,
  ⟨start + 8 ≤ buffer.size, .headerTruncated (start + 24) buffer.size⟩,
  ⟨start + 22 ≤ buffer.size, .headerTruncated (start + 24) buffer.size⟩]

/-- The checks of the optional header behind the PE signature at `start`. -/
def optionalChecks (buffer : Buffer) (start : Nat) : List (Check LoadError) :=
  let size := buffer.peOptionalSize start
  let magic := buffer.numberAt 2 (start + 24)
  let fixed := (buffer.peKind start).directoriesOffset
  let required := fixed + buffer.peDirectoryCount start * 8
  [⟨2 ≤ size, .optionalHeaderTooSmall (UInt16.ofNat size) 2⟩,
    ⟨magic = 0x10B ∨ magic = 0x20B, .unknownMagic (UInt16.ofNat magic)⟩,
    ⟨fixed ≤ size, .optionalHeaderTooSmall (UInt16.ofNat size) fixed⟩,
    ⟨required ≤ size, .optionalHeaderTooSmall (UInt16.ofNat size) required⟩]

/-- The checks of the section table of a PE image with its signature at
    `start`. -/
def peTableChecks (buffer : Buffer) (start : Nat) : List (Check LoadError) :=
  ⟨buffer.peTable start + 40 * buffer.peSectionCount start ≤ buffer.size,
      .sectionTableOutsideFile⟩ ::
    sectionChecks ⟨buffer.peSizeOfImage start, 0, buffer.size⟩ 0 0
      (buffer.extents (buffer.peTable start) (buffer.peSectionCount start))

/-- The checks of a PE image with its signature at `start`. -/
def peChecks (buffer : Buffer) (start : Nat) : List (Check LoadError) :=
  coffChecks buffer start ++
    (⟨buffer.peTable start ≤ buffer.size, .headerTruncated (buffer.peTable start) buffer.size⟩ ::
      (optionalChecks buffer start ++ peTableChecks buffer start))

/-- What a layout says of the PE image of some kind with its signature at
    `start`. -/
structure PeFacts (buffer : Buffer) (start : UInt32) (kind : PeKind) (layout : Layout) :
    Prop where
  format : layout.format = .pe kind start
  sizeOfImage : layout.sizeOfImage.toNat = buffer.peSizeOfImage start.toNat
  sectionsOffset : layout.sectionsOffset.toNat = buffer.peTable start.toNat
  sectionCount : layout.sectionCount.toNat = buffer.peSectionCount start.toNat

theorem CoffHeader.read_follows (buffer : Buffer) (start : UInt32) :
    Follows (CoffHeader.read buffer start) (coffChecks buffer start.toNat)
      (fun coff => coff.sectionCount.toNat = buffer.peSectionCount start.toNat ∧
        coff.optionalSize.toNat = buffer.peOptionalSize start.toNat) := by
  refine follows_require_bind Buffer.slice?_ne_none_iff fun signature hsignature _ => ?_
  have hbytes : Buffer.bytes signature = peSignature ↔
      buffer.hasBytesAt start.toNat peSignature := by
    rw [(Buffer.slice?_eq_some_iff.mp hsignature).2]
    rfl
  refine follows_ensure_bind hbytes fun _ => ?_
  refine follows_require_bind Buffer.word16?_ne_none_iff fun sectionCount hcount _ => ?_
  refine follows_require_bind Buffer.word16?_ne_none_iff fun optionalSize hsize _ => ?_
  exact follows_ok ⟨(Buffer.word16?_eq_some_iff.mp hcount).2,
    (Buffer.word16?_eq_some_iff.mp hsize).2⟩

theorem PeKind.ofMagic?_ne_none_iff {magic : UInt16} :
    ofMagic? magic ≠ none ↔ magic.toNat = 0x10B ∨ magic.toNat = 0x20B := by
  have hkind : ∀ kind : PeKind, kind.magic = magic ↔ kind.magic.toNat = magic.toNat :=
    fun _ => UInt16.toNat_inj.symm
  rw [Option.ne_none_iff_exists']
  simp only [ofMagic?_eq_some_iff, hkind]
  constructor
  · intro h
    rcases h with ⟨kind, hmagic⟩
    cases kind with
    | pe32 => exact Or.inl hmagic.symm
    | pe32Plus => exact Or.inr hmagic.symm
  · intro h
    rcases h with hmagic | hmagic
    · exact ⟨.pe32, hmagic.symm⟩
    · exact ⟨.pe32Plus, hmagic.symm⟩

theorem Buffer.peKind_eq {buffer : Buffer} {start : Nat} {magic : UInt16} {kind : PeKind}
    (hmagic : magic.toNat = buffer.numberAt 2 (start + 24))
    (hkind : PeKind.ofMagic? magic = some kind) : buffer.peKind start = kind := by
  rw [PeKind.ofMagic?_eq_some_iff] at hkind
  rw [peKind, ← hmagic, ← hkind]
  cases kind with
  | pe32 => rfl
  | pe32Plus => rfl

/-- An optional header is read from the slice that its declared size spans,
    and holds numbers of the whole buffer. -/
theorem OptionalHeader.read_follows {buffer header : Buffer} {start : Nat} {declared : UInt16}
    (hdeclared : declared.toNat = buffer.peOptionalSize start)
    (hslice : buffer.slice? (start + 24) declared.toNat = some header) :
    Follows (OptionalHeader.read header declared) (optionalChecks buffer start)
      (fun optional => optional.kind = buffer.peKind start ∧
        optional.sizeOfImage.toNat = buffer.peSizeOfImage start) := by
  have hsize := Buffer.size_slice hslice
  have hhalf : ∀ offset, header.word16? offset ≠ none ↔ offset + 2 ≤ declared.toNat := by
    intro offset
    rw [Buffer.word16?_ne_none_iff, hsize]
  have hword : ∀ offset, header.word32? offset ≠ none ↔ offset + 4 ≤ declared.toNat := by
    intro offset
    rw [Buffer.word32?_ne_none_iff, hsize]
  rw [optionalChecks, ← hdeclared, UInt16.ofNat_toNat]
  -- Each read is of the slice, and its number is one of the buffer further on.
  refine follows_require_bind (hhalf 0) fun magic hmagic htwo => ?_
  have hnumber : magic.toNat = buffer.numberAt 2 (start + 24) := by
    rw [(Buffer.word16?_eq_some_iff.mp hmagic).2, Buffer.numberAt_slice hslice htwo, Nat.add_zero]
  rw [← hnumber, UInt16.ofNat_toNat]
  refine follows_require_bind PeKind.ofMagic?_ne_none_iff fun kind hkind _ => ?_
  -- From here on the kind is known, and with it where the other fields are.
  rw [Buffer.peDirectoryCount, Buffer.peKind_eq hnumber hkind]
  have hfixed : kind.countOffset + 4 = kind.directoriesOffset := by
    cases kind with
    | pe32 => rfl
    | pe32Plus => rfl
  have hcount : header.word32? kind.countOffset ≠ none ↔
      kind.directoriesOffset ≤ declared.toNat := by
    rw [hword, hfixed]
  refine follows_require_bind hcount fun count hcount hle => ?_
  have hcountAt : count.toNat = buffer.numberAt 4 (start + 24 + kind.countOffset) := by
    rw [(Buffer.word32?_eq_some_iff.mp hcount).2, Buffer.numberAt_slice hslice (by omega)]
  rw [← hcountAt]
  refine follows_ensure_bind Iff.rfl fun _ => ?_
  -- The size of the image lies in front of the data directories.
  have hfront : 56 + 4 ≤ kind.directoriesOffset := by
    cases kind with
    | pe32 => decide
    | pe32Plus => decide
  refine follows_known_bind ((hword 56).mpr (by omega)) fun sizeOfImage hsizeOfImage => ?_
  refine follows_ok ⟨rfl, ?_⟩
  rw [(Buffer.word32?_eq_some_iff.mp hsizeOfImage).2, Buffer.numberAt_slice hslice (by omega),
    Buffer.peSizeOfImage]

theorem SectionBounds.checkAll_follows {bounds : SectionBounds} {buffer : Buffer} {offset : Nat}
    {count : UInt16} {table : SectionTable} (hsize : bounds.fileSize < UInt32.size)
    (htable : SectionTable.ofBuffer? buffer offset count = some table) :
    Follows (bounds.checkAll table.toList)
      (sectionChecks bounds.limits 0 0 (buffer.extents offset count.toNat)) (fun _ => True) := by
  rw [← map_extent_toList htable]
  exact SectionBounds.checkFrom_follows hsize table.toList 0 0

namespace Layout

/-- Reading a PE layout. The file must be one that 32-bit offsets reach, or
    the offset of its section table might not be a word. -/
theorem readPe_follows {buffer : Buffer} (hsize : buffer.size < UInt32.size) (start : UInt32) :
    Follows (readPe buffer start) (peChecks buffer start.toNat)
      (PeFacts buffer start (buffer.peKind start.toNat)) := by
  refine follows_bind (CoffHeader.read_follows buffer start) fun coff hcoff => ?_
  rcases hcoff with ⟨hcount, hoptional⟩
  have hdeclared : buffer.slice? (start.toNat + 24) coff.optionalSize.toNat ≠ none ↔
      buffer.peTable start.toNat ≤ buffer.size := by
    rw [Buffer.slice?_ne_none_iff, Buffer.peTable, hoptional]
  have htableAt : start.toNat + coffHeaderSize + coff.optionalSize.toNat =
      buffer.peTable start.toNat := by
    rw [Buffer.peTable, hoptional, coffHeaderSize]
  simp only [htableAt]
  refine follows_require_bind hdeclared fun declared hslice hfit => ?_
  refine follows_bind (OptionalHeader.read_follows hoptional hslice) fun optional hread => ?_
  rcases hread with ⟨hkind, hsizeOfImage⟩
  rw [peTableChecks, ← hcount, ← hsizeOfImage]
  refine follows_require_bind SectionTable.ofBuffer?_ne_none_iff fun table htable _ => ?_
  rw [← List.append_nil (sectionChecks _ _ _ _)]
  refine follows_bind (SectionBounds.checkAll_follows hsize htable) fun _ _ => ?_
  -- The section table begins within the file, so its offset is a word.
  refine follows_ok ⟨by rw [hkind], hsizeOfImage, ?_, hcount⟩
  exact UInt32.toNat_ofNat_of_lt (by omega)

end Layout

/-- The checks of the TE header at the start of a buffer. -/
def teHeaderChecks (buffer : Buffer) : List (Check LoadError) := [
  ⟨40 ≤ buffer.size, .headerTruncated 40 buffer.size⟩,
  ⟨40 ≤ buffer.teStrippedSize, .strippedSizeTooSmall (UInt16.ofNat buffer.teStrippedSize)⟩]

/-- The checks of the section table of a TE image. All sections must end at an
    address before any is looked at more closely. -/
def teTableChecks (buffer : Buffer) : List (Check LoadError) :=
  let extents := buffer.extents 40 buffer.teSectionCount
  ⟨40 + 40 * buffer.teSectionCount ≤ buffer.size, .sectionTableOutsideFile⟩ ::
    (topChecks 0 extents ++
      sectionChecks ⟨furthestTop extents, buffer.teStrippedSize - 40, buffer.size⟩ 0 0 extents)

/-- The checks of the TE image in a buffer. -/
def teChecks (buffer : Buffer) : List (Check LoadError) :=
  teHeaderChecks buffer ++ teTableChecks buffer

/-- What a layout says of the TE image in a buffer. -/
structure TeFacts (buffer : Buffer) (layout : Layout) : Prop where
  format : ∃ stripped, layout.format = .te stripped ∧ stripped.toNat = buffer.teStrippedSize - 40
  sizeOfImage : layout.sizeOfImage.toNat = furthestTop (buffer.extents 40 buffer.teSectionCount)
  sectionsOffset : layout.sectionsOffset.toNat = 40
  sectionCount : layout.sectionCount.toNat = buffer.teSectionCount

theorem TeHeader.read_follows (buffer : Buffer) :
    Follows (TeHeader.read buffer) (teHeaderChecks buffer)
      (fun header => header.sectionCount.toNat = buffer.teSectionCount ∧
        header.strippedOffset.toNat = buffer.teStrippedSize - 40) := by
  have hslice : buffer.slice? 0 40 ≠ none ↔ 40 ≤ buffer.size := by
    rw [Buffer.slice?_ne_none_iff, Nat.zero_add]
  refine follows_require_bind hslice fun header hread _ => ?_
  have hheader : buffer.slice? 0 40 = some header := hread
  have hsize := Buffer.size_slice hheader
  -- The slice has 40 bytes, so both fields are there.
  have hbyte : header.byte? 4 ≠ none := by
    rw [Buffer.byte?, dif_pos (by omega)]
    exact Option.some_ne_none _
  have hhalf : header.word16? 6 ≠ none := Buffer.word16?_ne_none_iff.mpr (by omega)
  refine follows_known_bind hbyte fun sectionCount hcount => ?_
  refine follows_known_bind hhalf fun strippedSize hstripped => ?_
  have hcountAt : sectionCount.toNat = buffer.teSectionCount := by
    rw [(Buffer.byte?_eq_some_iff.mp hcount).2, Buffer.numberAt_slice hheader (by omega)]
    rfl
  have hstrippedAt : strippedSize.toNat = buffer.teStrippedSize := by
    rw [(Buffer.word16?_eq_some_iff.mp hstripped).2, Buffer.numberAt_slice hheader (by omega)]
    rfl
  have hword : strippedSize.toUInt32.toNat = buffer.teStrippedSize := by
    rw [UInt16.toNat_toUInt32, hstrippedAt]
  have hsub : Word.sub? strippedSize.toUInt32 (UInt32.ofNat teHeaderSize) ≠ none ↔
      40 ≤ buffer.teStrippedSize := by
    rw [ne_eq, Word.sub?_eq_none_iff, hword, Nat.not_lt]
    rfl
  rw [← hstrippedAt, UInt16.ofNat_toNat, hstrippedAt]
  refine follows_require_bind hsub fun strippedOffset hoffset _ => ?_
  have hdifference := Word.sub?_eq_some_iff.mp hoffset
  have hforty : (UInt32.ofNat teHeaderSize).toNat = 40 := rfl
  refine follows_ok ⟨hcountAt, ?_⟩
  show strippedOffset.toNat = _
  omega

namespace Layout

theorem readTe_follows {buffer : Buffer} (hsize : buffer.size < UInt32.size) :
    Follows (readTe buffer) (teChecks buffer) (TeFacts buffer) := by
  refine follows_bind (TeHeader.read_follows buffer) fun header hheader => ?_
  rcases hheader with ⟨hcount, hstripped⟩
  have hcountWord : header.sectionCount.toUInt16.toNat = buffer.teSectionCount := by
    rw [UInt8.toNat_toUInt16, hcount]
  rw [teTableChecks, ← hcountWord, ← hstripped]
  refine follows_require_bind SectionTable.ofBuffer?_ne_none_iff fun table htable _ => ?_
  have hextents : buffer.extents 40 header.sectionCount.toUInt16.toNat =
      table.toList.map Section.extent :=
    (map_extent_toList htable).symm
  rw [hextents]
  refine follows_bind (highestEndFrom_follows table.toList 0 0) fun sizeOfImage hhighest => ?_
  rw [← List.append_nil (sectionChecks _ _ _ _)]
  -- The furthest end takes the place of the size of the image.
  have hlimits : (SectionBounds.mk sizeOfImage header.strippedOffset buffer.size).limits =
      ⟨furthestTop (table.toList.map Section.extent), header.strippedOffset.toNat,
        buffer.size⟩ := by
    rw [SectionBounds.limits, hhighest]
    rfl
  rw [← hlimits]
  refine follows_bind (SectionBounds.checkFrom_follows hsize table.toList 0 0) fun _ _ => ?_
  refine follows_ok ⟨⟨_, rfl, hstripped⟩, ?_, rfl, hcountWord⟩
  rw [← hcountWord, hextents, hhighest]
  rfl

end Layout

/-! ### Whole buffers -/

namespace Buffer

/-- The buffer begins with the signature of a DOS header. -/
def isDos (buffer : Buffer) : Prop := buffer.numberAt 2 0 = 0x5A4D

/-- The buffer begins with the signature of a TE header. -/
def isTe (buffer : Buffer) : Prop := buffer.numberAt 2 0 = 0x5A56

instance (buffer : Buffer) : Decidable buffer.isDos := inferInstanceAs (Decidable (_ = _))

instance (buffer : Buffer) : Decidable buffer.isTe := inferInstanceAs (Decidable (_ = _))

/-- Where the DOS header at the start of the buffer says the PE signature
    is. -/
def dosStart (buffer : Buffer) : UInt32 := UInt32.ofNat (buffer.numberAt 4 60)

theorem toNat_dosStart (buffer : Buffer) : buffer.dosStart.toNat = buffer.numberAt 4 60 :=
  UInt32.toNat_ofNat_of_lt (buffer.wordAt_lt 60)

end Buffer

/-- The checks behind the signature that a buffer begins with. -/
def formatChecks (buffer : Buffer) (options : Options) : List (Check LoadError) :=
  if buffer.isDos then
    ⟨64 ≤ buffer.size, .headerTruncated 64 buffer.size⟩ :: peChecks buffer (buffer.numberAt 4 60)
  else if buffer.isTe then
    ⟨options.allowTe = true, .teProhibited⟩ :: teChecks buffer
  else
    ⟨buffer.hasBytesAt 0 peSignature, .unknownFormat⟩ :: peChecks buffer 0

/-- The checks of a buffer of any format. -/
def imageChecks (buffer : Buffer) (options : Options) : List (Check LoadError) :=
  ⟨buffer.size < UInt32.size, .bufferTooLarge buffer.size⟩ ::
    ⟨2 ≤ buffer.size, .headerTruncated 2 buffer.size⟩ :: formatChecks buffer options

/-- What a layout says of the image in a buffer. -/
def ImageFacts (buffer : Buffer) (layout : Layout) : Prop :=
  if buffer.isDos then
    PeFacts buffer buffer.dosStart (buffer.peKind (buffer.numberAt 4 60)) layout
  else if buffer.isTe then TeFacts buffer layout
  else PeFacts buffer 0 (buffer.peKind 0) layout

theorem dosHeaderOffset_follows (buffer : Buffer) :
    Follows (dosHeaderOffset buffer) [⟨64 ≤ buffer.size, .headerTruncated 64 buffer.size⟩]
      (fun start => start = buffer.dosStart) := by
  refine (follows_require Buffer.word32?_ne_none_iff).mono fun start hstart => ?_
  rw [← UInt32.toNat_inj, Buffer.toNat_dosStart]
  exact (Buffer.word32?_eq_some_iff.mp hstart.1).2

theorem slice?_eq_peSignature_iff {buffer : Buffer} :
    (buffer.slice? 0 4).map Buffer.bytes = some peSignature ↔
      buffer.hasBytesAt 0 peSignature := by
  rw [Option.map_eq_some_iff]
  constructor
  · intro h
    rcases h with ⟨part, hslice, hbytes⟩
    rw [(Buffer.slice?_eq_some_iff.mp hslice).2] at hbytes
    exact hbytes
  · intro h
    have hfit : 0 + 4 ≤ buffer.size := Buffer.le_size_of_hasBytesAt h (List.cons_ne_nil _ _)
    rcases buffer.slice?_eq_some hfit with ⟨part, hslice⟩
    exact ⟨part, hslice, by rw [(Buffer.slice?_eq_some_iff.mp hslice).2]; exact h⟩

theorem Layout.read_follows (buffer : Buffer) (options : Options) :
    Follows (Layout.read buffer options) (imageChecks buffer options) (ImageFacts buffer) := by
  have hword : buffer.word16? 0 ≠ none ↔ 2 ≤ buffer.size := by
    rw [Buffer.word16?_ne_none_iff, Nat.zero_add]
  refine follows_ensure_bind Iff.rfl fun hsize => ?_
  refine follows_require_bind hword fun signature hread _ => ?_
  have hsignature : ∀ other : UInt16, signature = other ↔ buffer.numberAt 2 0 = other.toNat := by
    intro other
    rw [← UInt16.toNat_inj, (Buffer.word16?_eq_some_iff.mp hread).2]
  have hdos : signature = dosSignature ↔ buffer.isDos := hsignature dosSignature
  have hte : signature = teSignature ↔ buffer.isTe := hsignature teSignature
  -- The two branches of the reader are those of the lists, as the signature is the number.
  unfold formatChecks ImageFacts
  by_cases hisDos : buffer.isDos
  · rw [if_pos (hdos.mpr hisDos)]
    simp only [if_pos hisDos]
    refine follows_bind (dosHeaderOffset_follows buffer) fun start hstart => ?_
    rw [hstart, ← Buffer.toNat_dosStart]
    exact readPe_follows hsize buffer.dosStart
  · rw [if_neg (fun h => hisDos (hdos.mp h))]
    simp only [if_neg hisDos]
    by_cases hisTe : buffer.isTe
    · rw [if_pos (hte.mpr hisTe)]
      simp only [if_pos hisTe]
      exact follows_ensure_bind Iff.rfl fun _ => readTe_follows hsize
    · rw [if_neg (fun h => hisTe (hte.mp h))]
      simp only [if_neg hisTe]
      exact follows_ensure_bind slice?_eq_peSignature_iff fun _ => readPe_follows hsize 0

theorem Image.load_eq_ok_iff {buffer : Buffer} {options : Options} {image : Image} :
    Image.load buffer options = .ok image ↔
      Layout.read buffer options = .ok image.toLayout ∧ image.buffer = buffer := by
  unfold Image.load
  rcases Layout.read buffer options with error | layout
  · simp only [Except.map, reduceCtorEq, false_and]
  · simp only [Except.map, Except.ok.injEq]
    constructor
    · intro h
      rw [← h]
      exact ⟨rfl, rfl⟩
    · intro h
      rw [h.1, ← h.2]

theorem Image.load_eq_error_iff {buffer : Buffer} {options : Options} {error : LoadError} :
    Image.load buffer options = .error error ↔ Layout.read buffer options = .error error := by
  unfold Image.load
  cases Layout.read buffer options with
  | error other => simp only [Except.map, Except.error.injEq]
  | ok layout => simp only [Except.map, reduceCtorEq]

end SymbolLocator
