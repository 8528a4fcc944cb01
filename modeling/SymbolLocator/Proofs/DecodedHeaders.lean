import SymbolLocator.Proofs.Loaded

/-!
# Decoded Headers

What the loader decodes of a PE header, against what a lookup decodes of it
again.

A layout does not keep the optional header. A lookup that needs the number of
data directories, or the slot of one, reads them anew, and it does so in
another way: the loader cuts the optional header out of the file and reads at
offsets within it, and the lookup reads at offsets of the whole file. Both must
mean the same bytes for every place a header can stand at and for both kinds of
optional header.

They do, and the declared size of the optional header carries the argument.
The loader checks the number of data directories against it, so a slot that the
number promises is within the optional header. It is therefore in front of the
section table, and in the file. So a lookup in a loaded image finds the slot
wherever the number promises it, and the only thing it can report in its first
stage is that the number does not.

## Main definitions

* `PeHeadersRead`: What the loader decodes in front of the section table.
* `Buffer.HoldsRange`: The two words at an offset are those of a range.
* `Image.SlotAsDecoded`: A lookup finds the debug slot as the loader decoded
  the header.

## Theorems

* `PeHeadersRead.word32?_count`, `PeHeadersRead.slots_le`: The number of data
  directories, in the file and against the declared size.
* `Layout.exists_headers_of_readPe`: Reading a PE layout decodes its headers.
* `Image.announcedRange_eq_ok_iff`: What the first stage of a lookup finds.
* `Image.slot_found_as_decoded`: The loader and the lookup agree on the slot.
-/

namespace SymbolLocator

/-- The loader decodes `coff` and `optional` from the headers behind the PE
    signature at `start`. -/
structure PeHeadersRead (buffer : Buffer) (start : UInt32) (coff : CoffHeader)
    (optional : OptionalHeader) : Prop where
  coffRead : CoffHeader.read buffer start = .ok coff
  optionalRead : ∃ declared,
    buffer.slice? (start.toNat + coffHeaderSize) coff.optionalSize.toNat = some declared ∧
      OptionalHeader.read declared coff.optionalSize = .ok optional

/-- The words at `offset` and behind it are the address and the size of a
    range. -/
structure Buffer.HoldsRange (buffer : Buffer) (offset : Nat) (range : VirtualRange) : Prop where
  address : buffer.word32? offset = some range.address
  size : buffer.word32? (offset + 4) = some range.size

/-! ### What the loader decodes -/

/-- The number of data directories is a word of the optional header, and the
    directories fit the declared size. -/
theorem OptionalHeader.count_of_read {header : Buffer} {declared : UInt16}
    {optional : OptionalHeader} (h : OptionalHeader.read header declared = .ok optional) :
    header.word32? optional.kind.countOffset = some optional.directoryCount ∧
      optional.kind.slotOffset optional.directoryCount.toNat ≤ declared.toNat := by
  simp only [OptionalHeader.read, bind_eq_ok_iff, require_eq_ok_iff, ensure_eq_ok_iff, pure,
    Except.pure, Except.ok.injEq] at h
  rcases h with ⟨magic, -, kind, -, count, hcount, -, hroom, sizeOfImage, -, rfl⟩
  exact ⟨hcount, hroom⟩

theorem Layout.exists_headers_of_readPe {buffer : Buffer} {start : UInt32} {layout : Layout}
    (h : Layout.readPe buffer start = .ok layout) :
    ∃ coff optional, PeHeadersRead buffer start coff optional ∧
      layout.format = .pe optional.kind start := by
  simp only [Layout.readPe, bind_eq_ok_iff, require_eq_ok_iff, pure, Except.pure,
    Except.ok.injEq] at h
  rcases h with ⟨coff, hcoff, declared, hslice, optional, hoptional, _, -, _, -, rfl⟩
  exact ⟨coff, optional, ⟨hcoff, declared, hslice, hoptional⟩, rfl⟩

namespace PeHeadersRead

variable {buffer : Buffer} {start : UInt32} {coff : CoffHeader} {optional : OptionalHeader}

theorem optionalSize_eq (h : PeHeadersRead buffer start coff optional) :
    coff.optionalSize.toNat = buffer.peOptionalSize start.toNat :=
  ((CoffHeader.read_follows buffer start).of_eq_ok h.coffRead).2.2

/-- The optional header of the declared size is in the file. -/
theorem optional_le (h : PeHeadersRead buffer start coff optional) :
    start.toNat + 24 + coff.optionalSize.toNat ≤ buffer.size := by
  rcases h.optionalRead with ⟨declared, hslice, -⟩
  exact (Buffer.slice?_eq_some_iff.mp hslice).1

/-- A word of the optional header is a word of the file further on. -/
theorem word32?_optional {declared : Buffer}
    (hslice : buffer.slice? (start.toNat + coffHeaderSize) coff.optionalSize.toNat =
      some declared) {offset : Nat} {word : UInt32} (hword : declared.word32? offset = some word) :
    buffer.word32? (start.toNat + 24 + offset) = some word := by
  have hfit := (Buffer.word32?_eq_some_iff.mp hword).1
  rw [Buffer.size_slice hslice] at hfit
  rw [← hword, Buffer.word32?_slice hslice hfit, coffHeaderSize]

theorem word32?_count (h : PeHeadersRead buffer start coff optional) :
    buffer.word32? (start.toNat + 24 + optional.kind.countOffset) =
      some optional.directoryCount := by
  rcases h.optionalRead with ⟨declared, hslice, hread⟩
  exact word32?_optional hslice (OptionalHeader.count_of_read hread).1

/-- The data directories are within the declared size. -/
theorem slots_le (h : PeHeadersRead buffer start coff optional) :
    optional.kind.directoriesOffset + 8 * optional.directoryCount.toNat ≤
      coff.optionalSize.toNat := by
  rcases h.optionalRead with ⟨declared, -, hread⟩
  have hroom := (OptionalHeader.count_of_read hread).2
  rw [PeKind.slotOffset, slotSize] at hroom
  omega

end PeHeadersRead

/-! ### What a lookup decodes -/

theorem VirtualRange.slot_eq_some_iff_holdsRange {buffer : Buffer} {offset : Nat}
    {range : VirtualRange} :
    (buffer.slice? offset slotSize).bind VirtualRange.decode? = some range ↔
      buffer.HoldsRange offset range := by
  rw [slot_eq_some_iff]
  constructor
  · intro h
    rcases h with ⟨hfit, haddress, hsize⟩
    exact ⟨Buffer.word32?_eq_some_iff.mpr ⟨by omega, haddress⟩,
      Buffer.word32?_eq_some_iff.mpr ⟨by omega, hsize⟩⟩
  · intro h
    rcases Buffer.word32?_eq_some_iff.mp h.address with ⟨-, haddress⟩
    rcases Buffer.word32?_eq_some_iff.mp h.size with ⟨hfit, hsize⟩
    exact ⟨by omega, haddress, hsize⟩

theorem Buffer.exists_holdsRange {buffer : Buffer} {offset : Nat}
    (h : offset + 8 ≤ buffer.size) : ∃ range, buffer.HoldsRange offset range := by
  rcases Option.ne_none_iff_exists'.mp (VirtualRange.slot_ne_none_iff.mpr h) with ⟨range, hrange⟩
  exact ⟨range, VirtualRange.slot_eq_some_iff_holdsRange.mp hrange⟩

namespace Image

variable {image : Image} {options : Options}

theorem announcedRange_eq_ok_iff {range : VirtualRange} :
    image.announcedRange options = .ok range ↔
      ∃ offset, image.slotOffset options = .ok offset ∧
        image.buffer.HoldsRange offset range := by
  simp only [announcedRange, bind_eq_ok_iff, require_eq_ok_iff,
    VirtualRange.slot_eq_some_iff_holdsRange]

theorem slotOffset_te {stripped : UInt32} (hformat : image.format = .te stripped)
    (hallow : options.allowTe = true) : image.slotOffset options = .ok 32 := by
  unfold slotOffset
  rw [hformat]
  simp only [ensure, hallow, if_true]
  rfl

-- The number of data directories alone decides where the slot of a PE image is.
theorem slotOffset_pe {kind : PeKind} {start count : UInt32}
    (hformat : image.format = .pe kind start)
    (hcount : image.buffer.word32? (start.toNat + 24 + kind.countOffset) = some count) :
    image.slotOffset options =
      if 6 < count.toNat then .ok (start.toNat + 24 + kind.directoriesOffset + 48)
      else .error (.absent .noDirectory) := by
  unfold slotOffset
  rw [hformat]
  by_cases hmany : 6 < count.toNat
  · rw [if_pos hmany]
    exact bind_eq_ok_iff.mpr ⟨count, require_eq_ok_iff.mpr hcount,
      bind_eq_ok_iff.mpr ⟨(), ensure_eq_ok_iff.mpr hmany, rfl⟩⟩
  · rw [if_neg hmany]
    exact bind_eq_error_iff.mpr (Or.inr ⟨count, require_eq_ok_iff.mpr hcount,
      bind_eq_error_iff.mpr (Or.inl (ensure_eq_error_iff.mpr ⟨hmany, rfl⟩))⟩)

/-- A lookup in the image finds the debug slot as the loader decoded the headers
    `coff` and `optional` behind the PE signature at `start`. The number of data
    directories that it reads is the one that the loader checked. With six or
    fewer there is no slot, and nothing else is ever reported. Otherwise the
    slot is within the optional header, in front of the section table. -/
structure SlotAsDecoded (image : Image) (options : Options) (start : UInt32) (coff : CoffHeader)
    (optional : OptionalHeader) : Prop where
  count : image.buffer.word32? (start.toNat + 24 + optional.kind.countOffset) =
    some optional.directoryCount
  checked : optional.kind.directoriesOffset + 8 * optional.directoryCount.toNat ≤
    coff.optionalSize.toNat
  table : image.sectionsOffset.toNat = start.toNat + 24 + coff.optionalSize.toNat
  tableInFile : image.sectionsOffset.toNat ≤ image.buffer.size
  absent_iff : image.announcedRange options = .error (.absent .noDirectory) ↔
    optional.directoryCount.toNat ≤ 6
  found : 6 < optional.directoryCount.toNat →
    start.toNat + 24 + optional.kind.directoriesOffset + 56 ≤ image.sectionsOffset.toNat ∧
      ∃ range, image.announcedRange options = .ok range ∧
        image.buffer.HoldsRange (start.toNat + 24 + optional.kind.directoriesOffset + 48) range
  onlyAbsent : ∀ error, image.announcedRange options = .error error →
    error = .absent .noDirectory

theorem slotAsDecoded_of_readPe {start : UInt32} {coff : CoffHeader} {optional : OptionalHeader}
    (hheaders : PeHeadersRead image.buffer start coff optional)
    (hfacts : PeFacts image.buffer start optional.kind image.toLayout) :
    image.SlotAsDecoded options start coff optional := by
  have hcount := hheaders.word32?_count
  have hroom := hheaders.slots_le
  have hfile := hheaders.optional_le
  have hoffset := @slotOffset_pe image options _ _ _ hfacts.format hcount
  have htable : image.sectionsOffset.toNat = start.toNat + 24 + coff.optionalSize.toNat := by
    rw [hfacts.sectionsOffset, Buffer.peTable, hheaders.optionalSize_eq]
  by_cases hmany : 6 < optional.directoryCount.toNat
  · -- The slot is one of those that fit the declared size.
    rw [if_pos hmany] at hoffset
    have hslot : start.toNat + 24 + optional.kind.directoriesOffset + 48 + 8 ≤
        image.buffer.size := by omega
    rcases Buffer.exists_holdsRange hslot with ⟨range, hrange⟩
    have hok : image.announcedRange options = .ok range :=
      announcedRange_eq_ok_iff.mpr ⟨_, hoffset, hrange⟩
    refine ⟨hcount, hroom, htable, by omega, ?_, fun _ => ⟨by omega, range, hok, hrange⟩, ?_⟩
    · rw [hok]
      simp only [reduceCtorEq, false_iff]
      omega
    · intro error herror
      rw [hok] at herror
      simp only [reduceCtorEq] at herror
  · rw [if_neg hmany] at hoffset
    have habsent : image.announcedRange options = .error (.absent .noDirectory) := by
      unfold announcedRange
      rw [hoffset]
      rfl
    refine ⟨hcount, hroom, htable, by omega, ?_, fun h => absurd h hmany, ?_⟩
    · simp only [habsent, true_iff]
      omega
    · intro error herror
      rw [habsent, Except.error.injEq] at herror
      exact herror.symm

/-- The loader and a lookup agree on the debug slot of a loaded image, with any
    options that admit it, and those that it was loaded with do. In a TE image
    the slot is always found. In a PE image it is found as the loader decoded
    the headers. -/
theorem slot_found_as_decoded {buffer : Buffer} {loading : Options} {image : Image}
    (hload : Image.load buffer loading = .ok image) :
    image.buffer = buffer ∧ image.AdmittedBy loading ∧
    ∀ options : Options, image.AdmittedBy options →
      (∀ stripped, image.format = .te stripped →
        ∃ range, image.announcedRange options = .ok range ∧ buffer.HoldsRange 32 range) ∧
      ∀ kind start, image.format = .pe kind start →
        ∃ coff optional, PeHeadersRead buffer start coff optional ∧ optional.kind = kind ∧
          image.SlotAsDecoded options start coff optional := by
  rcases load_cases hload with ⟨hbuffer, hsize, hcases⟩
  refine ⟨hbuffer, admitted_of_load hload, fun options hadmitted => ⟨?_, ?_⟩⟩
  · intro stripped hformat
    have hslot := (wellFormed_of_load hload).slot
    unfold SlotInFile slotAt at hslot
    rw [hformat] at hslot
    rcases Buffer.exists_holdsRange hslot with ⟨range, hrange⟩
    have hoffset := slotOffset_te hformat ((admittedBy_te_iff hformat).mp hadmitted)
    exact ⟨range, announcedRange_eq_ok_iff.mpr ⟨32, hoffset, hrange⟩, hbuffer ▸ hrange⟩
  · intro kind start hformat
    rcases hcases with ⟨start', kind', hgrammar, hfacts⟩ | ⟨-, -, hfacts⟩
    · have hread := (Layout.readPe_eq_ok_iff hsize).mpr ⟨kind', hgrammar, hfacts⟩
      rcases Layout.exists_headers_of_readPe hread with ⟨coff, optional, hheaders, hkind⟩
      -- The format names the place and the kind, so these are the ones that were decoded.
      rw [hfacts.format, Format.pe.injEq] at hkind hformat
      rcases hformat with ⟨rfl, rfl⟩
      rw [hkind.1] at hfacts
      rw [← hbuffer] at hheaders hfacts ⊢
      exact ⟨coff, optional, hheaders, hkind.1.symm, slotAsDecoded_of_readPe hheaders hfacts⟩
    · rcases hfacts.format with ⟨stripped, hte, -⟩
      rw [hformat] at hte
      simp only [reduceCtorEq] at hte

end Image

theorem smallImage_slot_found_as_decoded :
    Image.load smallImage .standard = .ok smallLoaded ∧
      ∃ coff optional, PeHeadersRead smallImage 0 coff optional ∧
        optional.directoryCount = 7 ∧
        ∃ range, smallLoaded.announcedRange .withoutTe = .ok range ∧
          smallImage.HoldsRange 168 range := by
  have hadmitted : smallLoaded.AdmittedBy .withoutTe := Or.inr rfl
  rcases (Image.slot_found_as_decoded load_smallImage).2.2 .withoutTe hadmitted with ⟨-, hpe⟩
  rcases hpe .pe32 0 rfl with ⟨coff, optional, hheaders, hkind, hslot⟩
  have hcount : smallImage.word32? 116 = some 7 := by decide +kernel
  have hseven := hslot.count
  have hfound := hslot.found
  rw [hkind] at hseven hfound
  have hdirectories : optional.directoryCount = 7 := Option.some.inj (hseven.symm.trans hcount)
  rcases (hfound (by rw [hdirectories]; decide)).2 with ⟨range, hrange, hholds⟩
  exact ⟨load_smallImage, coff, optional, hheaders, hdirectories, range, hrange, hholds⟩

end SymbolLocator
