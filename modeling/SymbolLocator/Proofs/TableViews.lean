import SymbolLocator.Proofs.PeGrammar

/-!
# Ways Through a Table

The section table and the debug directory are looked at in three ways, and all
of them see the same records.

A record can be asked for by its index. The index is multiplied by the width of
a record, on a machine where the product may not fit, and whether the record is
there is a matter of bounds. The records can also be listed. Then the bytes are
cut into blocks, and a block that does not decode would be dropped, which would
give every record behind it a wrong index. And a record can be searched for, by
walking the list and counting. An index that comes out of a search goes into
messages and events, so it must be the one that the record has in the file.

None of this is special to a kind of record. `TableViews` says what it is for
the ways to agree, for records of any width that decode from every block of
that width, and both tables are cases of it. What a record is in terms of the
file is a structure of its own for each kind. It names every field, so nothing
about the decoders is left to trust.

The bytes need not be a whole number of records. What is left over belongs to
none, is not counted, and is not found at any index.

## Main definitions

* `Section.StandsAt`, `DebugEntry.StandsAt`: A record is the one in the bytes at
  an offset.
* `recordAt?`: A record by its index, on a 64-bit machine.
* `TableViews`: The ways through a table agree with each other and with the
  bytes.
* `FindsFirst`: A search finds the first item with a property.

## Theorems

* `Section.standsAt_of_decode?`, `DebugEntry.standsAt_of_decode?`: Decoding
  gives the record in the bytes.
* `recordAt?_eq`: An index whose product does not fit is past the end.
* `tableViews_of_slice`: The ways agree, for any kind of record.
* `findsFirst_firstMatch`: So does the search.
* `views_agree_with_bytes`: Both tables.
-/

namespace SymbolLocator

variable {α : Type}

/-! ### Records in the file -/

/-- The header is the one in the 40 bytes from `offset` on. -/
structure Section.StandsAt (header : Section) (buffer : Buffer) (offset : Nat) : Prop where
  inBuffer : offset + 40 ≤ buffer.size
  name : buffer.hasBytesAt offset header.name.toList
  virtualSize : header.virtualSize.toNat = buffer.numberAt 4 (offset + 8)
  virtualAddress : header.virtualAddress.toNat = buffer.numberAt 4 (offset + 12)
  rawSize : header.rawSize.toNat = buffer.numberAt 4 (offset + 16)
  rawPointer : header.rawPointer.toNat = buffer.numberAt 4 (offset + 20)
  characteristics : header.characteristics.toNat = buffer.numberAt 4 (offset + 36)

/-- The entry is the one in the 28 bytes from `offset` on. -/
structure DebugEntry.StandsAt (entry : DebugEntry) (buffer : Buffer) (offset : Nat) : Prop where
  inBuffer : offset + 28 ≤ buffer.size
  characteristics : entry.characteristics.toNat = buffer.numberAt 4 offset
  timeDateStamp : entry.timeDateStamp.toNat = buffer.numberAt 4 (offset + 4)
  majorVersion : entry.majorVersion.toNat = buffer.numberAt 2 (offset + 8)
  minorVersion : entry.minorVersion.toNat = buffer.numberAt 2 (offset + 10)
  dataType : entry.dataType.toNat = buffer.numberAt 4 (offset + 12)
  dataSize : entry.dataSize.toNat = buffer.numberAt 4 (offset + 16)
  virtualAddress : entry.virtualAddress.toNat = buffer.numberAt 4 (offset + 20)
  rawPointer : entry.rawPointer.toNat = buffer.numberAt 4 (offset + 24)

theorem Buffer.toList_of_vector? {n : Nat} {buffer : Buffer} {offset : Nat} {part : Vector UInt8 n}
    (h : buffer.vector? n offset = some part) :
    part.toList = (buffer.bytes.drop offset).take n := by
  unfold vector? at h
  by_cases hfit : offset + n ≤ buffer.size
  · rw [dif_pos hfit, Option.some.injEq] at h
    subst h
    have hlength : offset + n ≤ buffer.bytes.length := hfit
    -- The bytes of both are those of the buffer, index by index.
    apply List.ext_getElem
    · rw [Vector.length_toList, List.length_take, List.length_drop]
      omega
    · intro i hi hi'
      rw [Vector.getElem_toList, Vector.getElem_ofFn, List.getElem_take, List.getElem_drop]
      rfl
  · rw [dif_neg hfit] at h
    exact absurd h (Option.some_ne_none part).symm

theorem Section.standsAt_of_decode? {buffer block : Buffer} {offset : Nat} {header : Section}
    (hslice : buffer.slice? offset headerSize = some block)
    (h : decode? block = some header) : header.StandsAt buffer offset := by
  simp only [decode?, Option.bind_eq_bind, Option.pure_def, Option.bind_eq_some_iff,
    Option.some.injEq, Buffer.word32?_eq_some_iff] at h
  rcases h with ⟨name, hname, virtualSize, ⟨-, hsize⟩, virtualAddress, ⟨-, haddress⟩, rawSize,
    ⟨-, hraw⟩, rawPointer, ⟨-, hpointer⟩, characteristics, ⟨-, hcharacteristics⟩, rfl⟩
  -- A number of the block is one of the buffer further on.
  have hnumber : ∀ i, i + 4 ≤ 40 → block.numberAt 4 i = buffer.numberAt 4 (offset + i) :=
    fun i hi => Buffer.numberAt_slice hslice hi
  have hfront : (block.bytes.drop 0).take 8 = (buffer.bytes.drop (offset + 0)).take 8 :=
    Buffer.take_drop_slice hslice (by decide)
  refine ⟨(Buffer.slice?_eq_some_iff.mp hslice).1, ?_, ?_, ?_, ?_, ?_, ?_⟩
  · rw [Buffer.hasBytesAt, Vector.length_toList, Buffer.toList_of_vector? hname, hfront,
      Nat.add_zero]
  · rw [hsize, hnumber 8 (by decide)]
  · rw [haddress, hnumber 12 (by decide)]
  · rw [hraw, hnumber 16 (by decide)]
  · rw [hpointer, hnumber 20 (by decide)]
  · rw [hcharacteristics, hnumber 36 (by decide)]

theorem DebugEntry.standsAt_of_decode? {buffer block : Buffer} {offset : Nat} {entry : DebugEntry}
    (hslice : buffer.slice? offset size = some block)
    (h : decode? block = some entry) : entry.StandsAt buffer offset := by
  simp only [decode?, Option.bind_eq_bind, Option.pure_def, Option.bind_eq_some_iff,
    Option.some.injEq, Buffer.word32?_eq_some_iff, Buffer.word16?_eq_some_iff] at h
  rcases h with ⟨characteristics, ⟨-, h0⟩, timeDateStamp, ⟨-, h4⟩, majorVersion, ⟨-, h8⟩,
    minorVersion, ⟨-, h10⟩, dataType, ⟨-, h12⟩, dataSize, ⟨-, h16⟩, virtualAddress, ⟨-, h20⟩,
    rawPointer, ⟨-, h24⟩, rfl⟩
  have hword : ∀ i, i + 4 ≤ 28 → block.numberAt 4 i = buffer.numberAt 4 (offset + i) :=
    fun i hi => Buffer.numberAt_slice hslice hi
  have hhalf : ∀ i, i + 2 ≤ 28 → block.numberAt 2 i = buffer.numberAt 2 (offset + i) :=
    fun i hi => Buffer.numberAt_slice hslice hi
  refine ⟨(Buffer.slice?_eq_some_iff.mp hslice).1, ?_, ?_, ?_, ?_, ?_, ?_, ?_, ?_⟩
  · rw [h0, hword 0 (by decide), Nat.add_zero]
  · rw [h4, hword 4 (by decide)]
  · rw [h8, hhalf 8 (by decide)]
  · rw [h10, hhalf 10 (by decide)]
  · rw [h12, hword 12 (by decide)]
  · rw [h16, hword 16 (by decide)]
  · rw [h20, hword 20 (by decide)]
  · rw [h24, hword 24 (by decide)]

/-! ### Indices of a 64-bit machine -/

/-- The record of `width` bytes at an index, on a machine that finds nothing
    where the start or the end of the record is no 64-bit number. -/
def recordAt? (decode : Buffer → Option α) (width : Nat) (bytes : Buffer) (index : UInt64) :
    Option α := do
  let start ← size64? (index.toNat * width)
  let stop ← size64? (start + width)
  let block ← if stop ≤ bytes.size then some (bytes.extract start stop) else none
  decode block

/-- In bytes that a 64-bit size counts, an index whose product does not fit is
    past the end. -/
theorem recordAt?_eq (decode : Buffer → Option α) (width : Nat) {bytes : Buffer}
    (hsize : bytes.size < UInt64.size) (index : UInt64) :
    recordAt? decode width bytes index =
      (bytes.slice? (index.toNat * width) width).bind decode := by
  unfold recordAt? Buffer.slice?
  by_cases hfit : index.toNat * width + width ≤ bytes.size
  · have hstop : index.toNat * width + width < UInt64.size := Nat.lt_of_le_of_lt hfit hsize
    have hstart : index.toNat * width < UInt64.size :=
      Nat.lt_of_le_of_lt (Nat.le_add_right _ _) hstop
    simp only [size64?, if_pos hstart, if_pos hstop, if_pos hfit, Option.bind_eq_bind,
      Option.bind_some]
  · -- Whichever step gives nothing, the record is not there.
    rw [if_neg hfit, Option.bind_none]
    by_cases hstart : index.toNat * width < UInt64.size
    · by_cases hstop : index.toNat * width + width < UInt64.size
      · simp only [size64?, if_pos hstart, if_pos hstop, if_neg hfit, Option.bind_eq_bind,
          Option.bind_some, Option.bind_none]
      · simp only [size64?, if_pos hstart, if_neg hstop, Option.bind_eq_bind, Option.bind_some,
          Option.bind_none]
    · simp only [size64?, if_neg hstart, Option.bind_eq_bind, Option.bind_none]

/-- The section header at a 64-bit index. -/
def SectionTable.getAt? (table : SectionTable) (index : UInt64) : Option Section :=
  recordAt? Section.decode? Section.headerSize table.bytes index

/-- The debug entry at a 64-bit index. -/
def DebugDirectory.getAt? (directory : DebugDirectory) (index : UInt64) : Option DebugEntry :=
  recordAt? DebugEntry.decode? DebugEntry.size directory.bytes index

/-! ### Agreement -/

/-- The ways through a table of `count` records agree: its size, whether it is
    empty, the list of its items, and access by an index, of any magnitude and on
    a 64-bit machine. Each item is where `standsAt` says, for its index. -/
structure TableViews (count size : Nat) (isEmpty : Bool) (items : List α)
    (get? : Nat → Option α) (getAt? : UInt64 → Option α) (standsAt : α → Nat → Prop) : Prop where
  size_eq : size = count
  length_eq : items.length = size
  isEmpty_iff : isEmpty = true ↔ size = 0
  get?_eq : ∀ i, get? i = items[i]?
  getAt?_eq : ∀ index, getAt? index = items[index.toNat]?
  none_of_le : ∀ i, size ≤ i → get? i = none
  item : ∀ i < size, ∃ item, items[i]? = some item ∧ standsAt item i

/-- The search finds the first of the items that `holds` is true of, with its
    index, and nothing iff it is true of none. -/
structure FindsFirst (hit : Option (Nat × α)) (items : List α) (holds : α → Prop) : Prop where
  some_iff : ∀ i item, hit = some (i, item) ↔
    items[i]? = some item ∧ holds item ∧
      ∀ j < i, ∀ earlier, items[j]? = some earlier → ¬ holds earlier
  none_iff : hit = none ↔ ∀ item ∈ items, ¬ holds item

theorem findsFirst_firstMatch {test : α → Bool} {holds : α → Prop}
    (h : ∀ item, test item = true ↔ holds item) (items : List α) :
    FindsFirst (firstMatch test items) items holds where
  some_iff := by
    intro i item
    simp only [firstMatch_eq_some_iff, h, ← Bool.not_eq_true]
  none_iff := by
    simp only [firstMatch_eq_none_iff, h, ← Bool.not_eq_true]

section Records

variable {decode : Buffer → Option α} {width : Nat} {standsAt : α → Nat → Prop}

/-- The ways agree for any kind of record that decodes from every block of its
    width. The bytes of the table are those of the file from `offset` on. -/
theorem tableViews_of_slice (hwidth : 0 < width)
    (htotal : ∀ block : Buffer, width ≤ block.size → decode block ≠ none)
    {buffer bytes : Buffer} {offset length : Nat}
    (hslice : buffer.slice? offset length = some bytes) (hlength : length < UInt64.size)
    (hstands : ∀ i block item, buffer.slice? (offset + width * i) width = some block →
      decode block = some item → standsAt item i)
    {isEmpty : Bool} (hempty : isEmpty = true ↔ bytes.size / width = 0) :
    TableViews (length / width) (bytes.size / width) isEmpty
      ((bytes.chunks width).filterMap decode)
      (fun i => (bytes.slice? (i * width) width).bind decode)
      (recordAt? decode width bytes) standsAt := by
  have hsize := Buffer.size_slice hslice
  have hitems := getElem?_filterMap_chunks hwidth htotal bytes
  have hcount := length_filterMap_chunks hwidth htotal bytes
  refine ⟨by rw [hsize], hcount, hempty, fun i => (hitems i).symm, fun index => ?_,
    fun i hi => ?_, fun i hi => ?_⟩
  · rw [recordAt?_eq decode width (hsize ▸ hlength), hitems]
  · rw [← hitems]
    exact List.getElem?_eq_none (hcount ▸ hi)
  · -- A whole record is within the bytes, so it is a slice of the file, and it decodes.
    have hwhole : i * width + width ≤ length := by
      rw [← Nat.succ_mul, ← Nat.le_div_iff_mul_le hwidth, ← hsize]
      exact hi
    have hblock := Buffer.slice?_slice hslice hwhole
    rcases bytes.slice?_eq_some (hsize ▸ hwhole) with ⟨block, hpart⟩
    rw [hpart, Nat.mul_comm] at hblock
    have hwide : width ≤ block.size := Nat.le_of_eq (Buffer.size_slice hpart).symm
    rcases Option.ne_none_iff_exists'.mp (htotal block hwide) with ⟨item, hitem⟩
    refine ⟨item, ?_, hstands i block item hblock.symm hitem⟩
    rw [hitems, hpart]
    exact hitem

end Records

theorem SectionTable.views {buffer : Buffer} {offset : Nat} {count : UInt16}
    {table : SectionTable} (h : ofBuffer? buffer offset count = some table) :
    TableViews count.toNat table.size table.isEmpty table.toList table.get? table.getAt?
      (fun header i => header.StandsAt buffer (offset + 40 * i)) := by
  have hslice := slice?_of_ofBuffer? h
  have hsize := Buffer.size_slice hslice
  have hcount := count.toNat_lt
  have hword : UInt64.size = 18446744073709551616 := rfl
  have hempty : table.isEmpty = true ↔ table.bytes.size / 40 = 0 := by
    rw [isEmpty, beq_iff_eq]
    omega
  have hviews := tableViews_of_slice (by decide) (fun _ hle => Section.decode?_ne_none hle) hslice
    (by omega) (fun i _ _ => Section.standsAt_of_decode?) hempty
  rw [Section.headerSize, Nat.mul_div_cancel_left _ (by decide)] at hviews
  exact hviews

theorem DebugDirectory.views {buffer : Buffer} {fileOffset size : UInt32}
    {directory : DebugDirectory} (h : ofBuffer? buffer fileOffset size = some directory) :
    TableViews (size.toNat / 28) directory.size directory.isEmpty directory.toList
      directory.get? directory.getAt?
      (fun entry i => entry.StandsAt buffer (fileOffset.toNat + 28 * i)) := by
  have hslice := (ofBuffer?_eq_some_iff.mp h).1
  have hsize := size.toNat_lt
  have hword : UInt64.size = 18446744073709551616 := rfl
  have hempty : directory.isEmpty = true ↔ directory.bytes.size / 28 = 0 := by
    rw [isEmpty, decide_eq_true_iff, DebugEntry.size]
    omega
  exact tableViews_of_slice (by decide) (fun _ hle => DebugEntry.decode?_ne_none hle) hslice
    (by omega) (fun i _ _ => DebugEntry.standsAt_of_decode?) hempty

/-- The ways through both tables agree with each other and with the bytes of the
    file, wherever a table is and however many bytes are left over behind its
    last record. A search gives the first record that has what is searched for,
    with the index that the record has in the file. -/
theorem views_agree_with_bytes (buffer : Buffer) :
    (∀ offset count table, SectionTable.ofBuffer? buffer offset count = some table →
      TableViews count.toNat table.size table.isEmpty table.toList table.get? table.getAt?
        (fun header i => header.StandsAt buffer (offset + 40 * i)) ∧
      ∀ range, FindsFirst (table.containing? range) table.toList
        (fun header => header.extent.Holds range.address.toNat range.size.toNat)) ∧
    ∀ fileOffset size directory,
      DebugDirectory.ofBuffer? buffer fileOffset size = some directory →
      TableViews (size.toNat / 28) directory.size directory.isEmpty directory.toList
        directory.get? directory.getAt?
        (fun entry i => entry.StandsAt buffer (fileOffset.toNat + 28 * i)) ∧
      FindsFirst directory.codeView? directory.toList (fun entry => entry.dataType.toNat = 2) := by
  refine ⟨fun offset count table h => ⟨SectionTable.views h, fun range => ?_⟩,
    fun fileOffset size directory h => ⟨DebugDirectory.views h, ?_⟩⟩
  · exact findsFirst_firstMatch (fun _ => Section.contains_iff) table.toList
  · exact findsFirst_firstMatch (fun _ => DebugEntry.isCodeView_iff) directory.toList

-- The directory is asked for with two bytes more than its one entry has.
theorem smallImage_views_agree :
    (∃ table, SectionTable.ofBuffer? smallImage 176 1 = some table ∧ table.size = 1 ∧
      table.get? 1 = none ∧ table.getAt? 0x8000000000000000 = none ∧
      ∃ header, table.get? 0 = some header ∧ header.StandsAt smallImage 176) ∧
    ∃ directory, DebugDirectory.ofBuffer? smallImage 216 30 = some directory ∧
      directory.size = 1 ∧ directory.get? 1 = none ∧
      ∃ entry, directory.codeView? = some (0, entry) ∧ entry.StandsAt smallImage 216 := by
  rcases views_agree_with_bytes smallImage with ⟨htables, hdirectories⟩
  have htable : SectionTable.ofBuffer? smallImage 176 1 ≠ none :=
    SectionTable.ofBuffer?_ne_none_iff.mpr (by decide +kernel)
  rcases Option.ne_none_iff_exists'.mp htable with ⟨table, htable⟩
  rcases smallImage.slice?_eq_some (by decide +kernel : 216 + 30 ≤ smallImage.size) with
    ⟨bytes, hbytes⟩
  have hdirectory : DebugDirectory.ofBuffer? smallImage 216 30 = some ⟨bytes, 216⟩ :=
    DebugDirectory.ofBuffer?_eq_some_iff.mpr ⟨hbytes, rfl⟩
  have hviews := (htables 176 1 table htable).1
  have hentries := hdirectories 216 30 _ hdirectory
  refine ⟨⟨table, htable, hviews.size_eq, ?_, ?_, ?_⟩, _, hdirectory, hentries.1.size_eq, ?_, ?_⟩
  · exact hviews.none_of_le 1 (Nat.le_of_eq hviews.size_eq)
  · rw [hviews.getAt?_eq, ← hviews.get?_eq]
    exact hviews.none_of_le _ (by rw [hviews.size_eq]; decide)
  · rcases hviews.item 0 (by rw [hviews.size_eq]; decide) with ⟨header, hheader, hstands⟩
    exact ⟨header, (hviews.get?_eq 0).trans hheader, hstands⟩
  · exact hentries.1.none_of_le 1 (Nat.le_of_eq hentries.1.size_eq)
  · rcases hentries.1.item 0 (by rw [hentries.1.size_eq]; decide) with ⟨entry, hentry, hstands⟩
    have htype : entry.dataType.toNat = 2 := by
      rw [hstands.dataType]
      decide +kernel
    refine ⟨entry, (hentries.2.some_iff 0 entry).mpr ⟨hentry, htype, fun j hj => ?_⟩, hstands⟩
    exact absurd hj (Nat.not_lt_zero j)

end SymbolLocator
