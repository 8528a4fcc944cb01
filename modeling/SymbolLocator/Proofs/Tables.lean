import SymbolLocator.Section.Table
import SymbolLocator.Debug.Directory
import SymbolLocator.Proofs.Numbers

/-!
# Tables of Records

The section table and the debug directory, as numbers in a file.

Both are runs of records of one width, cut into blocks and decoded block by
block, and in both a block that does not decode would be left out, which would
shift every index behind it. It never happens: a record decodes from any block
that is long enough. So item `i` of the list is the record at `i` times the
width, and its fields are numbers of the buffer at fixed places.

A statement about an image does not need the decoded records. It speaks of
`Extent`s, the four numbers of a section header that say where the section
lies, and of the three numbers of a debug entry that a lookup looks at.

## Main definitions

* `Extent`: Where a section lies, in numbers.
* `Buffer.extentAt`: The extent in the header at an index of a table.
* `Extent.Holds`: An extent holds a virtual range.
* `Buffer.entryTypeAt`, `Buffer.entrySizeAt`, `Buffer.entryPointerAt`: The
  numbers of the debug entry at an index of a directory.

## Theorems

* `getElem?_filterMap_chunks`: No block is lost, so indices are positions.
* `SectionTable.extent_getElem`, `DebugDirectory.numbers_getElem`: Decoded
  records hold the numbers of the buffer.
* `SectionTable.containing?_eq_some_iff`: Search in a section table.
* `DebugDirectory.codeView?_eq_some_iff`: Search in a debug directory.
-/

namespace SymbolLocator

/-! ### Blocks -/

theorem getElem?_chunks {width : Nat} (hpos : 0 < width) (buffer : Buffer) (i : Nat) :
    (buffer.chunks width)[i]? = buffer.slice? (i * width) width := by
  have hblock : i < buffer.size / width ↔ i * width + width ≤ buffer.size := by
    rw [Nat.lt_iff_add_one_le, Nat.le_div_iff_mul_le hpos, Nat.add_one_mul]
  rw [Buffer.chunks, List.getElem?_map]
  by_cases hi : i < buffer.size / width
  · rw [List.getElem?_range hi, Buffer.slice?, if_pos (hblock.mp hi)]
    rfl
  · rw [List.getElem?_eq_none (by rw [List.length_range]; omega), Buffer.slice?,
      if_neg (fun hle => hi (hblock.mpr hle))]
    rfl

theorem size_of_mem_chunks {width : Nat} (hpos : 0 < width) {buffer block : Buffer}
    (hmem : block ∈ buffer.chunks width) : block.size = width := by
  rcases List.mem_iff_getElem?.mp hmem with ⟨i, hi⟩
  rw [getElem?_chunks hpos] at hi
  exact Buffer.size_slice hi

-- A filter that drops nothing keeps every item at its index. The induction is on the items,
-- and each step moves the index along with them.
theorem getElem?_filterMap {α β : Type} {f : α → Option β} {items : List α}
    (htotal : ∀ item ∈ items, f item ≠ none) (i : Nat) :
    (items.filterMap f)[i]? = items[i]?.bind f := by
  induction items generalizing i with
  | nil => rfl
  | cons item rest ih =>
      have hrest := ih (fun other hmem => htotal other (List.mem_cons_of_mem _ hmem))
      rcases hitem : f item with _ | value
      · exact absurd hitem (htotal item List.mem_cons_self)
      · rw [List.filterMap_cons_some hitem]
        cases i with
        | zero => exact hitem.symm
        | succ i => exact hrest i

section Blocks

variable {α : Type} {width : Nat} {decode : Buffer → Option α}

/-- A table decoded block by block has the record of each block at its index,
    if every block decodes. -/
theorem getElem?_filterMap_chunks (hpos : 0 < width)
    (htotal : ∀ block : Buffer, width ≤ block.size → decode block ≠ none)
    (buffer : Buffer) (i : Nat) :
    ((buffer.chunks width).filterMap decode)[i]? =
      (buffer.slice? (i * width) width).bind decode := by
  rw [getElem?_filterMap ?_ i, getElem?_chunks hpos]
  intro block hmem
  exact htotal block (Nat.le_of_eq (size_of_mem_chunks hpos hmem).symm)

theorem length_filterMap_chunks (hpos : 0 < width)
    (htotal : ∀ block : Buffer, width ≤ block.size → decode block ≠ none)
    (buffer : Buffer) : ((buffer.chunks width).filterMap decode).length = buffer.size / width := by
  have hsome : ∀ block ∈ buffer.chunks width, (decode block).isSome := by
    intro block hmem
    have hsize := size_of_mem_chunks hpos hmem
    exact Option.isSome_iff_ne_none.mpr (htotal block (Nat.le_of_eq hsize.symm))
  rw [List.filterMap_length_eq_length.mpr hsome, Buffer.chunks, List.length_map, List.length_range]

end Blocks

/-! ### Search -/

section Search

variable {α : Type} {test : α → Bool} {items : List α} {holds : Nat → Prop}

/-- A search whose test is a property of positions finds the least position
    with that property. -/
theorem firstMatch_eq_some_iff_index
    (h : ∀ i (hi : i < items.length), test items[i] = true ↔ holds i) {i : Nat} {item : α} :
    firstMatch test items = some (i, item) ↔
      items[i]? = some item ∧ holds i ∧ ∀ j < i, ¬ holds j := by
  rw [firstMatch_eq_some_iff]
  constructor
  · intro hmatch
    rcases hmatch with ⟨hget, hpass, hbefore⟩
    rcases List.getElem?_eq_some_iff.mp hget with ⟨hi, rfl⟩
    refine ⟨hget, (h i hi).mp hpass, fun j hj => ?_⟩
    have hlt : j < items.length := Nat.lt_trans hj hi
    rw [← h j hlt, Bool.not_eq_true]
    exact hbefore j hj _ (List.getElem?_eq_getElem hlt)
  · intro hmatch
    rcases hmatch with ⟨hget, hpass, hbefore⟩
    rcases List.getElem?_eq_some_iff.mp hget with ⟨hi, rfl⟩
    refine ⟨hget, (h i hi).mpr hpass, fun j hj other hother => ?_⟩
    rcases List.getElem?_eq_some_iff.mp hother with ⟨hlt, rfl⟩
    rw [← Bool.not_eq_true, h j hlt]
    exact hbefore j hj

theorem firstMatch_eq_none_iff_index
    (h : ∀ i (hi : i < items.length), test items[i] = true ↔ holds i) :
    firstMatch test items = none ↔ ∀ i < items.length, ¬ holds i := by
  rw [firstMatch_eq_none_iff]
  constructor
  · intro hnone i hi
    rw [← h i hi, Bool.not_eq_true]
    exact hnone _ (List.getElem_mem hi)
  · intro hnone item hmem
    rcases List.getElem_of_mem hmem with ⟨i, hi, rfl⟩
    rw [← Bool.not_eq_true, h i hi]
    exact hnone i hi

end Search

/-! ### The least index -/

/-- The least index below `count` at which `holds` is true, or `count` if it
    is true at none. -/
def leastIndex (holds : Nat → Prop) [DecidablePred holds] (count : Nat) : Nat :=
  (List.range count).findIdx fun i => holds i

theorem leastIndex_eq_iff {holds : Nat → Prop} [DecidablePred holds] {count i : Nat}
    (hi : i < count) :
    leastIndex holds count = i ↔ holds i ∧ ∀ j < i, ¬ holds j := by
  rw [leastIndex, List.findIdx_eq (by rw [List.length_range]; exact hi)]
  simp only [List.getElem_range, decide_eq_true_eq, decide_eq_false_iff_not]

theorem leastIndex_lt_iff {holds : Nat → Prop} [DecidablePred holds] {count : Nat} :
    leastIndex holds count < count ↔ ∃ i < count, holds i := by
  have hlt := @List.findIdx_lt_length _ (fun i => decide (holds i)) (List.range count)
  rw [List.length_range] at hlt
  rw [leastIndex, hlt]
  simp only [List.mem_range, decide_eq_true_eq]

/-! ### Section headers -/

/-- Where a section lies, in the loaded image and in the file. -/
structure Extent where
  address : Nat
  size : Nat
  rawSize : Nat
  rawPointer : Nat
deriving DecidableEq, Repr

namespace Extent

/-- The first address behind a section. -/
def top (extent : Extent) : Nat := extent.address + extent.size

/-- The range of `size` addresses from `address` on lies within the section,
    and the section within the addresses there are. -/
def Holds (extent : Extent) (address size : Nat) : Prop :=
  extent.address ≤ address ∧ address + size ≤ extent.top ∧ extent.top < UInt32.size

instance (extent : Extent) (address size : Nat) : Decidable (extent.Holds address size) :=
  inferInstanceAs (Decidable (_ ∧ _ ∧ _))

end Extent

/-- The extent in the header at `index` of the table at `table`. -/
def Buffer.extentAt (buffer : Buffer) (table index : Nat) : Extent where
  address := buffer.numberAt 4 (table + 40 * index + 12)
  size := buffer.numberAt 4 (table + 40 * index + 8)
  rawSize := buffer.numberAt 4 (table + 40 * index + 16)
  rawPointer := buffer.numberAt 4 (table + 40 * index + 20)

namespace Section

/-- Where a section lies, as its header says. -/
def extent (header : Section) : Extent where
  address := header.virtualAddress.toNat
  size := header.virtualSize.toNat
  rawSize := header.rawSize.toNat
  rawPointer := header.rawPointer.toNat

theorem contains_iff {header : Section} {range : VirtualRange} :
    header.contains range = true ↔
      header.extent.Holds range.address.toNat range.size.toNat :=
  VirtualRange.within_iff

theorem decode?_ne_none {buffer : Buffer} (h : headerSize ≤ buffer.size) :
    decode? buffer ≠ none := by
  unfold headerSize at h
  have hname : ∃ name, buffer.vector? 8 0 = some name := ⟨_, dif_pos (by omega)⟩
  -- The last field ends with the header, so every field is there.
  have hword : ∀ offset, offset ≤ 36 → ∃ word, buffer.word32? offset = some word := by
    intro offset hle
    exact Buffer.exists_word32? (by omega)
  rcases hname with ⟨name, hname⟩
  rcases hword 8 (by omega) with ⟨virtualSize, hsize⟩
  rcases hword 12 (by omega) with ⟨virtualAddress, haddress⟩
  rcases hword 16 (by omega) with ⟨rawSize, hraw⟩
  rcases hword 20 (by omega) with ⟨rawPointer, hpointer⟩
  rcases hword 36 (by omega) with ⟨characteristics, hcharacteristics⟩
  simp only [decode?, hname, hsize, haddress, hraw, hpointer, hcharacteristics,
    Option.bind_eq_bind, Option.bind_some, Option.pure_def, ne_eq, reduceCtorEq,
    not_false_eq_true]

theorem extent_of_decode? {buffer : Buffer} {header : Section}
    (h : decode? buffer = some header) : header.extent = buffer.extentAt 0 0 := by
  simp only [decode?, Option.bind_eq_bind, Option.pure_def, Option.bind_eq_some_iff,
    Option.some.injEq, Buffer.word32?_eq_some_iff] at h
  rcases h with ⟨name, -, virtualSize, ⟨-, hsize⟩, virtualAddress, ⟨-, haddress⟩, rawSize,
    ⟨-, hraw⟩, rawPointer, ⟨-, hpointer⟩, characteristics, -, rfl⟩
  simp only [extent, Buffer.extentAt, hsize, haddress, hraw, hpointer, Nat.mul_zero, Nat.zero_add]

end Section

namespace SectionTable

theorem ofBuffer?_eq_none_iff {buffer : Buffer} {offset : Nat} {count : UInt16} :
    ofBuffer? buffer offset count = none ↔ buffer.size < offset + 40 * count.toNat := by
  rw [ofBuffer?, Option.map_eq_none_iff, Buffer.slice?_eq_none_iff, Section.headerSize,
    Nat.mul_comm]

theorem ofBuffer?_ne_none_iff {buffer : Buffer} {offset : Nat} {count : UInt16} :
    ofBuffer? buffer offset count ≠ none ↔ offset + 40 * count.toNat ≤ buffer.size := by
  rw [ne_eq, ofBuffer?_eq_none_iff, Nat.not_lt]

theorem getElem?_toList (table : SectionTable) (i : Nat) : table.toList[i]? = table.get? i :=
  getElem?_filterMap_chunks (by decide) (fun _ hle => Section.decode?_ne_none hle) table.bytes i

variable {buffer : Buffer} {offset : Nat} {count : UInt16} {table : SectionTable}

theorem slice?_of_ofBuffer? (h : ofBuffer? buffer offset count = some table) :
    buffer.slice? offset (40 * count.toNat) = some table.bytes := by
  rw [ofBuffer?, Option.map_eq_some_iff] at h
  rcases h with ⟨bytes, hslice, rfl⟩
  rw [Nat.mul_comm]
  exact hslice

theorem get?_of_ofBuffer? (h : ofBuffer? buffer offset count = some table) {i : Nat}
    (hi : i < count.toNat) :
    table.get? i = (buffer.slice? (offset + 40 * i) 40).bind Section.decode? := by
  rw [get?, Section.headerSize, Buffer.slice?_slice (slice?_of_ofBuffer? h) (by omega),
    Nat.mul_comm i]

theorem length_toList (h : ofBuffer? buffer offset count = some table) :
    table.toList.length = count.toNat := by
  have hsize := Buffer.size_slice (slice?_of_ofBuffer? h)
  rw [toList, length_filterMap_chunks (by decide) (fun _ hle => Section.decode?_ne_none hle),
    Section.headerSize]
  omega

/-- A decoded section lies where the numbers of its header say. -/
theorem extent_getElem (h : ofBuffer? buffer offset count = some table) {i : Nat}
    (hi : i < table.toList.length) : table.toList[i].extent = buffer.extentAt offset i := by
  -- The list and the indexed access agree, and the indexed access names a block.
  have hget : table.get? i = some table.toList[i] := by
    rw [← getElem?_toList, List.getElem?_eq_getElem hi]
  rw [get?_of_ofBuffer? h (by rw [← length_toList h]; exact hi), Option.bind_eq_some_iff] at hget
  rcases hget with ⟨block, hslice, hdecode⟩
  -- The numbers of the block are numbers of the buffer further on.
  rw [Section.extent_of_decode? hdecode, Buffer.extentAt, Buffer.extentAt]
  simp only [Nat.mul_zero, Nat.zero_add]
  rw [Buffer.numberAt_slice hslice (by omega), Buffer.numberAt_slice hslice (by omega),
    Buffer.numberAt_slice hslice (by omega), Buffer.numberAt_slice hslice (by omega)]

theorem contains_getElem (h : ofBuffer? buffer offset count = some table)
    (range : VirtualRange) (i : Nat) (hi : i < table.toList.length) :
    table.toList[i].contains range = true ↔
      (buffer.extentAt offset i).Holds range.address.toNat range.size.toNat := by
  rw [Section.contains_iff, extent_getElem h hi]

/-- Searching the table is searching the extents in the buffer. -/
theorem containing?_eq_some_iff (h : ofBuffer? buffer offset count = some table)
    {range : VirtualRange} {i : Nat} {header : Section} :
    table.containing? range = some (i, header) ↔
      table.toList[i]? = some header ∧
        (buffer.extentAt offset i).Holds range.address.toNat range.size.toNat ∧
        ∀ j < i, ¬ (buffer.extentAt offset j).Holds range.address.toNat range.size.toNat := by
  rw [containing?, firstMatch_eq_some_iff_index (contains_getElem h range)]

theorem containing?_eq_none_iff (h : ofBuffer? buffer offset count = some table)
    {range : VirtualRange} :
    table.containing? range = none ↔
      ∀ i < count.toNat,
        ¬ (buffer.extentAt offset i).Holds range.address.toNat range.size.toNat := by
  rw [containing?, firstMatch_eq_none_iff_index (contains_getElem h range), length_toList h]

end SectionTable

/-! ### Debug entries -/

namespace Buffer

/-- The data type in the entry at `index` of the directory at `directory`. -/
def entryTypeAt (buffer : Buffer) (directory index : Nat) : Nat :=
  buffer.numberAt 4 (directory + 28 * index + 12)

/-- The data size in the entry at `index` of the directory at `directory`. -/
def entrySizeAt (buffer : Buffer) (directory index : Nat) : Nat :=
  buffer.numberAt 4 (directory + 28 * index + 16)

/-- The file pointer in the entry at `index` of the directory at
    `directory`. -/
def entryPointerAt (buffer : Buffer) (directory index : Nat) : Nat :=
  buffer.numberAt 4 (directory + 28 * index + 24)

end Buffer

namespace DebugEntry

theorem decode?_ne_none {buffer : Buffer} (h : size ≤ buffer.size) : decode? buffer ≠ none := by
  unfold size at h
  have hword : ∀ offset, offset ≤ 24 → ∃ word, buffer.word32? offset = some word := by
    intro offset hle
    exact Buffer.exists_word32? (by omega)
  have hhalf : ∀ offset, offset ≤ 26 → ∃ half, buffer.word16? offset = some half := by
    intro offset hle
    exact Buffer.exists_word16? (by omega)
  rcases hword 0 (by omega) with ⟨characteristics, h0⟩
  rcases hword 4 (by omega) with ⟨timeDateStamp, h4⟩
  rcases hhalf 8 (by omega) with ⟨majorVersion, h8⟩
  rcases hhalf 10 (by omega) with ⟨minorVersion, h10⟩
  rcases hword 12 (by omega) with ⟨dataType, h12⟩
  rcases hword 16 (by omega) with ⟨dataSize, h16⟩
  rcases hword 20 (by omega) with ⟨virtualAddress, h20⟩
  rcases hword 24 (by omega) with ⟨rawPointer, h24⟩
  simp only [decode?, h0, h4, h8, h10, h12, h16, h20, h24, Option.bind_eq_bind, Option.bind_some,
    Option.pure_def, ne_eq, reduceCtorEq, not_false_eq_true]

theorem numbers_of_decode? {buffer : Buffer} {entry : DebugEntry}
    (h : decode? buffer = some entry) :
    entry.dataType.toNat = buffer.entryTypeAt 0 0 ∧
      entry.dataSize.toNat = buffer.entrySizeAt 0 0 ∧
      entry.rawPointer.toNat = buffer.entryPointerAt 0 0 := by
  simp only [decode?, Option.bind_eq_bind, Option.pure_def, Option.bind_eq_some_iff,
    Option.some.injEq, Buffer.word32?_eq_some_iff] at h
  rcases h with ⟨characteristics, -, timeDateStamp, -, majorVersion, -, minorVersion, -, dataType,
    ⟨-, htype⟩, dataSize, ⟨-, hsize⟩, virtualAddress, -, rawPointer, ⟨-, hpointer⟩, rfl⟩
  exact ⟨htype, hsize, hpointer⟩

theorem isCodeView_iff {entry : DebugEntry} :
    entry.isCodeView = true ↔ entry.dataType.toNat = 2 := by
  rw [isCodeView, beq_iff_eq, ← UInt32.toNat_inj]
  rfl

end DebugEntry

namespace DebugDirectory

theorem getElem?_toList (directory : DebugDirectory) (i : Nat) :
    directory.toList[i]? = directory.get? i :=
  getElem?_filterMap_chunks (by decide) (fun _ hle => DebugEntry.decode?_ne_none hle)
    directory.bytes i

variable {buffer : Buffer} {fileOffset size : UInt32} {directory : DebugDirectory}

theorem ofBuffer?_eq_none_iff :
    ofBuffer? buffer fileOffset size = none ↔
      buffer.size < fileOffset.toNat + size.toNat := by
  rw [ofBuffer?, Option.map_eq_none_iff, Buffer.slice?_eq_none_iff]

theorem ofBuffer?_eq_some_iff :
    ofBuffer? buffer fileOffset size = some directory ↔
      buffer.slice? fileOffset.toNat size.toNat = some directory.bytes ∧
        directory.fileOffset = fileOffset := by
  rw [ofBuffer?, Option.map_eq_some_iff]
  constructor
  · intro h
    rcases h with ⟨bytes, hslice, rfl⟩
    exact ⟨hslice, rfl⟩
  · intro h
    rcases h with ⟨hslice, rfl⟩
    exact ⟨_, hslice, rfl⟩

theorem length_toList (h : ofBuffer? buffer fileOffset size = some directory) :
    directory.toList.length = size.toNat / 28 := by
  rw [toList, length_filterMap_chunks (by decide) (fun _ hle => DebugEntry.decode?_ne_none hle),
    Buffer.size_slice (ofBuffer?_eq_some_iff.mp h).1, DebugEntry.size]

/-- A decoded entry holds the numbers that stand in the buffer. -/
theorem numbers_getElem (h : ofBuffer? buffer fileOffset size = some directory) {i : Nat}
    (hi : i < directory.toList.length) :
    directory.toList[i].dataType.toNat = buffer.entryTypeAt fileOffset.toNat i ∧
      directory.toList[i].dataSize.toNat = buffer.entrySizeAt fileOffset.toNat i ∧
      directory.toList[i].rawPointer.toNat = buffer.entryPointerAt fileOffset.toNat i := by
  have hslice := (ofBuffer?_eq_some_iff.mp h).1
  -- Bytes behind the last whole entry belong to no entry, so this one is within the slice.
  have hwhole : 28 * i + 28 ≤ size.toNat := by
    have hcount := hi
    rw [length_toList h] at hcount
    omega
  have hget : directory.get? i = some directory.toList[i] := by
    rw [← getElem?_toList, List.getElem?_eq_getElem hi]
  rw [get?, DebugEntry.size, Buffer.slice?_slice hslice (by omega),
    Option.bind_eq_some_iff] at hget
  rcases hget with ⟨block, hblock, hdecode⟩
  rcases DebugEntry.numbers_of_decode? hdecode with ⟨htype, hsize, hpointer⟩
  rw [htype, hsize, hpointer]
  simp only [Buffer.entryTypeAt, Buffer.entrySizeAt, Buffer.entryPointerAt, Nat.mul_zero,
    Nat.zero_add]
  rw [Buffer.numberAt_slice hblock (by omega), Buffer.numberAt_slice hblock (by omega),
    Buffer.numberAt_slice hblock (by omega), Nat.mul_comm i 28]
  exact ⟨rfl, rfl, rfl⟩

theorem isCodeView_getElem (h : ofBuffer? buffer fileOffset size = some directory)
    (i : Nat) (hi : i < directory.toList.length) :
    directory.toList[i].isCodeView = true ↔ buffer.entryTypeAt fileOffset.toNat i = 2 := by
  rw [DebugEntry.isCodeView_iff, (numbers_getElem h hi).1]

/-- Searching the directory is searching the types in the buffer. -/
theorem codeView?_eq_some_iff (h : ofBuffer? buffer fileOffset size = some directory)
    {i : Nat} {entry : DebugEntry} :
    directory.codeView? = some (i, entry) ↔
      directory.toList[i]? = some entry ∧ buffer.entryTypeAt fileOffset.toNat i = 2 ∧
        ∀ j < i, buffer.entryTypeAt fileOffset.toNat j ≠ 2 := by
  rw [codeView?, firstMatch_eq_some_iff_index (isCodeView_getElem h)]

theorem codeView?_eq_none_iff (h : ofBuffer? buffer fileOffset size = some directory) :
    directory.codeView? = none ↔
      ∀ i < size.toNat / 28, buffer.entryTypeAt fileOffset.toNat i ≠ 2 := by
  rw [codeView?, firstMatch_eq_none_iff_index (isCodeView_getElem h), length_toList h]

end DebugDirectory

end SymbolLocator
