import SymbolLocator.Proofs.TableViews

/-!
# Coding of Records

Decoding a record loses nothing, and neither does encoding it.

A record is decoded by reading fields of different widths at fixed offsets. An
offset that is off, or two that are swapped, would go unnoticed wherever the
fields happen to be equal. So the decoder is compared with an encoder that knows
no offsets: it writes the fields one after the other, and where a field comes to
stand follows from the widths of those in front of it.

Both are compared with the same third thing, a record that stands at an offset of
a buffer (`Section.StandsAt`, `DebugEntry.StandsAt`), field by field. A record is
decoded from a buffer iff it stands at its start, and the bytes of its encoding
are in a buffer iff it stands there. What is left is to put the two together.

A section header has a hole: 12 bytes that no field is read from. Encoding asks
for them, and decoding does not give them back. So a decoded header is encoded to
the same bytes in front of the hole and behind it, whatever is put into it.

## Main definitions

* `Section.front`: The bytes of a header in front of the hole.
* `countingBytes`: A file in which every byte is its own offset.

## Theorems

* `Buffer.hasBytesAt_append_iff`: Bytes one after the other.
* `Buffer.hasBytesAt_word32_iff`, `Buffer.hasBytesAt_word16_iff`: The bytes of a
  word stand where the word does.
* `Section.decode?_eq_some_iff`, `DebugEntry.decode?_eq_some_iff`: A record is
  decoded iff it stands at the start.
* `Section.hasBytesAt_encode_iff`, `DebugEntry.hasBytesAt_encode_iff`: An
  encoding is in a buffer iff the record stands there.
* `records_survive_coding`: Decoding and encoding undo each other.
-/

namespace SymbolLocator

/-! ### Bytes of fields -/

namespace Buffer

variable {buffer : Buffer} {offset : Nat}

@[simp] theorem bytes_toByteArray (bytes : List UInt8) : Buffer.bytes bytes.toByteArray = bytes := by
  rw [Buffer.bytes, List.data_toByteArray]

theorem hasBytesAt_append_iff {left right : List UInt8} :
    buffer.hasBytesAt offset (left ++ right) ↔
      buffer.hasBytesAt offset left ∧ buffer.hasBytesAt (offset + left.length) right := by
  rw [hasBytesAt, hasBytesAt, hasBytesAt, List.length_append, ← List.drop_drop]
  constructor
  · intro h
    -- Cutting both sides behind the left part gives the parts.
    have hleft := congrArg (List.take left.length) h
    have hright := congrArg (List.drop left.length) h
    rw [List.take_take, Nat.min_eq_left (Nat.le_add_right _ _), List.take_left] at hleft
    rw [List.drop_take, Nat.add_sub_cancel_left, List.drop_left] at hright
    exact ⟨hleft, hright⟩
  · intro h
    rw [List.take_add, h.1, h.2]

/-- The bytes that are in front of a buffer stand there. -/
theorem hasBytesAt_zero_of_append (content rest : List UInt8) :
    Buffer.hasBytesAt (content ++ rest).toByteArray 0 content := by
  rw [hasBytesAt, bytes_toByteArray, List.drop_zero, List.take_left]

/-- The digits of a number stand where the number does. -/
theorem hasBytesAt_toLittleEndian_iff {width number : Nat} (hnumber : number < Nat.pow 256 width)
    (hfit : offset + width ≤ buffer.size) :
    buffer.hasBytesAt offset (toLittleEndian width number) ↔
      number = buffer.numberAt width offset := by
  have hlength := length_toLittleEndian width number
  have hdigits : offset + (toLittleEndian width number).length ≤ buffer.size := by omega
  rw [← numberAt_eq_iff_hasBytesAt hdigits, hlength, ofLittleEndian_toLittleEndian,
    Nat.mod_eq_of_lt hnumber, eq_comm]

/-- Bytes that stand in a buffer are all in it, if there are any. -/
theorem fits_of_hasBytesAt {content : List UInt8} {n : Nat} (h : buffer.hasBytesAt offset content)
    (hlength : content.length = n + 1) : offset + (n + 1) ≤ buffer.size := by
  have hle := le_size_of_hasBytesAt h (List.ne_nil_of_length_eq_add_one hlength)
  rw [hlength] at hle
  exact hle

theorem hasBytesAt_word32_iff {word : UInt32} (hfit : offset + 4 ≤ buffer.size) :
    buffer.hasBytesAt offset (toLittleEndian 4 word.toNat) ↔
      word.toNat = buffer.numberAt 4 offset :=
  hasBytesAt_toLittleEndian_iff word.toNat_lt hfit

theorem hasBytesAt_word16_iff {word : UInt16} (hfit : offset + 2 ≤ buffer.size) :
    buffer.hasBytesAt offset (toLittleEndian 2 word.toNat) ↔
      word.toNat = buffer.numberAt 2 offset :=
  hasBytesAt_toLittleEndian_iff word.toNat_lt hfit

theorem vector?_eq_some_iff {n : Nat} {part : Vector UInt8 n} :
    buffer.vector? n offset = some part ↔
      offset + n ≤ buffer.size ∧ buffer.hasBytesAt offset part.toList := by
  by_cases hfit : offset + n ≤ buffer.size
  · have hsome : ∃ other, buffer.vector? n offset = some other := ⟨_, dif_pos hfit⟩
    rcases hsome with ⟨other, hother⟩
    -- The bytes that stand there are those of one vector only.
    rw [hasBytesAt, Vector.length_toList, ← toList_of_vector? hother, Vector.toList_inj, hother,
      Option.some.injEq]
    exact ⟨fun h => ⟨hfit, h⟩, fun h => h.2⟩
  · rw [vector?, dif_neg hfit]
    simp [hfit]

/-- What needs `width` bytes and no more is not decoded iff they are not there. -/
theorem decode_eq_none_iff {α : Type} {decode : Buffer → Option α} {width : Nat}
    (htotal : width ≤ buffer.size → decode buffer ≠ none)
    (hfits : ∀ record, decode buffer = some record → width ≤ buffer.size) :
    decode buffer = none ↔ buffer.size < width := by
  constructor
  · intro h
    exact Nat.lt_of_not_le fun hsize => htotal hsize h
  · intro h
    rcases hdecode : decode buffer with _ | record
    · rfl
    · exact absurd (hfits record hdecode) (Nat.not_le_of_lt h)

end Buffer

/-! ### Section headers -/

namespace Section

variable {buffer : Buffer} {offset : Nat} {header : Section}

theorem decode?_eq_some_iff : decode? buffer = some header ↔ header.StandsAt buffer 0 := by
  simp only [decode?, Option.bind_eq_bind, Option.pure_def, Option.bind_eq_some_iff,
    Option.some.injEq, Buffer.word32?_eq_some_iff, Buffer.vector?_eq_some_iff]
  constructor
  · intro h
    rcases h with ⟨name, ⟨-, hname⟩, virtualSize, ⟨-, hsize⟩, virtualAddress, ⟨-, haddress⟩,
      rawSize, ⟨-, hraw⟩, rawPointer, ⟨-, hpointer⟩, characteristics, ⟨hfit, hlast⟩, rfl⟩
    exact ⟨hfit, hname, hsize, haddress, hraw, hpointer, hlast⟩
  · intro h
    have hfit := h.inBuffer
    exact ⟨_, ⟨by omega, h.name⟩, _, ⟨by omega, h.virtualSize⟩, _, ⟨by omega, h.virtualAddress⟩, _,
      ⟨by omega, h.rawSize⟩, _, ⟨by omega, h.rawPointer⟩, _, ⟨by omega, h.characteristics⟩, rfl⟩

theorem decode?_eq_none_iff : decode? buffer = none ↔ buffer.size < 40 := by
  refine Buffer.decode_eq_none_iff decode?_ne_none fun header h => ?_
  have hfit := (decode?_eq_some_iff.mp h).inBuffer
  omega

/-- The bytes of a header in front of those that no field is read from. -/
def front (header : Section) : List UInt8 :=
  header.name.toList ++
    toLittleEndian 4 header.virtualSize.toNat ++
    toLittleEndian 4 header.virtualAddress.toNat ++
    toLittleEndian 4 header.rawSize.toNat ++
    toLittleEndian 4 header.rawPointer.toNat

theorem length_front (header : Section) : header.front.length = 24 := by
  simp [front]

theorem encode_eq (header : Section) (skipped : Vector UInt8 12) :
    header.encode skipped =
      header.front ++ skipped.toList ++ toLittleEndian 4 header.characteristics.toNat :=
  rfl

theorem length_encode (header : Section) (skipped : Vector UInt8 12) :
    (header.encode skipped).length = 40 := by
  simp [encode_eq, length_front]

/-- The encoding of a header is in a buffer iff the header stands there, and the
    skipped bytes 24 bytes behind its start. -/
theorem hasBytesAt_encode_iff {skipped : Vector UInt8 12} :
    buffer.hasBytesAt offset (header.encode skipped) ↔
      header.StandsAt buffer offset ∧ buffer.hasBytesAt (offset + 24) skipped.toList := by
  by_cases hfit : offset + 40 ≤ buffer.size
  · simp only [encode, Buffer.hasBytesAt_append_iff, List.length_append, length_toLittleEndian,
      Vector.length_toList]
    rw [Buffer.hasBytesAt_word32_iff (by omega), Buffer.hasBytesAt_word32_iff (by omega),
      Buffer.hasBytesAt_word32_iff (by omega), Buffer.hasBytesAt_word32_iff (by omega),
      Buffer.hasBytesAt_word32_iff (by omega)]
    constructor
    · intro h
      rcases h with ⟨⟨⟨⟨⟨⟨hname, hsize⟩, haddress⟩, hraw⟩, hpointer⟩, hskipped⟩, hlast⟩
      exact ⟨⟨hfit, hname, hsize, haddress, hraw, hpointer, hlast⟩, hskipped⟩
    · intro h
      rcases h with ⟨h, hskipped⟩
      exact ⟨⟨⟨⟨⟨⟨h.name, h.virtualSize⟩, h.virtualAddress⟩, h.rawSize⟩, h.rawPointer⟩, hskipped⟩,
        h.characteristics⟩
  · -- A header that is cut off neither has its bytes nor stands.
    constructor
    · intro h
      exact absurd (Buffer.fits_of_hasBytesAt h (length_encode header skipped)) hfit
    · intro h
      exact absurd h.1.inBuffer hfit

/-- A decoded header is encoded to the bytes it was decoded from, but for those
    that are skipped. -/
theorem encode_of_decode? (h : decode? buffer = some header) (skipped : Vector UInt8 12) :
    (header.encode skipped).take 24 = buffer.bytes.take 24 ∧
      (header.encode skipped).drop 36 = (buffer.bytes.drop 36).take 4 := by
  have hstands := decode?_eq_some_iff.mp h
  have hfit := hstands.inBuffer
  -- With the bytes that were skipped, all of the encoding is in the buffer.
  have hhole : ∃ hole, buffer.vector? 12 24 = some hole := ⟨_, dif_pos (by omega)⟩
  rcases hhole with ⟨hole, hhole⟩
  have hall : buffer.hasBytesAt 0 (header.encode hole) :=
    hasBytesAt_encode_iff.mpr ⟨hstands, (Buffer.vector?_eq_some_iff.mp hhole).2⟩
  rw [encode_eq, Buffer.hasBytesAt_append_iff, Buffer.hasBytesAt_append_iff] at hall
  rcases hall with ⟨⟨hfront, -⟩, hlast⟩
  have hlength : (header.front ++ skipped.toList).length = 36 := by
    rw [List.length_append, length_front, Vector.length_toList]
  rw [List.length_append, length_front, Vector.length_toList] at hlast
  rw [Buffer.hasBytesAt, length_front] at hfront
  rw [Buffer.hasBytesAt, length_toLittleEndian] at hlast
  rw [encode_eq, ← hlength, List.drop_left, hlength, List.append_assoc, ← length_front header,
    List.take_left, length_front]
  exact ⟨hfront.symm, hlast.symm⟩

end Section

/-! ### Debug entries -/

namespace DebugEntry

variable {buffer : Buffer} {offset : Nat} {entry : DebugEntry}

theorem decode?_eq_some_iff : decode? buffer = some entry ↔ entry.StandsAt buffer 0 := by
  simp only [decode?, Option.bind_eq_bind, Option.pure_def, Option.bind_eq_some_iff,
    Option.some.injEq, Buffer.word32?_eq_some_iff, Buffer.word16?_eq_some_iff]
  constructor
  · intro h
    rcases h with ⟨characteristics, ⟨-, h0⟩, timeDateStamp, ⟨-, h4⟩, majorVersion, ⟨-, h8⟩,
      minorVersion, ⟨-, h10⟩, dataType, ⟨-, h12⟩, dataSize, ⟨-, h16⟩, virtualAddress, ⟨-, h20⟩,
      rawPointer, ⟨hfit, h24⟩, rfl⟩
    exact ⟨hfit, h0, h4, h8, h10, h12, h16, h20, h24⟩
  · intro h
    have hfit := h.inBuffer
    exact ⟨_, ⟨by omega, h.characteristics⟩, _, ⟨by omega, h.timeDateStamp⟩, _,
      ⟨by omega, h.majorVersion⟩, _, ⟨by omega, h.minorVersion⟩, _, ⟨by omega, h.dataType⟩, _,
      ⟨by omega, h.dataSize⟩, _, ⟨by omega, h.virtualAddress⟩, _, ⟨by omega, h.rawPointer⟩, rfl⟩

theorem decode?_eq_none_iff : decode? buffer = none ↔ buffer.size < 28 := by
  refine Buffer.decode_eq_none_iff decode?_ne_none fun entry h => ?_
  have hfit := (decode?_eq_some_iff.mp h).inBuffer
  omega

theorem length_encode (entry : DebugEntry) : entry.encode.length = 28 := by
  simp [encode]

/-- The encoding of an entry is in a buffer iff the entry stands there. -/
theorem hasBytesAt_encode_iff :
    buffer.hasBytesAt offset entry.encode ↔ entry.StandsAt buffer offset := by
  by_cases hfit : offset + 28 ≤ buffer.size
  · simp only [encode, Buffer.hasBytesAt_append_iff, List.length_append, length_toLittleEndian]
    rw [Buffer.hasBytesAt_word32_iff (by omega), Buffer.hasBytesAt_word32_iff (by omega),
      Buffer.hasBytesAt_word16_iff (by omega), Buffer.hasBytesAt_word16_iff (by omega),
      Buffer.hasBytesAt_word32_iff (by omega), Buffer.hasBytesAt_word32_iff (by omega),
      Buffer.hasBytesAt_word32_iff (by omega), Buffer.hasBytesAt_word32_iff (by omega)]
    constructor
    · intro h
      rcases h with ⟨⟨⟨⟨⟨⟨⟨h0, h4⟩, h8⟩, h10⟩, h12⟩, h16⟩, h20⟩, h24⟩
      exact ⟨hfit, h0, h4, h8, h10, h12, h16, h20, h24⟩
    · intro h
      exact ⟨⟨⟨⟨⟨⟨⟨h.characteristics, h.timeDateStamp⟩, h.majorVersion⟩, h.minorVersion⟩,
        h.dataType⟩, h.dataSize⟩, h.virtualAddress⟩, h.rawPointer⟩
  · constructor
    · intro h
      exact absurd (Buffer.fits_of_hasBytesAt h (length_encode entry)) hfit
    · intro h
      exact absurd h.inBuffer hfit

/-- A decoded entry is encoded to the bytes it was decoded from. -/
theorem encode_of_decode? (h : decode? buffer = some entry) :
    entry.encode = buffer.bytes.take 28 := by
  have hall := hasBytesAt_encode_iff.mpr (decode?_eq_some_iff.mp h)
  rw [Buffer.hasBytesAt, length_encode] at hall
  exact hall.symm

end DebugEntry

/-! ### Both ways -/

/-- Decoding and encoding undo each other, for section headers and for debug
    entries. An encoding has every field at its offset, and it is decoded to what
    was encoded, whatever follows. Nothing is decoded iff the bytes do not
    suffice, and what is decoded is encoded to the bytes it came from. -/
theorem records_survive_coding :
    ((∀ (header : Section) (skipped : Vector UInt8 12) (rest : List UInt8),
        header.StandsAt (header.encode skipped ++ rest).toByteArray 0 ∧
          Buffer.hasBytesAt (header.encode skipped ++ rest).toByteArray 24 skipped.toList ∧
          Section.decode? (header.encode skipped ++ rest).toByteArray = some header) ∧
      (∀ buffer, Section.decode? buffer = none ↔ buffer.size < 40) ∧
      ∀ buffer header, Section.decode? buffer = some header → ∀ skipped,
        (header.encode skipped).take 24 = buffer.bytes.take 24 ∧
          (header.encode skipped).drop 36 = (buffer.bytes.drop 36).take 4) ∧
    (∀ (entry : DebugEntry) (rest : List UInt8),
        entry.StandsAt (entry.encode ++ rest).toByteArray 0 ∧
          DebugEntry.decode? (entry.encode ++ rest).toByteArray = some entry) ∧
      (∀ buffer, DebugEntry.decode? buffer = none ↔ buffer.size < 28) ∧
      ∀ buffer entry, DebugEntry.decode? buffer = some entry →
        entry.encode = buffer.bytes.take 28 := by
  refine ⟨⟨fun header skipped rest => ?_, fun _ => Section.decode?_eq_none_iff,
    fun _ _ h => Section.encode_of_decode? h⟩, fun entry rest => ?_,
    fun _ => DebugEntry.decode?_eq_none_iff, fun _ _ h => DebugEntry.encode_of_decode? h⟩
  · have hbytes := Buffer.hasBytesAt_zero_of_append (header.encode skipped) rest
    rcases Section.hasBytesAt_encode_iff.mp hbytes with ⟨hstands, hskipped⟩
    exact ⟨hstands, hskipped, Section.decode?_eq_some_iff.mpr hstands⟩
  · have hbytes := Buffer.hasBytesAt_zero_of_append entry.encode rest
    have hstands := DebugEntry.hasBytesAt_encode_iff.mp hbytes
    exact ⟨hstands, DebugEntry.decode?_eq_some_iff.mpr hstands⟩

/-- Bytes that count up from 0. Each of them is the offset that it is at. -/
def countingBytes : Buffer := ((List.range 41).map UInt8.ofNat).toByteArray

/-- The section header in the counting bytes. -/
def countingHeader : Section where
  name := #v[0, 1, 2, 3, 4, 5, 6, 7]
  virtualSize := 0x0B0A0908
  virtualAddress := 0x0F0E0D0C
  rawSize := 0x13121110
  rawPointer := 0x17161514
  characteristics := 0x27262524

/-- The debug entry in the counting bytes. -/
def countingEntry : DebugEntry where
  characteristics := 0x03020100
  timeDateStamp := 0x07060504
  majorVersion := 0x0908
  minorVersion := 0x0B0A
  dataType := 0x0F0E0D0C
  dataSize := 0x13121110
  virtualAddress := 0x17161514
  rawPointer := 0x1B1A1918

-- No two fields are equal, and the bytes of the hole are not zero.
theorem countingBytes_survive_coding :
    Section.decode? countingBytes = some countingHeader ∧
      (countingHeader.encode (Vector.replicate 12 0)).take 24 = countingBytes.bytes.take 24 ∧
      (countingHeader.encode (Vector.replicate 12 0)).drop 36 =
        (countingBytes.bytes.drop 36).take 4 ∧
    DebugEntry.decode? countingBytes = some countingEntry ∧
      countingEntry.encode = countingBytes.bytes.take 28 := by
  rcases records_survive_coding with ⟨⟨-, -, hheaders⟩, -, -, hentries⟩
  have hheader : Section.decode? countingBytes = some countingHeader := by decide +kernel
  have hentry : DebugEntry.decode? countingBytes = some countingEntry := by decide +kernel
  rcases hheaders countingBytes countingHeader hheader (Vector.replicate 12 0) with ⟨hfront, hlast⟩
  exact ⟨hheader, hfront, hlast, hentry, hentries countingBytes countingEntry hentry⟩

end SymbolLocator
