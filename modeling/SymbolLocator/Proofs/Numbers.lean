import SymbolLocator.Buffer

/-!
# Numbers in a Buffer

The numbers at fixed places of a buffer, as statements about a file see them.

A bounded read gives an option of a machine word. A statement about the bytes
of a file wants neither: it names a place, and the natural number that stands
there. `numberAt` is that number. It is total, and bytes behind the end of the
buffer count as absent, so whoever uses it says apart whether the place lies in
the buffer. Each bounded read is then tied to it by one equivalence, and no
proof above this module looks at bytes again.

A read inside a slice is a read of the whole buffer further on. That is what
makes a record that was decoded from a slice a statement about the file.

## Main definitions

* `Buffer.numberAt`: The little-endian number at an offset.
* `Buffer.hasBytesAt`: Whether given bytes stand at an offset.

## Theorems

* `Buffer.word16?_eq_some_iff`, `Buffer.word32?_eq_some_iff`,
  `Buffer.byte?_eq_some_iff`: A read gives the number at its offset iff the
  bytes are there.
* `Buffer.numberAt_slice`: A number in a slice is a number of the buffer.
* `Buffer.numberAt_eq_iff_hasBytesAt`: A number stands where its bytes do.
-/

namespace SymbolLocator

namespace Buffer

/-- The little-endian number in the `width` bytes from `offset` on, as far as
    the buffer holds them. -/
def numberAt (buffer : Buffer) (width offset : Nat) : Nat :=
  ofLittleEndian ((buffer.bytes.drop offset).take width)

/-- Whether `content` stands in the buffer from `offset` on. -/
def hasBytesAt (buffer : Buffer) (offset : Nat) (content : List UInt8) : Prop :=
  (buffer.bytes.drop offset).take content.length = content

instance (buffer : Buffer) (offset : Nat) (content : List UInt8) :
    Decidable (buffer.hasBytesAt offset content) :=
  inferInstanceAs (Decidable (_ = _))

theorem numberAt_lt (buffer : Buffer) (width offset : Nat) :
    buffer.numberAt width offset < Nat.pow 256 width := by
  have hlength : ((buffer.bytes.drop offset).take width).length ≤ width := by
    rw [List.length_take]
    exact Nat.min_le_left _ _
  exact Nat.lt_of_lt_of_le (ofLittleEndian_lt _) (Nat.pow_le_pow_right (by omega) hlength)

theorem halfAt_lt (buffer : Buffer) (offset : Nat) : buffer.numberAt 2 offset < 65536 :=
  buffer.numberAt_lt 2 offset

theorem wordAt_lt (buffer : Buffer) (offset : Nat) : buffer.numberAt 4 offset < UInt32.size :=
  buffer.numberAt_lt 4 offset

/-! ### Reads -/

theorem number?_eq_some_iff {buffer : Buffer} {width offset number : Nat} :
    buffer.number? width offset = some number ↔
      offset + width ≤ buffer.size ∧ number = buffer.numberAt width offset := by
  simp only [number?, Option.map_eq_some_iff, slice?_eq_some_iff]
  constructor
  · intro h
    rcases h with ⟨field, ⟨hfit, hbytes⟩, hnumber⟩
    exact ⟨hfit, by rw [← hnumber, hbytes, numberAt]⟩
  · intro h
    rcases h with ⟨hfit, hnumber⟩
    rcases hslice : buffer.slice? offset width with _ | field
    · rw [slice?_eq_none_iff] at hslice
      omega
    · have hbytes := (slice?_eq_some_iff.mp hslice).2
      exact ⟨field, ⟨hfit, hbytes⟩, by rw [hnumber, hbytes, numberAt]⟩

theorem number?_eq_none_iff {buffer : Buffer} {width offset : Nat} :
    buffer.number? width offset = none ↔ buffer.size < offset + width := by
  rw [number?, Option.map_eq_none_iff, slice?_eq_none_iff]

theorem word32?_eq_some_iff {buffer : Buffer} {offset : Nat} {word : UInt32} :
    buffer.word32? offset = some word ↔
      offset + 4 ≤ buffer.size ∧ word.toNat = buffer.numberAt 4 offset := by
  have hlt := buffer.wordAt_lt offset
  simp only [word32?, Option.map_eq_some_iff, number?_eq_some_iff]
  constructor
  · intro h
    rcases h with ⟨number, ⟨hfit, hnumber⟩, hword⟩
    rw [← hword, hnumber]
    exact ⟨hfit, UInt32.toNat_ofNat_of_lt hlt⟩
  · intro h
    rcases h with ⟨hfit, hword⟩
    exact ⟨_, ⟨hfit, rfl⟩, by rw [← hword, UInt32.ofNat_toNat]⟩

theorem word32?_eq_none_iff {buffer : Buffer} {offset : Nat} :
    buffer.word32? offset = none ↔ buffer.size < offset + 4 := by
  rw [word32?, Option.map_eq_none_iff, number?_eq_none_iff]

theorem word16?_eq_some_iff {buffer : Buffer} {offset : Nat} {word : UInt16} :
    buffer.word16? offset = some word ↔
      offset + 2 ≤ buffer.size ∧ word.toNat = buffer.numberAt 2 offset := by
  have hlt := buffer.halfAt_lt offset
  simp only [word16?, Option.map_eq_some_iff, number?_eq_some_iff]
  constructor
  · intro h
    rcases h with ⟨number, ⟨hfit, hnumber⟩, hword⟩
    rw [← hword, hnumber]
    exact ⟨hfit, UInt16.toNat_ofNat_of_lt hlt⟩
  · intro h
    rcases h with ⟨hfit, hword⟩
    exact ⟨_, ⟨hfit, rfl⟩, by rw [← hword, UInt16.ofNat_toNat]⟩

theorem word16?_eq_none_iff {buffer : Buffer} {offset : Nat} :
    buffer.word16? offset = none ↔ buffer.size < offset + 2 := by
  rw [word16?, Option.map_eq_none_iff, number?_eq_none_iff]

theorem byte?_eq_some_iff {buffer : Buffer} {offset : Nat} {byte : UInt8} :
    buffer.byte? offset = some byte ↔
      offset + 1 ≤ buffer.size ∧ byte.toNat = buffer.numberAt 1 offset := by
  by_cases hfit : offset < buffer.size
  · -- A number of one byte is that byte.
    have hlist : (buffer.bytes.drop offset).take 1 = [buffer.get offset hfit] := by
      rw [List.drop_eq_getElem_cons (by rw [length_bytes]; exact hfit)]
      rfl
    have hnumber : buffer.numberAt 1 offset = (buffer.get offset hfit).toNat := by
      rw [numberAt, hlist, ofLittleEndian, ofLittleEndian, Nat.mul_zero, Nat.add_zero]
    rw [byte?, dif_pos hfit, Option.some.injEq, hnumber, UInt8.toNat_inj, eq_comm]
    exact ⟨fun h => ⟨hfit, h⟩, fun h => h.2⟩
  · rw [byte?, dif_neg hfit]
    simp only [reduceCtorEq, false_iff]
    omega

/-! A read that is demanded is there iff its bytes are. -/

theorem slice?_ne_none_iff {buffer : Buffer} {offset length : Nat} :
    buffer.slice? offset length ≠ none ↔ offset + length ≤ buffer.size := by
  rw [ne_eq, slice?_eq_none_iff, Nat.not_lt]

theorem word32?_ne_none_iff {buffer : Buffer} {offset : Nat} :
    buffer.word32? offset ≠ none ↔ offset + 4 ≤ buffer.size := by
  rw [ne_eq, word32?_eq_none_iff, Nat.not_lt]

theorem word16?_ne_none_iff {buffer : Buffer} {offset : Nat} :
    buffer.word16? offset ≠ none ↔ offset + 2 ≤ buffer.size := by
  rw [ne_eq, word16?_eq_none_iff, Nat.not_lt]

theorem exists_word32? {buffer : Buffer} {offset : Nat} (h : offset + 4 ≤ buffer.size) :
    ∃ word, buffer.word32? offset = some word :=
  Option.ne_none_iff_exists'.mp (word32?_ne_none_iff.mpr h)

theorem exists_word16? {buffer : Buffer} {offset : Nat} (h : offset + 2 ≤ buffer.size) :
    ∃ word, buffer.word16? offset = some word :=
  Option.ne_none_iff_exists'.mp (word16?_ne_none_iff.mpr h)

/-! ### Slices -/

theorem slice?_eq_some (buffer : Buffer) {offset length : Nat}
    (h : offset + length ≤ buffer.size) : ∃ part, buffer.slice? offset length = some part :=
  Option.ne_none_iff_exists'.mp (slice?_ne_none_iff.mpr h)

theorem take_drop_slice {buffer part : Buffer} {offset length : Nat}
    (h : buffer.slice? offset length = some part) {i width : Nat} (hle : i + width ≤ length) :
    (part.bytes.drop i).take width = (buffer.bytes.drop (offset + i)).take width := by
  rw [(slice?_eq_some_iff.mp h).2, List.drop_take, List.take_take, List.drop_drop,
    Nat.min_eq_left (by omega)]

theorem numberAt_slice {buffer part : Buffer} {offset length : Nat}
    (h : buffer.slice? offset length = some part) {i width : Nat} (hle : i + width ≤ length) :
    part.numberAt width i = buffer.numberAt width (offset + i) := by
  rw [numberAt, numberAt, take_drop_slice h hle]

theorem slice?_slice {buffer part : Buffer} {offset length : Nat}
    (h : buffer.slice? offset length = some part) {i width : Nat} (hle : i + width ≤ length) :
    part.slice? i width = buffer.slice? (offset + i) width := by
  have hfit := (slice?_eq_some_iff.mp h).1
  have hsize := size_slice h
  rcases slice?_eq_some part (by omega : i + width ≤ part.size) with ⟨inner, hinner⟩
  -- The inner slice exists, and the bytes of both sides are the same run of the buffer.
  rw [hinner, eq_comm, slice?_eq_some_iff, ← take_drop_slice h hle]
  exact ⟨by omega, (slice?_eq_some_iff.mp hinner).2⟩

theorem word32?_slice {buffer part : Buffer} {offset length : Nat}
    (h : buffer.slice? offset length = some part) {i : Nat} (hle : i + 4 ≤ length) :
    part.word32? i = buffer.word32? (offset + i) := by
  rw [word32?, number?, slice?_slice h hle, word32?, number?]

/-! ### Given bytes -/

/-- Bytes can only stand where the buffer is long enough for them. -/
theorem le_size_of_hasBytesAt {buffer : Buffer} {offset : Nat} {content : List UInt8}
    (h : buffer.hasBytesAt offset content) (hpos : content ≠ []) :
    offset + content.length ≤ buffer.size := by
  have hlength := congrArg List.length h
  have hcontent := List.length_pos_iff.mpr hpos
  rw [List.length_take, List.length_drop, length_bytes] at hlength
  omega

/-- The digits of a number determine it, and the number its digits. -/
theorem numberAt_eq_iff_hasBytesAt {buffer : Buffer} {offset : Nat} {content : List UInt8}
    (hfit : offset + content.length ≤ buffer.size) :
    buffer.numberAt content.length offset = ofLittleEndian content ↔
      buffer.hasBytesAt offset content := by
  have hlength : ((buffer.bytes.drop offset).take content.length).length = content.length := by
    rw [List.length_take, List.length_drop, length_bytes]
    omega
  rw [numberAt, hasBytesAt]
  constructor
  · intro h
    have hbytes := toLittleEndian_ofLittleEndian ((buffer.bytes.drop offset).take content.length)
    -- As many digits as the content has give back the content.
    rw [h, hlength, toLittleEndian_ofLittleEndian] at hbytes
    exact hbytes.symm
  · intro h
    rw [h]

end Buffer

end SymbolLocator
