import Mathlib.Algebra.BigOperators.Ring.Finset
import SymbolLocator.Proofs.TableViews
import SymbolLocator.Proofs.Words

/-!
# Bounded Reads

What the bounded reads and the checks of bounds mean over the natural numbers.

Every bound in the library comes down to a few helpers: slices, bytes and words
at an offset, the end of a run of bytes, and alignment. They are written for a
machine, with sums that may not fit and a mask of bits. Here each is said to be
what it is named for. A read gives a value iff its bytes fit, and then the value
of those bytes. The end of a run is the sum of the natural numbers. Alignment is
divisibility.

Reads also compose. A slice is read like a buffer of its own, and whoever reads
in it need not know where it was cut. All kinds of reads have that in common, and
it follows from the bounds and the bytes alone (`BoundedRead.of_iffs`). A read
that would leave the slice finds nothing, even where the buffer goes on.

On the machine, an offset is a 64-bit number. There the end of a slice may be
none, and then there is no slice. In a buffer whose size is a 64-bit number this
makes no difference, since an end that does not fit is past the end of the buffer.

## Main definitions

* `Buffer.sliceAt?`, `Buffer.word16At?`, `Buffer.word32At?`: Reads at an offset of
  a 64-bit machine.
* `sumOfBytes`: The bytes of a number, each times its place.
* `BoundedRead`: A kind of read fits, means its bytes, and composes.

## Theorems

* `Buffer.sliceAt?_eq`: The machine finds the slices that there are.
* `ofLittleEndian_eq_sumOfBytes`: A number as the sum of its bytes.
* `BoundedRead.of_iffs`: Reads compose when they depend on their bytes only.
* `Word.exists_slice_of_checkedEnd`: What a checked end is good for.
* `bounded_reads_are_exact`: All of the helpers.
-/

namespace SymbolLocator

/-! ### Offsets of a 64-bit machine -/

namespace Buffer

/-- The slice at a 64-bit offset, on a machine that finds nothing where the end
    is no 64-bit number. -/
def sliceAt? (buffer : Buffer) (offset length : UInt64) : Option Buffer := do
  let stop ← size64? (offset.toNat + length.toNat)
  if stop ≤ buffer.size then some (buffer.extract offset.toNat stop) else none

/-- The 16-bit word at a 64-bit offset. -/
def word16At? (buffer : Buffer) (offset : UInt64) : Option UInt16 :=
  (buffer.sliceAt? offset 2).map fun field => UInt16.ofNat (ofLittleEndian field.bytes)

/-- The 32-bit word at a 64-bit offset. -/
def word32At? (buffer : Buffer) (offset : UInt64) : Option UInt32 :=
  (buffer.sliceAt? offset 4).map fun field => UInt32.ofNat (ofLittleEndian field.bytes)

variable {buffer : Buffer} {offset length : UInt64}

theorem sliceAt?_of_lt (h : offset.toNat + length.toNat < UInt64.size) :
    buffer.sliceAt? offset length = buffer.slice? offset.toNat length.toNat := by
  rw [sliceAt?, size64?, if_pos h]
  rfl

theorem sliceAt?_of_le (h : UInt64.size ≤ offset.toNat + length.toNat) :
    buffer.sliceAt? offset length = none := by
  rw [sliceAt?, size64?, if_neg (Nat.not_lt.mpr h)]
  rfl

/-- In a buffer that a 64-bit size counts, an end that does not fit is past the
    end. -/
theorem sliceAt?_eq (hsize : buffer.size < UInt64.size) (offset length : UInt64) :
    buffer.sliceAt? offset length = buffer.slice? offset.toNat length.toNat := by
  by_cases h : offset.toNat + length.toNat < UInt64.size
  · exact sliceAt?_of_lt h
  · have hpast : buffer.size < offset.toNat + length.toNat := by omega
    rw [sliceAt?_of_le (Nat.le_of_not_lt h), slice?_eq_none_iff.mpr hpast]

theorem word16At?_eq (hsize : buffer.size < UInt64.size) (offset : UInt64) :
    buffer.word16At? offset = buffer.word16? offset.toNat := by
  rw [word16At?, sliceAt?_eq hsize, word16?, number?, Option.map_map]
  rfl

theorem word32At?_eq (hsize : buffer.size < UInt64.size) (offset : UInt64) :
    buffer.word32At? offset = buffer.word32? offset.toNat := by
  rw [word32At?, sliceAt?_eq hsize, word32?, number?, Option.map_map]
  rfl

end Buffer

/-! ### Numbers as sums -/

/-- The sum of the first `width` bytes, each times its place. -/
def sumOfBytes (width : Nat) (bytes : List UInt8) : Nat :=
  ∑ i ∈ Finset.range width, (bytes.getD i 0).toNat * 256 ^ i

theorem ofLittleEndian_eq_sumOfBytes (bytes : List UInt8) :
    ofLittleEndian bytes = sumOfBytes bytes.length bytes := by
  induction bytes with
  | nil => rfl
  | cons byte rest ih =>
      -- Behind the first byte, every place is worth 256 times as much as in the rest.
      have hplace : ∀ i, ((byte :: rest).getD (i + 1) 0).toNat * 256 ^ (i + 1) =
          256 * ((rest.getD i 0).toNat * 256 ^ i) := by
        intro i
        rw [List.getD_cons_succ, Nat.pow_succ, Nat.mul_comm 256, Nat.mul_assoc]
      calc ofLittleEndian (byte :: rest)
        _ = byte.toNat + 256 * sumOfBytes rest.length rest := by rw [ofLittleEndian, ih]
        _ = ∑ i ∈ Finset.range rest.length, ((byte :: rest).getD (i + 1) 0).toNat * 256 ^ (i + 1) +
              byte.toNat := by
          rw [Finset.sum_congr rfl fun i _ => hplace i, ← Finset.mul_sum, Nat.add_comm]
          rfl
        _ = sumOfBytes (rest.length + 1) (byte :: rest) := by
          rw [sumOfBytes, Finset.sum_range_succ', List.getD_cons_zero, Nat.pow_zero, Nat.mul_one]

theorem Buffer.numberAt_eq_sumOfBytes {buffer : Buffer} {width offset : Nat}
    (hfit : offset + width ≤ buffer.size) :
    buffer.numberAt width offset =
      sumOfBytes width ((buffer.bytes.drop offset).take width) := by
  have hlength : ((buffer.bytes.drop offset).take width).length = width := by
    rw [List.length_take, List.length_drop, length_bytes]
    omega
  rw [numberAt, ofLittleEndian_eq_sumOfBytes, hlength]

/-! ### Kinds of reads -/

section Reads

variable {α : Type}

/-- A kind of read of `width` bytes. A read gives a value iff the bytes fit, and
    then one that `means` ties to them. A read in a slice is one of the buffer
    further on, as long as it stays in the slice. A machine that reads at 64-bit
    offsets gives the same. -/
structure BoundedRead (width : Nat) (read : Buffer → Nat → Option α)
    (readAt : Buffer → UInt64 → Option α) (means : List UInt8 → α → Prop) : Prop where
  some_iff : ∀ buffer offset value, read buffer offset = some value ↔
    offset + width ≤ buffer.size ∧ means ((buffer.bytes.drop offset).take width) value
  none_iff : ∀ buffer offset, read buffer offset = none ↔ buffer.size < offset + width
  inSlice : ∀ buffer offset length part, buffer.slice? offset length = some part →
    ∀ i, read part i = if i + width ≤ length then read buffer (offset + i) else none
  onMachine : ∀ buffer, buffer.size < UInt64.size →
    ∀ offset, readAt buffer offset = read buffer offset.toNat

variable {width : Nat} {read : Buffer → Nat → Option α} {readAt : Buffer → UInt64 → Option α}

theorem BoundedRead.of_iffs {means : List UInt8 → α → Prop}
    (hsome : ∀ buffer offset value, read buffer offset = some value ↔
      offset + width ≤ buffer.size ∧ means ((buffer.bytes.drop offset).take width) value)
    (hnone : ∀ buffer offset, read buffer offset = none ↔ buffer.size < offset + width)
    (hmachine : ∀ buffer, buffer.size < UInt64.size →
      ∀ offset, readAt buffer offset = read buffer offset.toNat) :
    BoundedRead width read readAt means where
  some_iff := hsome
  none_iff := hnone
  inSlice := by
    intro buffer offset length part hslice i
    have hfit := (Buffer.slice?_eq_some_iff.mp hslice).1
    have hsize := Buffer.size_slice hslice
    by_cases hinside : i + width ≤ length
    · -- Both reads fit, and they are of the same bytes.
      have hpart : i + width ≤ part.size := hsize ▸ hinside
      have hbuffer : offset + i + width ≤ buffer.size := by omega
      rw [if_pos hinside]
      apply Option.ext
      intro value
      rw [hsome, hsome, Buffer.take_drop_slice hslice hinside, and_iff_right hpart,
        and_iff_right hbuffer]
    · rw [if_neg hinside, hnone, hsize]
      exact Nat.lt_of_not_le hinside
  onMachine := hmachine

/-- A read that gives the number at an offset gives a sum of bytes. -/
theorem BoundedRead.of_numberAt {toNat : α → Nat}
    (hsome : ∀ buffer offset value, read buffer offset = some value ↔
      offset + width ≤ buffer.size ∧ toNat value = buffer.numberAt width offset)
    (hnone : ∀ buffer offset, read buffer offset = none ↔ buffer.size < offset + width)
    (hmachine : ∀ buffer, buffer.size < UInt64.size →
      ∀ offset, readAt buffer offset = read buffer offset.toNat) :
    BoundedRead width read readAt fun bytes value => toNat value = sumOfBytes width bytes := by
  refine .of_iffs (fun buffer offset value => ?_) hnone hmachine
  rw [hsome]
  exact and_congr_right fun hfit => by rw [Buffer.numberAt_eq_sumOfBytes hfit]

end Reads

namespace Buffer

theorem boundedRead_slice? (length : UInt64) :
    BoundedRead length.toNat (fun buffer offset => buffer.slice? offset length.toNat)
      (fun buffer offset => buffer.sliceAt? offset length) (fun bytes part => part.bytes = bytes) :=
  .of_iffs (fun _ _ _ => slice?_eq_some_iff) (fun _ _ => slice?_eq_none_iff)
    fun _ hsize offset => sliceAt?_eq hsize offset length

theorem byte?_eq_none_iff {buffer : Buffer} {offset : Nat} :
    buffer.byte? offset = none ↔ buffer.size < offset + 1 := by
  rw [byte?, dite_eq_right_iff, Nat.lt_succ_iff, ← Nat.not_lt]
  exact ⟨fun h hfit => Option.some_ne_none _ (h hfit), fun h hfit => absurd hfit h⟩

-- A byte is read by its index, so there is no end that could be too large for the machine.
theorem boundedRead_byte? :
    BoundedRead 1 byte? (fun buffer offset => buffer.byte? offset.toNat)
      fun bytes byte => byte.toNat = sumOfBytes 1 bytes :=
  .of_numberAt (fun _ _ _ => byte?_eq_some_iff) (fun _ _ => byte?_eq_none_iff) fun _ _ _ => rfl

theorem boundedRead_word16? :
    BoundedRead 2 word16? word16At? fun bytes word => word.toNat = sumOfBytes 2 bytes :=
  .of_numberAt (fun _ _ _ => word16?_eq_some_iff) (fun _ _ => word16?_eq_none_iff)
    fun _ hsize offset => word16At?_eq hsize offset

theorem boundedRead_word32? :
    BoundedRead 4 word32? word32At? fun bytes word => word.toNat = sumOfBytes 4 bytes :=
  .of_numberAt (fun _ _ _ => word32?_eq_some_iff) (fun _ _ => word32?_eq_none_iff)
    fun _ hsize offset => word32At?_eq hsize offset

end Buffer

/-! ### Ends of runs -/

namespace Word

theorem map_checkedEnd_eq_some_iff {offset size : UInt32} {length last : Nat} :
    (checkedEnd offset size length).map UInt32.toNat = some last ↔
      last = offset.toNat + size.toNat ∧ last < UInt32.size ∧ last ≤ length := by
  simp only [Option.map_eq_some_iff, checkedEnd_eq_some_iff]
  constructor
  · intro h
    rcases h with ⟨word, ⟨hsum, hle⟩, rfl⟩
    exact ⟨hsum, word.toNat_lt, hle⟩
  · intro h
    rcases h with ⟨hsum, hlt, hle⟩
    rcases exists_toNat_eq hlt with ⟨word, rfl⟩
    exact ⟨word, ⟨hsum, hle⟩, rfl⟩

/-- A run whose end was checked against no more than the buffer has is there, and
    the machine finds it. -/
theorem exists_slice_of_checkedEnd {buffer : Buffer} {offset size last : UInt32} {length : Nat}
    (h : checkedEnd offset size length = some last) (hlength : length ≤ buffer.size) :
    ∃ part, buffer.slice? offset.toNat size.toNat = some part ∧
      buffer.sliceAt? offset.toUInt64 size.toUInt64 = some part := by
  rcases checkedEnd_eq_some_iff.mp h with ⟨hsum, hle⟩
  have hlast := last.toNat_lt
  have hword : UInt64.size = 18446744073709551616 := rfl
  rcases buffer.slice?_eq_some (by omega : offset.toNat + size.toNat ≤ buffer.size) with
    ⟨part, hpart⟩
  refine ⟨part, hpart, ?_⟩
  rw [Buffer.sliceAt?_of_lt (by simp only [UInt32.toNat_toUInt64]; omega),
    UInt32.toNat_toUInt64, UInt32.toNat_toUInt64, hpart]

end Word

/-! ### All of them -/

/-- The bounded reads give what they say, at every offset and in every slice. An
    end that is no 64-bit number is none of a slice. A checked end is the sum of
    the natural numbers, and the bytes in front of it are there. Alignment to a
    power of two is divisibility. -/
theorem bounded_reads_are_exact :
    ((∀ length : UInt64,
        BoundedRead length.toNat (fun buffer offset => buffer.slice? offset length.toNat)
          (fun buffer offset => buffer.sliceAt? offset length)
          (fun bytes part => part.bytes = bytes)) ∧
      BoundedRead 1 Buffer.byte? (fun buffer offset => buffer.byte? offset.toNat)
        (fun bytes byte => byte.toNat = sumOfBytes 1 bytes) ∧
      BoundedRead 2 Buffer.word16? Buffer.word16At?
        (fun bytes word => word.toNat = sumOfBytes 2 bytes) ∧
      BoundedRead 4 Buffer.word32? Buffer.word32At?
        (fun bytes word => word.toNat = sumOfBytes 4 bytes) ∧
      ∀ (buffer : Buffer) (offset length : UInt64),
        UInt64.size ≤ offset.toNat + length.toNat → buffer.sliceAt? offset length = none) ∧
    ((∀ (offset size : UInt32) (length last : Nat),
        (Word.checkedEnd offset size length).map UInt32.toNat = some last ↔
          last = offset.toNat + size.toNat ∧ last < UInt32.size ∧ last ≤ length) ∧
      ∀ (buffer : Buffer) (offset size last : UInt32) (length : Nat),
        Word.checkedEnd offset size length = some last → length ≤ buffer.size →
        ∃ part, buffer.slice? offset.toNat size.toNat = some part ∧
          buffer.sliceAt? offset.toUInt64 size.toUInt64 = some part) ∧
    ∀ value alignment : UInt32, alignment.toNat.isPowerOfTwo →
      (Word.isAligned value alignment = true ↔ alignment.toNat ∣ value.toNat) := by
  refine ⟨⟨Buffer.boundedRead_slice?, Buffer.boundedRead_byte?, Buffer.boundedRead_word16?,
    Buffer.boundedRead_word32?, fun _ _ _ => Buffer.sliceAt?_of_le⟩,
    ⟨fun _ _ _ _ => Word.map_checkedEnd_eq_some_iff,
      fun _ _ _ _ _ => Word.exists_slice_of_checkedEnd⟩, fun value alignment h => ?_⟩
  rcases h with ⟨exponent, hexponent⟩
  exact Word.isAligned_iff hexponent

/-- Two words that differ, and two that are zero. -/
def eightBytes : Buffer := ⟨#[0x34, 0x12, 0x78, 0x56, 0, 0, 0, 0]⟩

-- The word that is not found in the slice is there in the buffer.
theorem eightBytes_reads_are_exact :
    (eightBytes.sliceAt? 8 0 ≠ none ∧ eightBytes.sliceAt? 9 0 = none ∧
      eightBytes.sliceAt? 0xFFFFFFFFFFFFFFFF 2 = none) ∧
    eightBytes.word32At? 0 = some 0x56781234 ∧
    (∃ part, eightBytes.slice? 2 4 = some part ∧
      part.word16? 0 = some 0x5678 ∧ part.word16? 3 = none) ∧
    (∃ part, eightBytes.slice? 6 2 = some part ∧
      eightBytes.sliceAt? (6 : UInt32).toUInt64 (2 : UInt32).toUInt64 = some part) ∧
    Word.isAligned 0x1002 2 = true := by
  rcases bounded_reads_are_exact with
    ⟨⟨hslice, -, hhalf, hword, hoverflow⟩, ⟨-, hthere⟩, haligned⟩
  have hsize : eightBytes.size < UInt64.size := by decide
  refine ⟨⟨?_, ?_, hoverflow eightBytes _ 2 (by decide)⟩, ?_, ?_, ?_, ?_⟩
  · rw [(hslice 0).onMachine eightBytes hsize, ne_eq, (hslice 0).none_iff]
    decide
  · rw [(hslice 0).onMachine eightBytes hsize, (hslice 0).none_iff]
    decide
  · rw [hword.onMachine eightBytes hsize, hword.some_iff]
    decide +kernel
  · rcases eightBytes.slice?_eq_some (by decide : 2 + 4 ≤ eightBytes.size) with ⟨part, hpart⟩
    refine ⟨part, hpart, ?_, ?_⟩
    · rw [hhalf.inSlice eightBytes 2 4 part hpart, if_pos (by decide), hhalf.some_iff]
      decide +kernel
    · rw [hhalf.inSlice eightBytes 2 4 part hpart, if_neg (by decide)]
  · have hlast : Word.checkedEnd 6 2 8 = some 8 := by decide
    exact hthere eightBytes 6 2 8 8 hlast (by decide)
  · exact (haligned 0x1002 2 ⟨1, rfl⟩).mpr (by decide)

end SymbolLocator
