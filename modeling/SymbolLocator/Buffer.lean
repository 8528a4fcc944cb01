import SymbolLocator.LittleEndian

/-!
# Byte Buffers

The bytes of a file in memory, and the bounded reads every other part of the
library is built on.

A read names an offset and takes a fixed number of bytes from there. It gives
`none` exactly when those bytes are not all present, and it never wraps:
offsets are natural numbers, so an offset near the top of any machine word is
simply past the end. The list `bytes` is the view all reads are specified
through; `slice?_eq_some_iff` is the one lemma the others rest on.

## Main definitions

* `Buffer`: The bytes of a file.
* `Buffer.bytes`: The same bytes as a list.
* `Buffer.slice?`: A bounded run of bytes.
* `Buffer.byte?`, `Buffer.word16?`, `Buffer.word32?`: Bounded little-endian words.
* `Buffer.vector?`: A bounded run of bytes of a fixed length.
* `Buffer.chunks`: The whole blocks of a buffer, in order.
* `Buffer.patch`, `Buffer.resize`: Editing a buffer.

## Theorems

* `Buffer.slice?_eq_some_iff`: A slice exists iff it fits, and then it is that
  part of the bytes.
* `Buffer.size_slice`: A slice has the length asked for.
* `Buffer.bytes_patch`: Patching replaces the bytes it writes over.
* `Buffer.bytes_resize`: Resizing cuts the bytes or pads them with zeros.
-/

namespace SymbolLocator

/-- The bytes of a file in memory. -/
abbrev Buffer := ByteArray

namespace Buffer

/-- The bytes of a buffer as a list, first byte first. -/
def bytes (buffer : Buffer) : List UInt8 := buffer.data.toList

@[simp] theorem length_bytes (buffer : Buffer) : buffer.bytes.length = buffer.size := rfl

/-- Two buffers with the same bytes are the same buffer. -/
theorem bytes_inj {a b : Buffer} : a.bytes = b.bytes ↔ a = b :=
  ⟨fun h => ByteArray.ext (Array.toList_inj.mp h), fun h => h ▸ rfl⟩

/-- The `length` bytes from `offset` on, if the buffer holds them all. An
    empty slice may start at the very end of the buffer, but not past it. -/
def slice? (buffer : Buffer) (offset length : Nat) : Option Buffer :=
  if offset + length ≤ buffer.size then some (buffer.extract offset (offset + length)) else none

/-- The byte at `offset`. -/
def byte? (buffer : Buffer) (offset : Nat) : Option UInt8 :=
  if h : offset < buffer.size then some (buffer.get offset h) else none

/-- The little-endian number in the `width` bytes from `offset` on. -/
def number? (buffer : Buffer) (width offset : Nat) : Option Nat :=
  (buffer.slice? offset width).map fun field => ofLittleEndian field.bytes

/-- The 16-bit word at `offset`. -/
def word16? (buffer : Buffer) (offset : Nat) : Option UInt16 :=
  (buffer.number? 2 offset).map UInt16.ofNat

/-- The 32-bit word at `offset`. -/
def word32? (buffer : Buffer) (offset : Nat) : Option UInt32 :=
  (buffer.number? 4 offset).map UInt32.ofNat

/-- The `n` bytes from `offset` on, as a vector of that length. -/
def vector? (n : Nat) (buffer : Buffer) (offset : Nat) : Option (Vector UInt8 n) :=
  if h : offset + n ≤ buffer.size then
    some (Vector.ofFn fun i => buffer.get (offset + i.val) (by have := i.isLt; omega))
  else none

/-- The whole blocks of `width` bytes in the buffer, in order. Bytes after
    the last whole block are left out. -/
def chunks (width : Nat) (buffer : Buffer) : List Buffer :=
  (List.range (buffer.size / width)).map fun i => buffer.extract (i * width) (i * width + width)

/-- A buffer of `length` zero bytes. -/
def zeros (length : Nat) : Buffer := ⟨Array.replicate length 0⟩

/-- The bytes of `pattern`, `count` times over. -/
def repeated (pattern : Buffer) (count : Nat) : Buffer :=
  Nat.repeat (fun written => written ++ pattern) count ByteArray.empty

/-- Write `content` over the bytes from `offset` on. -/
def patch (buffer : Buffer) (offset : Nat) (content : Buffer) : Buffer :=
  content.copySlice 0 buffer offset content.size

/-- Cut the buffer to `length` bytes, or extend it to them with zeros. -/
def resize (buffer : Buffer) (length : Nat) : Buffer :=
  buffer.extract 0 length ++ zeros (length - buffer.size)

/-! ### Slices -/

theorem slice?_eq_some_iff {buffer part : Buffer} {offset length : Nat} :
    buffer.slice? offset length = some part ↔
      offset + length ≤ buffer.size ∧ part.bytes = (buffer.bytes.drop offset).take length := by
  have hview : bytes (buffer.extract offset (offset + length)) =
      (buffer.bytes.drop offset).take length := by
    simp [bytes, ByteArray.data_extract, Array.toList_extract, List.extract]
  unfold slice?
  split
  case isTrue h =>
    rw [Option.some.injEq, ← bytes_inj, hview]
    exact ⟨fun e => ⟨h, e.symm⟩, fun e => e.2.symm⟩
  case isFalse h => simp [h]

theorem slice?_eq_none_iff {buffer : Buffer} {offset length : Nat} :
    buffer.slice? offset length = none ↔ buffer.size < offset + length := by
  unfold slice?
  split <;> simp <;> omega

theorem size_slice {buffer part : Buffer} {offset length : Nat}
    (h : buffer.slice? offset length = some part) : part.size = length := by
  obtain ⟨hfit, hview⟩ := slice?_eq_some_iff.mp h
  have hlength := congrArg List.length hview
  simp only [length_bytes, List.length_take, List.length_drop] at hlength
  omega

/-! ### Editing -/

theorem bytes_patch (buffer : Buffer) (offset : Nat) (content : Buffer) :
    (buffer.patch offset content).bytes =
      buffer.bytes.take offset ++ (content.bytes ++ buffer.bytes.drop (offset + content.size)) := by
  have hcontent : content.data.toList.take content.size = content.data.toList :=
    List.take_length
  have hrest : (buffer.data.toList.drop (offset + content.size)).take
      (buffer.size - (offset + content.size)) = buffer.data.toList.drop (offset + content.size) :=
    List.take_of_length_le (Nat.le_of_eq List.length_drop)
  simp [patch, bytes, ByteArray.copySlice, Array.toList_extract, List.extract, hcontent, hrest]

theorem size_patch {buffer content : Buffer} {offset : Nat}
    (hfit : offset + content.size ≤ buffer.size) :
    (buffer.patch offset content).size = buffer.size := by
  have h := congrArg List.length (bytes_patch buffer offset content)
  simp only [length_bytes, List.length_append, List.length_take, List.length_drop] at h
  omega

theorem bytes_zeros (length : Nat) : (zeros length).bytes = List.replicate length 0 := by
  simp [zeros, bytes]

theorem bytes_resize (buffer : Buffer) (length : Nat) :
    (buffer.resize length).bytes =
      buffer.bytes.take length ++ List.replicate (length - buffer.size) 0 := by
  simp [resize, bytes, zeros, ByteArray.data_append, ByteArray.data_extract,
    Array.toList_extract, List.extract]

theorem size_resize (buffer : Buffer) (length : Nat) : (buffer.resize length).size = length := by
  have h := congrArg List.length (bytes_resize buffer length)
  simp only [length_bytes, List.length_append, List.length_take, List.length_replicate] at h
  omega

end Buffer

end SymbolLocator
