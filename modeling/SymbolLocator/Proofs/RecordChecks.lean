import SymbolLocator.CodeView.Record
import SymbolLocator.Proofs.LocationChecks

/-!
# Record Checks

What taking a CodeView record apart checks, in order, and what it gives.

A record is described by a size and a file pointer, both of which may be
wrong. Its first four bytes decide how much of it is not path, and until they
are known the record is only known to have room for them. The size is
therefore checked twice, once for the four bytes and once for the header that
they announce, and the two checks report the same defect.

## Main definitions

* `Signature.characters`, `Buffer.signatureAt?`: The signature of a record.
* `recordChecks`: The checks of a record.
* `PathFacts`: What a path says that was found in a record.

## Theorems

* `Signature.ofWord?_ne_none_iff`: Signatures are told apart by their words.
* `PathFacts.unique`: The record determines the path.
* `Image.recordPath_follows`: A record is taken apart as the list says.
-/

namespace SymbolLocator

/-- The four bytes that a record of this layout begins with. -/
def Signature.characters : Signature → List UInt8
  | nb10 => [0x4E, 0x42, 0x31, 0x30]
  | rsds => [0x52, 0x53, 0x44, 0x53]
  | mtoc => [0x4D, 0x54, 0x4F, 0x43]

/-- The signature whose characters stand at `offset`, if it is one. -/
def Buffer.signatureAt? (buffer : Buffer) (offset : Nat) : Option Signature :=
  [Signature.nb10, .rsds, .mtoc].find? fun signature =>
    buffer.hasBytesAt offset signature.characters

/-- The number of bytes in front of the path in the record at `offset`. -/
def Buffer.recordHeaderAt (buffer : Buffer) (offset : Nat) : Nat :=
  match buffer.signatureAt? offset with
  | some signature => signature.headerSize.toNat
  | none => 0

/-- What a path says that was found in the record of `size` bytes at
    `start`. -/
structure PathFacts (buffer : Buffer) (start size : Nat) (path : SymbolPath) : Prop where
  signature : buffer.hasBytesAt start path.signature.characters
  offset : path.offset.toNat = start + path.signature.headerSize.toNat
  bytes : path.bytes.bytes =
    (buffer.bytes.drop (start + path.signature.headerSize.toNat)).take
      (size - path.signature.headerSize.toNat)

/-- The checks of the record that an entry describes with a size and a file
    pointer. -/
def recordChecks (image : Image) (options : Options) (size pointer : Nat) :
    List (Check LookupError) :=
  let start := pointer - image.shift options
  let header := image.buffer.recordHeaderAt start
  [⟨4 ≤ size, .malformed (.recordTooSmall (UInt32.ofNat size))⟩,
    ⟨image.shift options ≤ pointer,
      .malformed (.recordInStrippedHeader (UInt32.ofNat pointer))⟩,
    ⟨start + size ≤ image.buffer.size,
      .malformed (.recordOutsideFile (UInt32.ofNat start) (UInt32.ofNat size))⟩,
    ⟨4 ∣ start, .malformed (.recordMisaligned (UInt32.ofNat start))⟩,
    ⟨∃ signature : Signature, image.buffer.hasBytesAt start signature.characters,
      .malformed (.unknownSignature (UInt32.ofNat (image.buffer.numberAt 4 start)))⟩,
    ⟨header ≤ size, .malformed (.recordTooSmall (UInt32.ofNat size))⟩,
    ⟨header ≠ size, .malformed .emptyPath⟩,
    ⟨image.buffer.numberAt 1 (start + size - 1) = 0, .malformed .unterminatedPath⟩]

/-! ### Signatures -/

namespace Signature

theorem toNat_word (signature : Signature) :
    signature.word.toNat = ofLittleEndian signature.characters := by
  cases signature with
  | nb10 => rfl
  | rsds => rfl
  | mtoc => rfl

theorem length_characters (signature : Signature) : signature.characters.length = 4 := by
  cases signature with
  | nb10 => rfl
  | rsds => rfl
  | mtoc => rfl

-- No two signatures stand at one place: both would be the same four bytes, and the word that
-- these are belongs to one signature only.
theorem eq_of_hasBytesAt {buffer : Buffer} {offset : Nat} {a b : Signature}
    (ha : buffer.hasBytesAt offset a.characters) (hb : buffer.hasBytesAt offset b.characters) :
    a = b := by
  unfold Buffer.hasBytesAt at ha hb
  rw [length_characters] at ha hb
  have hcharacters : a.characters = b.characters := by rw [← ha, ← hb]
  have hword : a.word = b.word := by
    rw [← UInt32.toNat_inj, toNat_word, toNat_word, hcharacters]
  exact Option.some.inj ((ofWord?_eq_some_iff.mpr rfl).symm.trans
    (ofWord?_eq_some_iff.mpr hword.symm))

theorem ofWord?_eq_some_iff_hasBytesAt {buffer : Buffer} {offset : Nat} {word : UInt32}
    (hfit : offset + 4 ≤ buffer.size) (hword : word.toNat = buffer.numberAt 4 offset)
    {signature : Signature} :
    ofWord? word = some signature ↔ buffer.hasBytesAt offset signature.characters := by
  have hlength := length_characters signature
  rw [← Buffer.numberAt_eq_iff_hasBytesAt (by rw [hlength]; exact hfit), hlength, ← hword,
    ← toNat_word, UInt32.toNat_inj, ofWord?_eq_some_iff]
  exact eq_comm

theorem ofWord?_ne_none_iff {buffer : Buffer} {offset : Nat} {word : UInt32}
    (hfit : offset + 4 ≤ buffer.size) (hword : word.toNat = buffer.numberAt 4 offset) :
    ofWord? word ≠ none ↔
      ∃ signature : Signature, buffer.hasBytesAt offset signature.characters := by
  rw [Option.ne_none_iff_exists']
  simp only [ofWord?_eq_some_iff_hasBytesAt hfit hword]

end Signature

namespace Buffer

theorem signatureAt?_eq_some {buffer : Buffer} {offset : Nat} {signature : Signature}
    (h : buffer.hasBytesAt offset signature.characters) :
    buffer.signatureAt? offset = some signature := by
  have hmem : signature ∈ [Signature.nb10, .rsds, .mtoc] := by
    cases signature with
    | nb10 => exact List.mem_cons_self
    | rsds => exact List.mem_cons_of_mem _ List.mem_cons_self
    | mtoc => exact List.mem_cons_of_mem _ (List.mem_cons_of_mem _ List.mem_cons_self)
  -- The search cannot miss the signature, and cannot stop at another one in front of it.
  rcases hfound : buffer.signatureAt? offset with _ | other
  · rw [signatureAt?, List.find?_eq_none] at hfound
    exact absurd (decide_eq_true h) (hfound signature hmem)
  · unfold signatureAt? at hfound
    have hother : buffer.hasBytesAt offset other.characters := by
      have hpassed := List.find?_some hfound
      exact of_decide_eq_true hpassed
    rw [Signature.eq_of_hasBytesAt hother h]

theorem recordHeaderAt_eq {buffer : Buffer} {offset : Nat} {signature : Signature}
    (h : buffer.hasBytesAt offset signature.characters) :
    buffer.recordHeaderAt offset = signature.headerSize.toNat := by
  rw [recordHeaderAt, signatureAt?_eq_some h]

end Buffer

/-- The record determines the path that is found in it. -/
theorem PathFacts.unique {buffer : Buffer} {start size : Nat} {a b : SymbolPath}
    (ha : PathFacts buffer start size a) (hb : PathFacts buffer start size b) : a = b := by
  have hsignature : a.signature = b.signature :=
    Signature.eq_of_hasBytesAt ha.signature hb.signature
  have hbytes : a.bytes = b.bytes := by
    rw [← Buffer.bytes_inj, ha.bytes, hb.bytes, hsignature]
  have hoffset : a.offset = b.offset := by
    rw [← UInt32.toNat_inj, ha.offset, hb.offset, hsignature]
  cases a
  cases b
  rw [SymbolPath.mk.injEq]
  exact ⟨hbytes, hoffset, hsignature⟩

/-! ### Taking records apart -/

namespace Image

variable {image : Image}

/-- A record is in a file that 32-bit offsets reach iff its end is. -/
theorem record_eq_some_iff (hsize : image.buffer.size < UInt32.size) {offset size : UInt32}
    {record : Buffer} :
    ((Word.checkedEnd offset size image.fileSize).bind fun _ =>
      image.buffer.slice? offset.toNat size.toNat) = some record ↔
      image.buffer.slice? offset.toNat size.toNat = some record := by
  rw [Option.bind_eq_some_iff]
  constructor
  · intro h
    rcases h with ⟨last, -, hslice⟩
    exact hslice
  · intro h
    have hfit := (Buffer.slice?_eq_some_iff.mp h).1
    rcases Word.exists_toNat_eq (Nat.lt_of_le_of_lt hfit hsize) with ⟨last, hlast⟩
    exact ⟨last, Word.checkedEnd_eq_some_iff.mpr ⟨hlast, by rw [hlast]; exact hfit⟩, h⟩

theorem record_ne_none_iff (hsize : image.buffer.size < UInt32.size) {offset size : UInt32} :
    ((Word.checkedEnd offset size image.fileSize).bind fun _ =>
      image.buffer.slice? offset.toNat size.toNat) ≠ none ↔
      offset.toNat + size.toNat ≤ image.buffer.size := by
  rw [Option.ne_none_iff_exists']
  simp only [record_eq_some_iff hsize]
  rw [← Option.ne_none_iff_exists', Buffer.slice?_ne_none_iff]

end Image

-- What is left of a record behind a header is a slice of the file.
theorem Buffer.slice?_extract {buffer record : Buffer} {start size header : Nat}
    (h : buffer.slice? start size = some record) (hle : header ≤ size) :
    buffer.slice? (start + header) (size - header) =
      some (record.extract header record.size) := by
  have hsize := size_slice h
  have hwhole : header + (size - header) = record.size := by omega
  rw [← slice?_slice h (by omega : header + (size - header) ≤ size), slice?,
    if_pos (by omega), hwhole]

theorem Buffer.last_eq_zero_iff {buffer part : Buffer} {offset length : Nat}
    (h : buffer.slice? offset length = some part) (hpos : 0 < length) :
    part.byte? (part.size - 1) = some 0 ↔ buffer.numberAt 1 (offset + length - 1) = 0 := by
  have hplace : offset + length - 1 = offset + (length - 1) := by omega
  rw [byte?_eq_some_iff, size_slice h, numberAt_slice h (by omega), hplace, UInt8.toNat_zero]
  omega

/-- A record is taken apart as the list of its checks says, in a file that
    32-bit offsets reach. -/
theorem Image.recordPath_follows {image : Image} (hsize : image.buffer.size < UInt32.size)
    (entry : DebugEntry) (options : Options) :
    Follows (image.recordPath entry options)
      (recordChecks image options entry.dataSize.toNat entry.rawPointer.toNat)
      (PathFacts image.buffer (entry.rawPointer.toNat - image.shift options)
        entry.dataSize.toNat) := by
  have hsub : Word.sub? entry.rawPointer (image.compensation options) ≠ none ↔
      image.shift options ≤ entry.rawPointer.toNat := by
    rw [ne_eq, Word.sub?_eq_none_iff, toNat_compensation, Nat.not_lt]
  rw [recordChecks, UInt32.ofNat_toNat, UInt32.ofNat_toNat]
  refine follows_ensure_bind UInt32.le_iff_toNat_le fun hfour => ?_
  refine follows_require_bind hsub fun offset hoffset _ => ?_
  have hstart : entry.rawPointer.toNat - image.shift options = offset.toNat := by
    rw [Word.sub?_eq_some_iff, toNat_compensation] at hoffset
    omega
  rw [hstart, UInt32.ofNat_toNat]
  refine follows_require_bind (record_ne_none_iff hsize) fun record hrecord hfit => ?_
  rw [record_eq_some_iff hsize] at hrecord
  refine follows_ensure_bind Word.isAligned_four_iff fun _ => ?_
  -- The first check left room for the word, so the default is not used.
  have hroom : 0 + 4 ≤ entry.dataSize.toNat := hfour
  rcases hread : record.word32? 0 with _ | word
  · rw [Buffer.word32?_eq_none_iff, Buffer.size_slice hrecord] at hread
    omega
  have hword : word.toNat = image.buffer.numberAt 4 offset.toNat := by
    rw [(Buffer.word32?_eq_some_iff.mp hread).2, Buffer.numberAt_slice hrecord hroom, Nat.add_zero]
  rw [← hword, UInt32.ofNat_toNat, Option.getD_some]
  -- The signature that is read is the one whose characters stand there.
  refine follows_require_bind (Signature.ofWord?_ne_none_iff (by omega) hword)
    fun signature hsignature _ => ?_
  rw [Signature.ofWord?_eq_some_iff_hasBytesAt (by omega) hword] at hsignature
  rw [Buffer.recordHeaderAt_eq hsignature]
  have hheader : Word.sub? entry.dataSize signature.headerSize ≠ none ↔
      signature.headerSize.toNat ≤ entry.dataSize.toNat := by
    rw [ne_eq, Word.sub?_eq_none_iff, Nat.not_lt]
  refine follows_require_bind hheader fun pathSize hpathSize hle => ?_
  rw [Word.sub?_eq_some_iff] at hpathSize
  have hempty : pathSize ≠ 0 ↔ signature.headerSize.toNat ≠ entry.dataSize.toNat := by
    rw [ne_eq, ← UInt32.toNat_inj, UInt32.toNat_zero]
    omega
  refine follows_ensure_bind hempty fun hne => ?_
  -- The path is the slice of the file behind the header, and its last byte that of the record.
  have hpath := Buffer.slice?_extract hrecord hle
  have hlast := Buffer.last_eq_zero_iff hpath (by omega)
  rw [show offset.toNat + signature.headerSize.toNat +
    (entry.dataSize.toNat - signature.headerSize.toNat) =
      offset.toNat + entry.dataSize.toNat by omega] at hlast
  refine follows_ensure_bind hlast fun _ => follows_ok ⟨hsignature, ?_, ?_⟩
  -- The path begins within the file, so the sum of its offset does not wrap.
  · rw [UInt32.toNat_add, Nat.mod_eq_of_lt (by unfold UInt32.size at hsize; omega)]
  · exact (Buffer.slice?_eq_some_iff.mp hpath).2

end SymbolLocator
