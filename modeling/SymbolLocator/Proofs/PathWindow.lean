import Mathlib.Data.List.TakeWhile
import SymbolLocator.Proofs.LookupSuccess

/-!
# Paths as Windows

What holds of every path that is handed out.

A path is not copied. It is a window of the buffer, and whoever uses it relies
on what the window is: it lies in the buffer, it begins behind the header of a
record, it is not empty, and its last byte is NUL. All of this is so for any
layout and any debug entry, in a buffer of any length. The entry may be of
another type than CodeView, and its numbers may be anything.

Nothing says that the last byte is the only NUL. The name of a path ends in
front of the first one, so it may be shorter than the window, and is always
shorter by the terminator at least. Since there is a NUL, the name is never
empty for want of one.

## Main definitions

* `CutAtNul`: A name is what stands in front of the first NUL of some bytes.
* `SymbolPath.WindowOf`: A path is a window of a buffer.

## Theorems

* `cutAtNul_takeWhile`: What stands in front of the first NUL.
* `Image.windowOf_of_recordPath`: A path that is found in a record is a window.
* `paths_are_windows`: So is every path that is handed out.
-/

namespace SymbolLocator

/-- `name` is what stands in `content` in front of the first NUL byte. -/
structure CutAtNul (name content : List UInt8) : Prop where
  terminated : name ++ [0] <+: content
  noNul : 0 ∉ name
  longest : ∀ front, front <+: content → 0 ∉ front → front <+: name

/-- The path is a window of the buffer, and fills what the header of a record of
    `recordSize` bytes leaves of it. -/
structure SymbolPath.WindowOf (path : SymbolPath) (buffer : Buffer) (recordSize : Nat) :
    Prop where
  behindHeader : path.signature.headerSize.toNat ≤ path.offset.toNat
  signature : buffer.word32? (path.offset.toNat - path.signature.headerSize.toNat) =
    some path.signature.word
  aligned : 4 ∣ path.offset.toNat
  fills : path.size = recordSize - path.signature.headerSize.toNat
  nonempty : 1 ≤ path.size
  inBuffer : path.offset.toNat + path.size ≤ buffer.size
  endIsWord : path.offset.toNat + path.size < UInt32.size
  bytes : buffer.slice? path.offset.toNat path.size = some path.bytes
  terminated : path.bytes.byte? (path.size - 1) = some 0
  notEmpty : path.isEmpty = false
  hasNul : path.bytes.bytes.contains 0 = true
  name : CutAtNul path.name path.bytes.bytes
  nameShorter : path.name.length < path.size

/-! ### Names -/

-- The induction is on the bytes, up to the first NUL.
theorem takeWhile_append_nul_isPrefix {content : List UInt8} (h : 0 ∈ content) :
    (content.takeWhile fun byte => byte != 0) ++ [0] <+: content := by
  induction content with
  | nil => exact absurd h List.not_mem_nil
  | cons byte rest ih =>
      by_cases hbyte : byte = 0
      · rw [hbyte]
        exact List.prefix_append [0] rest
      · have hrest : 0 ∈ rest := by
          rcases List.mem_cons.mp h with heq | hmem
          · exact absurd heq.symm hbyte
          · exact hmem
        have hkeep : (byte != 0) = true := bne_iff_ne.mpr hbyte
        rw [List.takeWhile_cons, hkeep, if_pos rfl, List.cons_append]
        exact (List.prefix_cons_inj byte).mpr (ih hrest)

/-- What stands in front of the first NUL, in bytes that have one. -/
theorem cutAtNul_takeWhile {content : List UInt8} (h : 0 ∈ content) :
    CutAtNul (content.takeWhile fun byte => byte != 0) content where
  terminated := takeWhile_append_nul_isPrefix h
  noNul := by
    intro hmem
    have hkeep := List.mem_takeWhile_imp hmem
    exact absurd hkeep (by decide)
  longest := by
    intro front hfront hnone
    -- Both are prefixes of the same bytes, and the one with the NUL cannot be the shorter.
    rcases List.prefix_or_prefix_of_prefix hfront (takeWhile_append_nul_isPrefix h) with
      hle | hge
    · rcases List.prefix_concat_iff.mp hle with heq | hname
      · rw [heq] at hnone
        exact absurd (List.mem_append_right _ List.mem_cons_self) hnone
      · exact hname
    · exact absurd (hge.subset (List.mem_append_right _ List.mem_cons_self)) hnone

namespace SymbolPath

variable {path : SymbolPath}

theorem mem_of_terminated (h : path.bytes.byte? (path.size - 1) = some 0) :
    0 ∈ path.bytes.bytes := by
  by_cases hlt : path.size - 1 < path.bytes.size
  · rw [Buffer.byte?, dif_pos hlt, Option.some.injEq] at h
    rw [← h]
    exact List.getElem_mem (l := path.bytes.bytes) hlt
  · rw [Buffer.byte?, dif_neg hlt] at h
    exact absurd h (Option.some_ne_none 0).symm

theorem cutAtNul_name (h : 0 ∈ path.bytes.bytes) : CutAtNul path.name path.bytes.bytes := by
  rw [name, if_pos (List.contains_iff_mem.mpr h)]
  exact cutAtNul_takeWhile h

end SymbolPath

theorem CutAtNul.length_lt {name content : List UInt8} (h : CutAtNul name content) :
    name.length < content.length := by
  have hle := h.terminated.length_le
  rw [List.length_append, List.length_singleton] at hle
  omega

/-! ### Records -/

theorem Signature.four_dvd_headerSize (signature : Signature) :
    4 ∣ signature.headerSize.toNat := by
  cases signature with
  | nb10 => decide
  | rsds => decide
  | mtoc => decide

namespace Image

variable {image : Image} {options : Options} {entry : DebugEntry} {path : SymbolPath}

/-- What a record has to be for a path to be found in it, in a buffer of any
    length. -/
theorem exists_record_of_recordPath (h : image.recordPath entry options = .ok path) :
    ∃ (start : UInt32) (record : Buffer),
      image.buffer.slice? start.toNat entry.dataSize.toNat = some record ∧
      start.toNat + entry.dataSize.toNat < UInt32.size ∧ 4 ∣ start.toNat ∧
      record.word32? 0 = some path.signature.word ∧
      path.signature.headerSize.toNat < entry.dataSize.toNat ∧
      path.offset = start + path.signature.headerSize ∧
      path.bytes = record.extract path.signature.headerSize.toNat record.size ∧
      path.bytes.byte? (path.size - 1) = some 0 := by
  simp only [recordPath, bind_eq_ok_iff, require_eq_ok_iff, ensure_eq_ok_iff,
    Option.bind_eq_some_iff, Word.checkedEnd_eq_some_iff, pure, Except.pure,
    Except.ok.injEq] at h
  rcases h with ⟨-, hfour, start, -, record, ⟨last, ⟨hlast, -⟩, hrecord⟩, -, haligned, signature,
    hsignature, pathSize, hpathSize, -, hnonempty, -, hterminated, rfl⟩
  have hword := last.toNat_lt
  rw [hlast] at hword
  rw [UInt32.le_iff_toNat_le] at hfour
  have hfour' : 0 + 4 ≤ entry.dataSize.toNat := hfour
  have hsize := Buffer.size_slice hrecord
  -- The first check left room for the signature, so the default is not used.
  rcases Buffer.exists_word32? (hsize ▸ hfour' : 0 + 4 ≤ record.size) with ⟨word, hread⟩
  rw [hread, Option.getD_some, Signature.ofWord?_eq_some_iff] at hsignature
  rw [Word.sub?_eq_some_iff] at hpathSize
  rw [ne_eq, ← UInt32.toNat_inj, UInt32.toNat_zero] at hnonempty
  refine ⟨start, record, hrecord, hword, Word.isAligned_four_iff.mp haligned, ?_, ?_, rfl, rfl,
    hterminated⟩
  · rw [hread, ← hsignature]
  · dsimp only
    omega

/-- A path that is found in a record is a window of the buffer. -/
theorem windowOf_of_recordPath (h : image.recordPath entry options = .ok path) :
    path.WindowOf image.buffer entry.dataSize.toNat := by
  rcases exists_record_of_recordPath h with
    ⟨start, record, hrecord, hword, haligned, hsignature, hlonger, hoffset, hbytes, hterminated⟩
  have hfour := path.signature.four_le_headerSize
  have hfile := (Buffer.slice?_eq_some_iff.mp hrecord).1
  -- The path begins within the record, whose end is a word, so the sum does not wrap.
  have hoffsetAt : path.offset.toNat = start.toNat + path.signature.headerSize.toNat := by
    rw [hoffset, UInt32.toNat_add, Nat.mod_eq_of_lt]
    unfold UInt32.size at hword
    omega
  have hslice := Buffer.slice?_extract hrecord (Nat.le_of_lt hlonger)
  rw [← hoffsetAt, ← hbytes] at hslice
  have hpathSize : path.size = entry.dataSize.toNat - path.signature.headerSize.toNat :=
    Buffer.size_slice hslice
  have hmem := SymbolPath.mem_of_terminated hterminated
  have hname := SymbolPath.cutAtNul_name hmem
  rw [Buffer.word32?_slice hrecord (by omega), Nat.add_zero] at hsignature
  refine ⟨by omega, ?_, ?_, hpathSize, by omega, by omega, by omega, ?_, hterminated, ?_,
    List.contains_iff_mem.mpr hmem, hname, hname.length_lt⟩
  · rw [hoffsetAt, Nat.add_sub_cancel]
    exact hsignature
  · rw [hoffsetAt]
    exact Nat.dvd_add haligned path.signature.four_dvd_headerSize
  · rw [hpathSize]
    exact hslice
  · rw [SymbolPath.isEmpty, beq_eq_false_iff_ne]
    exact fun hzero => absurd (hpathSize.symm.trans hzero) (by omega)

/-- The path that an image names is found in the record of the first CodeView
    entry. -/
theorem exists_entry_of_symbolPath (h : image.symbolPath options = .ok path) :
    ∃ directory index entry, image.debugDirectory options = .ok directory ∧
      directory.codeView? = some (index, entry) ∧ image.recordPath entry options = .ok path := by
  rcases bind_eq_ok_iff.mp h with ⟨directory, hdirectory, hrest⟩
  rcases bind_eq_ok_iff.mp hrest with ⟨⟨index, entry⟩, hentry, hpath⟩
  exact ⟨directory, index, entry, hdirectory, require_eq_ok_iff.mp hentry, hpath⟩

end Image

/-! ### Handed out paths -/

/-- Every path that is handed out is a window of the buffer. This is so for any
    image, be its layout read or given by hand, and for any entry. A lookup in
    an image or in a buffer gives the path in the record of the first CodeView
    entry, hence a window too. -/
theorem paths_are_windows :
    (∀ (image : Image) (options : Options) (entry : DebugEntry) (path : SymbolPath),
      image.recordPath entry options = .ok path →
        path.WindowOf image.buffer entry.dataSize.toNat) ∧
    (∀ (image : Image) (options : Options) (path : SymbolPath),
      image.symbolPath options = .ok path →
        ∃ directory index entry, image.debugDirectory options = .ok directory ∧
          directory.codeView? = some (index, entry) ∧
          path.WindowOf image.buffer entry.dataSize.toNat) ∧
    ∀ (buffer : Buffer) (options : Options) (path : SymbolPath),
      locate buffer options = .ok path →
        ∃ image directory index entry, Image.load buffer options = .ok image ∧
          image.debugDirectory options = .ok directory ∧
          directory.codeView? = some (index, entry) ∧
          path.WindowOf buffer entry.dataSize.toNat := by
  refine ⟨fun image options entry path h => Image.windowOf_of_recordPath h,
    fun image options path h => ?_, fun buffer options path h => ?_⟩
  · rcases Image.exists_entry_of_symbolPath h with
      ⟨directory, index, entry, hdirectory, hentry, hpath⟩
    exact ⟨directory, index, entry, hdirectory, hentry, Image.windowOf_of_recordPath hpath⟩
  · rcases locate_eq_ok_iff.mp h with ⟨-, image, hload, hsymbol⟩
    rcases Image.exists_entry_of_symbolPath hsymbol with
      ⟨directory, index, entry, hdirectory, hentry, hpath⟩
    have hwindow := Image.windowOf_of_recordPath hpath
    rw [(Image.load_cases hload).1] at hwindow
    exact ⟨image, directory, index, entry, hload, hdirectory, hentry, hwindow⟩

theorem smallImage_path_is_window :
    locate smallImage .standard = .ok smallPath ∧
      ∃ entry : DebugEntry, smallPath.WindowOf smallImage entry.dataSize.toNat := by
  rcases paths_are_windows.2.2 smallImage .standard smallPath smallImage_locates with
    ⟨_, _, _, entry, -, -, -, hwindow⟩
  exact ⟨smallImage_locates, entry, hwindow⟩

end SymbolLocator
