import SymbolLocator.Lookup
import SymbolLocator.Proofs.PeGrammar

/-!
# Trapping Arithmetic

The library on a machine that stops where a number does not fit.

Most arithmetic in the library is checked, and a number that does not fit is an
error like any other. Some of it is not. A difference is taken because a search
found a section that holds the address. A pointer is compensated because it was
compared with the stripped bytes. A record is cut behind its header because its
size was, and an offset of the file is made a word because the file is small
enough for that. In each place the guard is somewhere else, and nothing in the
code would tell if it were missing: the number would just be a wrong one.

Here the same functions are written out once more with all such arithmetic
trapping. It needs its operands to be as they should be, and stops the run
where they are not. A trap is no error of the library, so a run that could end
in one would differ from the run of the library. None does. The trapping run
gives the same answers and reports the same errors, for any layout, range,
entry and options, whether or not a loader would have let them pass.

## Main definitions

* `Stop`: A trap, or an error that is reported.
* `Trap.sub`, `Trap.add`, `Trap.narrow`: Arithmetic of words that traps.
* `Trap.addSize`, `Trap.mulSize`: Arithmetic of 64-bit sizes that traps.
* `Trap.sliceFrom`: What is left of a buffer, or a trap.
* `Agrees`: A trapping run does what a plain run does.

## Theorems

* `agrees_bind`, `agrees_operation_bind`: Runs that agree, part by part.
* `Layout.readTrapping_agrees`: Loading never traps.
* `Image.placeTrapping_agrees`: Nor does placing any range in any image.
* `Image.recordPathTrapping_agrees`: Nor does following any entry.
* `arithmetic_never_traps`: All functions together.
-/

namespace SymbolLocator

variable {ε α β : Type}

/-! ### Traps -/

/-- Why a run on the trapping machine stops. -/
inductive Stop (ε : Type) where
  /-- An operand was not as it must be. -/
  | trapped
  /-- The library reports an error. -/
  | refused (error : ε)
deriving DecidableEq, Repr

/-- A part of the library that has no unchecked arithmetic. -/
def untrapped (outcome : Except ε α) : Except (Stop ε) α := outcome.mapError .refused

namespace Trap

/-- The difference of two words, which must not be negative. -/
def sub (a b : UInt32) : Except (Stop ε) UInt32 := require .trapped (Word.sub? a b)

/-- The sum of two words, which must be a word. -/
def add (a b : UInt32) : Except (Stop ε) UInt32 := require .trapped (Word.add? a b)

/-- A number as a word, which it must fit. -/
def narrow (number : Nat) : Except (Stop ε) UInt32 := do
  ensure (number < UInt32.size) .trapped
  return UInt32.ofNat number

/-- The sum of two sizes, which must be a 64-bit number. -/
def addSize (a b : Nat) : Except (Stop ε) Nat := do
  ensure (a + b < UInt64.size) .trapped
  return a + b

/-- The product of two sizes, which must be a 64-bit number. -/
def mulSize (a b : Nat) : Except (Stop ε) Nat := do
  ensure (a * b < UInt64.size) .trapped
  return a * b

/-- What is left of a buffer behind the first `offset` bytes, which it must
    have. -/
def sliceFrom (buffer : Buffer) (offset : Nat) : Except (Stop ε) Buffer := do
  ensure (offset ≤ buffer.size) .trapped
  return buffer.extract offset buffer.size

theorem sub_of_le {a b : UInt32} (h : b.toNat ≤ a.toNat) :
    (sub a b : Except (Stop ε) UInt32) = .ok (a - b) := by
  rw [sub, Word.sub?, if_pos (UInt32.le_iff_toNat_le.mpr h)]
  rfl

theorem add_of_lt {a b : UInt32} (h : a.toNat + b.toNat < UInt32.size) :
    (add a b : Except (Stop ε) UInt32) = .ok (a + b) := by
  rw [add, Word.add?, if_pos h]
  rfl

theorem narrow_of_lt {number : Nat} (h : number < UInt32.size) :
    (narrow number : Except (Stop ε) UInt32) = .ok (UInt32.ofNat number) := by
  rw [narrow, ensure, if_pos h]
  rfl

theorem addSize_of_lt {a b : Nat} (h : a + b < UInt64.size) :
    (addSize a b : Except (Stop ε) Nat) = .ok (a + b) := by
  rw [addSize, ensure, if_pos h]
  rfl

theorem mulSize_of_lt {a b : Nat} (h : a * b < UInt64.size) :
    (mulSize a b : Except (Stop ε) Nat) = .ok (a * b) := by
  rw [mulSize, ensure, if_pos h]
  rfl

theorem sliceFrom_of_le {buffer : Buffer} {offset : Nat} (h : offset ≤ buffer.size) :
    (sliceFrom buffer offset : Except (Stop ε) Buffer) =
      .ok (buffer.extract offset buffer.size) := by
  rw [sliceFrom, ensure, if_pos h]
  rfl

end Trap

/-! ### Agreement of runs -/

/-- The trapping run does what the plain run does: both succeed with the same
    value, or the trapping run stops for the error that the plain run reports.
    So it does not trap. -/
inductive Agrees : Except (Stop ε) α → Except ε α → Prop
  | ok (value : α) : Agrees (.ok value) (.ok value)
  | refused (error : ε) : Agrees (.error (.refused error)) (.error error)

theorem Agrees.not_trapped {run : Except (Stop ε) α} {plain : Except ε α}
    (h : Agrees run plain) : run ≠ .error .trapped := by
  cases h with
  | ok value => simp only [ne_eq, reduceCtorEq, not_false_eq_true]
  | refused error => simp only [ne_eq, Except.error.injEq, reduceCtorEq, not_false_eq_true]

theorem Agrees.eq_ok {run : Except (Stop ε) α} {plain : Except ε α} (h : Agrees run plain)
    {value : α} (hplain : plain = .ok value) : run = .ok value := by
  cases h with
  | ok actual => exact congrArg _ (Except.ok.inj hplain)
  | refused error => simp only [reduceCtorEq] at hplain

theorem agrees_untrapped (outcome : Except ε α) : Agrees (untrapped outcome) outcome := by
  cases outcome with
  | ok value => exact .ok value
  | error error => exact .refused error

/-- Runs agree if their parts do. The second part may rely on what the first
    found. -/
theorem agrees_bind {first : Except (Stop ε) α} {first' : Except ε α}
    {next : α → Except (Stop ε) β} {next' : α → Except ε β} (hfirst : Agrees first first')
    (hnext : ∀ value, first' = .ok value → Agrees (next value) (next' value)) :
    Agrees (first >>= next) (first' >>= next') := by
  cases hfirst with
  | ok value => exact hnext value rfl
  | refused error => exact .refused error

theorem agrees_untrapped_bind {outcome : Except ε α} {next : α → Except (Stop ε) β}
    {next' : α → Except ε β}
    (hnext : ∀ value, outcome = .ok value → Agrees (next value) (next' value)) :
    Agrees (untrapped outcome >>= next) (outcome >>= next') :=
  agrees_bind (agrees_untrapped outcome) hnext

/-- Arithmetic that does not trap is invisible. -/
theorem agrees_operation_bind {operation : Except (Stop ε) α} {value : α}
    (hoperation : operation = .ok value) {next : α → Except (Stop ε) β} {plain : Except ε β}
    (hnext : Agrees (next value) plain) : Agrees (operation >>= next) plain := by
  rw [hoperation]
  exact hnext

/-! ### Loading -/

/-- Reading a file header on the trapping machine. -/
def CoffHeader.readTrapping (buffer : Buffer) (headerOffset : UInt32) :
    Except (Stop LoadError) CoffHeader := do
  let start := headerOffset.toNat
  let truncated := LoadError.headerTruncated (start + coffHeaderSize) buffer.size
  let signature ← untrapped (require truncated (buffer.slice? start 4))
  untrapped (ensure (Buffer.bytes signature = peSignature) .noPeSignature)
  let countOffset ← Trap.addSize start 6
  let sectionCount ← untrapped (require truncated (buffer.word16? countOffset))
  let sizeOffset ← Trap.addSize start 20
  let optionalSize ← untrapped (require truncated (buffer.word16? sizeOffset))
  return { sectionCount, optionalSize }

/-- Reading an optional header on the trapping machine. -/
def OptionalHeader.readTrapping (header : Buffer) (declared : UInt16) :
    Except (Stop LoadError) OptionalHeader := do
  let tooSmall := LoadError.optionalHeaderTooSmall declared
  let magic ← untrapped (require (tooSmall 2) (header.word16? 0))
  let kind ← untrapped (require (.unknownMagic magic) (PeKind.ofMagic? magic))
  let directoryCount ← untrapped
    (require (tooSmall kind.directoriesOffset) (header.word32? kind.countOffset))
  let slots ← Trap.mulSize directoryCount.toNat slotSize
  let required ← Trap.addSize kind.directoriesOffset slots
  untrapped (ensure (required ≤ declared.toNat) (tooSmall required))
  let sizeOfImage ← untrapped (require (tooSmall kind.directoriesOffset) (header.word32? 56))
  return { kind, directoryCount, sizeOfImage }

namespace Layout

/-- Reading a PE layout on the trapping machine. -/
def readPeTrapping (buffer : Buffer) (headerOffset : UInt32) : Except (Stop LoadError) Layout := do
  let coff ← CoffHeader.readTrapping buffer headerOffset
  let optionalOffset ← Trap.addSize headerOffset.toNat coffHeaderSize
  let declared ← untrapped
    (require (.headerTruncated (optionalOffset + coff.optionalSize.toNat) buffer.size)
      (buffer.slice? optionalOffset coff.optionalSize.toNat))
  let optional ← OptionalHeader.readTrapping declared coff.optionalSize
  let sectionsOffset ← Trap.addSize optionalOffset coff.optionalSize.toNat
  let table ← untrapped (require .sectionTableOutsideFile
    (SectionTable.ofBuffer? buffer sectionsOffset coff.sectionCount))
  untrapped (SectionBounds.checkAll ⟨optional.sizeOfImage, 0, buffer.size⟩ table.toList)
  let sectionsOffset ← Trap.narrow sectionsOffset
  return {
    format := .pe optional.kind headerOffset
    sizeOfImage := optional.sizeOfImage
    sectionsOffset
    sectionCount := coff.sectionCount }

/-- Reading a layout on the trapping machine. Of a TE header and its table
    nothing is read with unchecked arithmetic. -/
def readTrapping (buffer : Buffer) (options : Options) : Except (Stop LoadError) Layout := do
  untrapped (ensure (buffer.size < UInt32.size) (.bufferTooLarge buffer.size))
  let signature ← untrapped (require (.headerTruncated 2 buffer.size) (buffer.word16? 0))
  if signature = dosSignature then
    let headerOffset ← untrapped (dosHeaderOffset buffer)
    readPeTrapping buffer headerOffset
  else if signature = teSignature then
    untrapped (ensure options.allowTe .teProhibited)
    untrapped (readTe buffer)
  else
    untrapped (ensure ((buffer.slice? 0 4).map Buffer.bytes = some peSignature) .unknownFormat)
    readPeTrapping buffer 0

end Layout

theorem CoffHeader.readTrapping_agrees (buffer : Buffer) (start : UInt32) :
    Agrees (CoffHeader.readTrapping buffer start) (CoffHeader.read buffer start) := by
  have hword := start.toNat_lt
  have hsize : UInt64.size = 18446744073709551616 := rfl
  refine agrees_untrapped_bind fun signature _ => ?_
  refine agrees_untrapped_bind fun _ _ => ?_
  refine agrees_operation_bind (Trap.addSize_of_lt (by omega)) ?_
  refine agrees_untrapped_bind fun sectionCount _ => ?_
  refine agrees_operation_bind (Trap.addSize_of_lt (by omega)) ?_
  refine agrees_untrapped_bind fun optionalSize _ => ?_
  exact .ok _

/-- The number of data directories is a word, so their slots have a 64-bit
    size. -/
theorem OptionalHeader.readTrapping_agrees (header : Buffer) (declared : UInt16) :
    Agrees (OptionalHeader.readTrapping header declared) (OptionalHeader.read header declared) := by
  refine agrees_untrapped_bind fun magic _ => ?_
  refine agrees_untrapped_bind fun kind _ => ?_
  refine agrees_untrapped_bind fun count _ => ?_
  have hword := count.toNat_lt
  have hsize : UInt64.size = 18446744073709551616 := rfl
  have hslots : count.toNat * slotSize = 8 * count.toNat := Nat.mul_comm _ _
  have hfixed : kind.directoriesOffset ≤ 112 := by
    cases kind with
    | pe32 => decide
    | pe32Plus => decide
  refine agrees_operation_bind (Trap.mulSize_of_lt (by omega)) ?_
  refine agrees_operation_bind (Trap.addSize_of_lt (by omega)) ?_
  refine agrees_untrapped_bind fun _ _ => ?_
  refine agrees_untrapped_bind fun sizeOfImage _ => ?_
  exact .ok _

namespace Layout

theorem readPeTrapping_agrees {buffer : Buffer} (hbuffer : buffer.size < UInt32.size)
    (start : UInt32) : Agrees (readPeTrapping buffer start) (readPe buffer start) := by
  have hword := start.toNat_lt
  have hsize : UInt64.size = 18446744073709551616 := rfl
  have hheader : coffHeaderSize = 24 := rfl
  refine agrees_bind (CoffHeader.readTrapping_agrees buffer start) fun coff _ => ?_
  have hdeclared := coff.optionalSize.toNat_lt
  refine agrees_operation_bind (Trap.addSize_of_lt (by omega)) ?_
  refine agrees_untrapped_bind fun declared _ => ?_
  refine agrees_bind (OptionalHeader.readTrapping_agrees declared _) fun optional _ => ?_
  refine agrees_operation_bind (Trap.addSize_of_lt (by omega)) ?_
  refine agrees_untrapped_bind fun table htable => ?_
  refine agrees_untrapped_bind fun _ _ => ?_
  -- The section table is in the file, so its place in the file is a word.
  have hfit := SectionTable.ofBuffer?_ne_none_iff.mp
    (Option.ne_none_iff_exists'.mpr ⟨table, require_eq_ok_iff.mp htable⟩)
  refine agrees_operation_bind (Trap.narrow_of_lt (by omega)) ?_
  exact .ok _

theorem readTrapping_agrees (buffer : Buffer) (options : Options) :
    Agrees (readTrapping buffer options) (read buffer options) := by
  refine agrees_untrapped_bind fun _ hsize => ?_
  have hbuffer := ensure_eq_ok_iff.mp hsize
  refine agrees_untrapped_bind fun signature _ => ?_
  by_cases hdos : signature = dosSignature
  · rw [if_pos hdos, if_pos hdos]
    exact agrees_untrapped_bind fun start _ => readPeTrapping_agrees hbuffer start
  · rw [if_neg hdos, if_neg hdos]
    by_cases hte : signature = teSignature
    · rw [if_pos hte, if_pos hte]
      exact agrees_untrapped_bind fun _ _ => agrees_untrapped _
    · rw [if_neg hte, if_neg hte]
      exact agrees_untrapped_bind fun _ _ => readPeTrapping_agrees hbuffer 0

end Layout

/-! ### Lookups -/

namespace Image

/-- The place of the debug slot on the trapping machine. -/
def slotOffsetTrapping (image : Image) (options : Options) : Except (Stop LookupError) Nat :=
  match image.format with
  | .te _ => do
    untrapped (ensure options.allowTe (.contract Violation.teDisabled))
    return teSlotOffset
  | .pe kind headerOffset => do
    let optionalOffset ← Trap.addSize headerOffset.toNat coffHeaderSize
    let countOffset ← Trap.addSize optionalOffset kind.countOffset
    let count ← untrapped (require (.contract Violation.optionalHeaderOutsideFile)
      (image.buffer.word32? countOffset))
    untrapped (ensure (debugSlot < count.toNat) (.absent .noDirectory))
    Trap.addSize optionalOffset (kind.slotOffset debugSlot)

/-- The announced range on the trapping machine. -/
def announcedRangeTrapping (image : Image) (options : Options) :
    Except (Stop LookupError) VirtualRange := do
  let offset ← image.slotOffsetTrapping options
  untrapped (require (.contract Violation.slotOutsideFile)
    ((image.buffer.slice? offset slotSize).bind VirtualRange.decode?))

/-- The place of a virtual range on the trapping machine. -/
def placeTrapping (image : Image) (range : VirtualRange) (options : Options) :
    Except (Stop LookupError) Placement := do
  let table ← untrapped image.sectionTable
  let (sectionIndex, header) ← untrapped
    (require (.malformed (.directoryOutsideSections range.address)) (table.containing? range))
  let distance ← Trap.sub range.address header.virtualAddress
  untrapped (ensure ((Word.add? distance range.size).any fun last => last ≤ header.rawSize)
    (.malformed (.directoryExceedsRawData sectionIndex)))
  let offset ← untrapped (require (.malformed .directoryOffsetOverflow)
    (Word.add? header.rawPointer distance))
  let compensation := image.compensation options
  untrapped (ensure (compensation ≤ header.rawPointer) (.contract Violation.strippedPastRawData))
  let fileOffset ← Trap.sub offset compensation
  untrapped (ensure (Word.isAligned fileOffset 4) (.malformed (.directoryMisaligned fileOffset)))
  return { sectionIndex, header, fileOffset }

/-- The debug directory on the trapping machine. -/
def debugDirectoryTrapping (image : Image) (options : Options) :
    Except (Stop LookupError) DebugDirectory := do
  untrapped (ensure options.debugSupport (.absent .supportDisabled))
  let range ← image.announcedRangeTrapping options
  untrapped (range.checkDirectory image.sizeOfImage)
  let placement ← image.placeTrapping range options
  untrapped (image.directoryAt placement.fileOffset range.size)

/-- The path in a record on the trapping machine. -/
def recordPathTrapping (image : Image) (entry : DebugEntry) (options : Options) :
    Except (Stop LookupError) SymbolPath := do
  let size := entry.dataSize
  untrapped (ensure (4 ≤ size) (.malformed (.recordTooSmall size)))
  let offset ← untrapped (require (.malformed (.recordInStrippedHeader entry.rawPointer))
    (Word.sub? entry.rawPointer (image.compensation options)))
  let record ← untrapped (require (.malformed (.recordOutsideFile offset size))
    ((Word.checkedEnd offset size image.fileSize).bind fun _ =>
      image.buffer.slice? offset.toNat size.toNat))
  untrapped (ensure (Word.isAligned offset 4) (.malformed (.recordMisaligned offset)))
  let word := (record.word32? 0).getD 0
  let signature ← untrapped
    (require (.malformed (.unknownSignature word)) (Signature.ofWord? word))
  let pathSize ← untrapped (require (.malformed (.recordTooSmall size))
    (Word.sub? size signature.headerSize))
  untrapped (ensure (pathSize ≠ 0) (.malformed .emptyPath))
  let bytes ← Trap.sliceFrom record signature.headerSize.toNat
  untrapped (ensure (Buffer.byte? bytes (bytes.size - 1) = some 0) (.malformed .unterminatedPath))
  let offset ← Trap.add offset signature.headerSize
  return { bytes, offset, signature }

/-- The path that an image names on the trapping machine. -/
def symbolPathTrapping (image : Image) (options : Options) :
    Except (Stop LookupError) SymbolPath := do
  let directory ← image.debugDirectoryTrapping options
  let (_, entry) ← untrapped directory.codeViewEntry
  image.recordPathTrapping entry options

variable (image : Image) (options : Options)

theorem slotOffsetTrapping_agrees :
    Agrees (image.slotOffsetTrapping options) (image.slotOffset options) := by
  unfold slotOffsetTrapping slotOffset
  cases image.format with
  | te stripped => exact agrees_untrapped_bind fun _ _ => .ok _
  | pe kind start =>
      have hword := start.toNat_lt
      have hsize : UInt64.size = 18446744073709551616 := rfl
      have hheader : coffHeaderSize = 24 := rfl
      have hoffsets : kind.countOffset ≤ 108 ∧ kind.slotOffset debugSlot ≤ 160 := by
        cases kind with
        | pe32 => decide
        | pe32Plus => decide
      refine agrees_operation_bind (Trap.addSize_of_lt (by omega)) ?_
      refine agrees_operation_bind (Trap.addSize_of_lt (by omega)) ?_
      refine agrees_untrapped_bind fun count _ => ?_
      refine agrees_untrapped_bind fun _ _ => ?_
      rw [Trap.addSize_of_lt (by omega)]
      exact .ok _

theorem announcedRangeTrapping_agrees :
    Agrees (image.announcedRangeTrapping options) (image.announcedRange options) :=
  agrees_bind (slotOffsetTrapping_agrees image options) fun _ _ => agrees_untrapped _

/-- The section that was found holds the address, so it does not begin behind
    it. The pointer of the section is no less than the stripped bytes, and the
    place behind it is no less than the pointer. -/
theorem placeTrapping_agrees (range : VirtualRange) :
    Agrees (image.placeTrapping range options) (image.place range options) := by
  refine agrees_untrapped_bind fun table _ => ?_
  refine agrees_untrapped_bind fun found hfound => ?_
  rcases found with ⟨index, header⟩
  have hholds : header.contains range = true :=
    (firstMatch_eq_some_iff.mp (require_eq_ok_iff.mp hfound)).2.1
  have haddress : header.virtualAddress.toNat ≤ range.address.toNat :=
    (Section.contains_iff.mp hholds).1
  refine agrees_operation_bind (Trap.sub_of_le haddress) ?_
  refine agrees_untrapped_bind fun _ _ => ?_
  refine agrees_untrapped_bind fun offset hoffset => ?_
  refine agrees_untrapped_bind fun _ hstripped => ?_
  have hsum := Word.add?_eq_some_iff.mp (require_eq_ok_iff.mp hoffset)
  have hle := UInt32.le_iff_toNat_le.mp (ensure_eq_ok_iff.mp hstripped)
  refine agrees_operation_bind (Trap.sub_of_le (by omega)) ?_
  refine agrees_untrapped_bind fun _ _ => ?_
  exact .ok _

theorem debugDirectoryTrapping_agrees :
    Agrees (image.debugDirectoryTrapping options) (image.debugDirectory options) := by
  refine agrees_untrapped_bind fun _ _ => ?_
  refine agrees_bind (announcedRangeTrapping_agrees image options) fun range _ => ?_
  refine agrees_untrapped_bind fun _ _ => ?_
  refine agrees_bind (placeTrapping_agrees image options range) fun placement _ => ?_
  exact agrees_untrapped _

/-- The record ends at a word and has its declared size, and the size leaves
    room for the header. -/
theorem recordPathTrapping_agrees (entry : DebugEntry) :
    Agrees (image.recordPathTrapping entry options) (image.recordPath entry options) := by
  refine agrees_untrapped_bind fun _ _ => ?_
  refine agrees_untrapped_bind fun offset _ => ?_
  refine agrees_untrapped_bind fun record hrecord => ?_
  refine agrees_untrapped_bind fun _ _ => ?_
  refine agrees_untrapped_bind fun signature _ => ?_
  refine agrees_untrapped_bind fun pathSize hpathSize => ?_
  rcases Option.bind_eq_some_iff.mp (require_eq_ok_iff.mp hrecord) with ⟨last, hlast, hslice⟩
  have hsize := Buffer.size_slice hslice
  have hend := (Word.checkedEnd_eq_some_iff.mp hlast).1
  have hword := last.toNat_lt
  have hroom := Word.sub?_eq_some_iff.mp (require_eq_ok_iff.mp hpathSize)
  have hlimit : UInt32.size = 4294967296 := rfl
  refine agrees_untrapped_bind fun _ _ => ?_
  refine agrees_operation_bind (Trap.sliceFrom_of_le (by omega)) ?_
  refine agrees_untrapped_bind fun _ _ => ?_
  refine agrees_operation_bind (Trap.add_of_lt (by omega)) ?_
  exact .ok _

theorem symbolPathTrapping_agrees :
    Agrees (image.symbolPathTrapping options) (image.symbolPath options) := by
  refine agrees_bind (debugDirectoryTrapping_agrees image options) fun directory _ => ?_
  refine agrees_untrapped_bind fun found _ => ?_
  exact recordPathTrapping_agrees image options found.2

end Image

/-! ### No traps -/

/-- With trapping arithmetic the library does what it does without. Loading
    does so for files that 32-bit offsets reach, wherever the signature is said
    to be. Lookups do so for any image, also one whose layout nobody checked, and
    for any range and entry. -/
theorem arithmetic_never_traps :
    (∀ buffer : Buffer, buffer.size < UInt32.size → ∀ start,
      Agrees (Layout.readPeTrapping buffer start) (Layout.readPe buffer start)) ∧
    (∀ buffer options,
      Agrees (Layout.readTrapping buffer options) (Layout.read buffer options)) ∧
    ∀ (image : Image) (options : Options),
      Agrees (image.announcedRangeTrapping options) (image.announcedRange options) ∧
      (∀ range, Agrees (image.placeTrapping range options) (image.place range options)) ∧
      Agrees (image.debugDirectoryTrapping options) (image.debugDirectory options) ∧
      (∀ entry,
        Agrees (image.recordPathTrapping entry options) (image.recordPath entry options)) ∧
      Agrees (image.symbolPathTrapping options) (image.symbolPath options) := by
  refine ⟨fun buffer hsize start => Layout.readPeTrapping_agrees hsize start,
    Layout.readTrapping_agrees, fun image options => ⟨?_, ?_, ?_, ?_, ?_⟩⟩
  · exact image.announcedRangeTrapping_agrees options
  · exact image.placeTrapping_agrees options
  · exact image.debugDirectoryTrapping_agrees options
  · exact image.recordPathTrapping_agrees options
  · exact image.symbolPathTrapping_agrees options

theorem smallImage_arithmetic_never_traps :
    smallImage.size < UInt32.size ∧
      Layout.readPeTrapping smallImage 0 = .ok smallLoaded.toLayout ∧
      ∀ entry options, smallLoaded.recordPathTrapping entry options ≠ .error .trapped := by
  have hsize : smallImage.size < UInt32.size := by decide +kernel
  refine ⟨hsize, (arithmetic_never_traps.1 smallImage hsize 0).eq_ok readPe_smallImage, ?_⟩
  intro entry options
  exact ((arithmetic_never_traps.2.2 smallLoaded options).2.2.2.1 entry).not_trapped

end SymbolLocator
