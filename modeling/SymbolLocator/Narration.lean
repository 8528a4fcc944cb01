import SymbolLocator.Event
import SymbolLocator.Lookup

/-!
# Narrated Lookup

The same lookup, with the events it reports.

A narrated computation is an outcome together with the events that were reported
on the way to it. Reporting is an effect: what has been reported stays reported,
whatever becomes of the computation.

A stage reports what it has found at the point where it has found it. A failure
is reported by whoever makes its error (`make`), and it makes no difference to
the report whether the error is then given or thrown away. So an error must not
be made before it is known to be needed. A check is handed the making of its
error, not the error, and sets about it only when it has failed (`orElse`,
`demand`). That each stage does so, and goes on to give the error it has made,
is not part of what a narrated computation is. It has to be seen from the stages.

Each narrated function is written out with its reports, and is tied by a lemma
to the plain one: the outcomes are the same.

## Main definitions

* `Narrated`: An outcome and the events on the way to it.
* `Narrated.announce`, `Narrated.make`: Reporting a fact, and making an error.
* `Narrated.orElse`, `Narrated.demand`: Checks that make their error when they
  fail.
* `Image.narrateDirectory`, `Image.narratePath`: The debug directory and the
  path of an image, narrated.
* `narrateLoad`, `narrateLocate`: Loading a buffer, and the whole lookup.

## Theorems

* `Narrated.outcome_bind`, `Narrated.events_bind`: The outcome and the events
  of a sequence.
* `Narrated.outcome_orElse_make`, `Narrated.outcome_demand_make`: The outcomes of
  checks are those of the plain ones.
* `Image.outcome_narrateDirectory`, `Image.outcome_narratePath`,
  `outcome_narrateLoad`, `outcome_narrateLocate`: Narration keeps the outcome.
-/

namespace SymbolLocator

variable {ε δ α β : Type}

/-- The outcome of a computation, and the events it reported in order. -/
structure Narrated (ε α : Type) where
  outcome : Except ε α
  events : List Event

namespace Narrated

/-- An outcome with nothing to tell. -/
def silent (outcome : Except ε α) : Narrated ε α := ⟨outcome, []⟩

/-- Success that reports one event. -/
def announce (event : Event) : Narrated ε Unit := ⟨.ok (), [event]⟩

/-- Go on with a result, and report what both computations report. -/
def andThen (first : Narrated ε α) (next : α → Narrated ε β) : Narrated ε β :=
  match first.outcome with
  | .ok value =>
    let second := next value
    ⟨second.outcome, first.events ++ second.events⟩
  | .error error => ⟨.error error, first.events⟩

instance : Monad (Narrated ε) where
  pure value := silent (.ok value)
  bind := andThen

/-- The same computation with its error in other terms. -/
def mapError (change : ε → δ) (narrated : Narrated ε α) : Narrated δ α :=
  ⟨narrated.outcome.mapError change, narrated.events⟩

/-- Make the error of a failed lookup. Making it reports the failure. The error is
    a value like any other, and nothing has failed yet. -/
def make (error : LookupError) : Narrated ε LookupError := do
  announce (.lookupFailed error)
  return error

/-- Make an error, and fail with it. -/
def fail (making : Narrated ε ε) : Narrated ε α := do
  let error ← making
  silent (.error error)

/-- The value of an option. Only if there is none, an error is made. -/
def orElse (making : Narrated ε ε) : Option α → Narrated ε α
  | some value => pure value
  | none => fail making

/-- Success if the condition holds. Only if it does not, an error is made. -/
def demand (condition : Prop) [Decidable condition] (making : Narrated ε ε) : Narrated ε Unit :=
  if condition then pure () else fail making

@[simp] theorem outcome_pure (value : α) :
    (pure value : Narrated ε α).outcome = pure value := rfl

@[simp] theorem outcome_bind (first : Narrated ε α) (next : α → Narrated ε β) :
    (first >>= next).outcome = first.outcome >>= fun value => (next value).outcome := by
  show (andThen first next).outcome = _
  unfold andThen
  cases first.outcome <;> rfl

theorem events_bind (first : Narrated ε α) (next : α → Narrated ε β) :
    (first >>= next).events = first.events ++
      match first.outcome with
      | .ok value => (next value).events
      | .error _ => [] := by
  show (andThen first next).events = _
  unfold andThen
  cases first.outcome <;> simp

-- An error that is made in front of a check is reported although the check passes.
example :
    (do
      let error ← make (.absent .noDirectory)
      orElse (pure error) (some 3) : Narrated LookupError Nat) =
    ⟨.ok 3, [.lookupFailed (.absent .noDirectory)]⟩ := rfl

@[simp] theorem outcome_silent (outcome : Except ε α) : (silent outcome).outcome = outcome := rfl

@[simp] theorem outcome_announce (event : Event) :
    (announce event : Narrated ε Unit).outcome = pure () := rfl

@[simp] theorem outcome_mapError (change : ε → δ) (narrated : Narrated ε α) :
    (narrated.mapError change).outcome = narrated.outcome.mapError change := rfl

@[simp] theorem outcome_orElse_make (error : LookupError) (option : Option α) :
    (orElse (make error) option).outcome = require error option := by
  cases option <;> rfl

@[simp] theorem outcome_demand_make (error : LookupError) (condition : Prop)
    [Decidable condition] :
    (demand condition (make error)).outcome = ensure condition error := by
  unfold demand ensure
  split <;> rfl

end Narrated

open Narrated (make orElse demand announce)

/-! ### Stages -/

/-- Check that a virtual range can be that of a debug directory. -/
def VirtualRange.narrateCheck (range : VirtualRange) (sizeOfImage : UInt32) :
    Narrated LookupError Unit := do
  demand (range.size ≠ 0) (make (.absent .emptyDirectory))
  demand (range.size.toNat % DebugEntry.size = 0)
    (make (.malformed (.directoryNotWhole range.size)))
  demand (range.end?.any fun last => last ≤ sizeOfImage)
    (make (.malformed (.directoryOutsideImage range.address range.size)))

@[simp] theorem VirtualRange.outcome_narrateCheck (range : VirtualRange) (sizeOfImage : UInt32) :
    (range.narrateCheck sizeOfImage).outcome = range.checkDirectory sizeOfImage := by
  simp [narrateCheck, checkDirectory]

namespace Image

/-- The section table of an image. -/
def narrateSectionTable (image : Image) : Narrated LookupError SectionTable :=
  orElse (make (.contract Violation.sectionTableOutsideBuffer)) image.sections?

/-- Find the debug slot of an image. Sums are looked at before they are used, also
    those that always fit. -/
def narrateSlotOffset (image : Image) (options : Options) : Narrated LookupError Nat :=
  match image.format with
  | .te _ => do
    demand options.allowTe (make (.contract Violation.teDisabled))
    return teSlotOffset
  | .pe kind headerOffset => do
    let optionalOffset ← orElse (make (.contract Violation.optionalOffsetOverflow))
      (size64? (headerOffset.toNat + coffHeaderSize))
    let count ← orElse (make (.contract Violation.optionalHeaderOutsideFile))
      ((size64? (optionalOffset + kind.countOffset)).bind image.buffer.word32?)
    demand (debugSlot < count.toNat) (make (.absent .noDirectory))
    orElse (make (.contract Violation.optionalOffsetOverflow))
      (size64? (optionalOffset + kind.slotOffset debugSlot))

/-- Read the virtual range that the debug slot of an image announces. -/
def narrateAnnouncedRange (image : Image) (options : Options) :
    Narrated LookupError VirtualRange := do
  let offset ← image.narrateSlotOffset options
  orElse (make (.contract Violation.slotOutsideFile))
    ((image.buffer.slice? offset slotSize).bind VirtualRange.decode?)

/-- Find the place of a virtual range, and tell in which section it is. -/
def narratePlace (image : Image) (range : VirtualRange) (options : Options) :
    Narrated LookupError Placement := do
  let table ← image.narrateSectionTable
  let (sectionIndex, header) ← orElse
    (make (.malformed (.directoryOutsideSections range.address))) (table.containing? range)
  let distance := range.address - header.virtualAddress
  demand ((Word.add? distance range.size).any fun last => last ≤ header.rawSize)
    (make (.malformed (.directoryExceedsRawData sectionIndex)))
  let offset ← orElse (make (.malformed .directoryOffsetOverflow))
    (Word.add? header.rawPointer distance)
  let compensation := image.compensation options
  demand (compensation ≤ header.rawPointer) (make (.contract Violation.strippedPastRawData))
  let fileOffset := offset - compensation
  demand (Word.isAligned fileOffset 4) (make (.malformed (.directoryMisaligned fileOffset)))
  announce (.directoryInSection header.label sectionIndex fileOffset)
  return { sectionIndex, header, fileOffset }

/-- Find the debug directory of an image, and tell where it is. -/
def narrateDirectory (image : Image) (options : Options) :
    Narrated LookupError DebugDirectory := do
  demand options.debugSupport (make (.absent .supportDisabled))
  let range ← image.narrateAnnouncedRange options
  range.narrateCheck image.sizeOfImage
  let placement ← image.narratePlace range options
  let directory ← orElse (make (.malformed (.directoryOutsideFile placement.fileOffset)))
    (DebugDirectory.ofBuffer? image.buffer placement.fileOffset range.size)
  announce (.directoryMapped placement.fileOffset range.entryCount)
  return directory

/-- Find the path in the record that an entry describes, and tell it. -/
def narrateRecordPath (image : Image) (entry : DebugEntry) (options : Options) :
    Narrated LookupError SymbolPath := do
  let size := entry.dataSize
  demand (4 ≤ size) (make (.malformed (.recordTooSmall size)))
  let offset ← orElse (make (.malformed (.recordInStrippedHeader entry.rawPointer)))
    (Word.sub? entry.rawPointer (image.compensation options))
  let record ← orElse (make (.malformed (.recordOutsideFile offset size)))
    ((Word.checkedEnd offset size image.fileSize).bind fun _ =>
      image.buffer.slice? offset.toNat size.toNat)
  demand (Word.isAligned offset 4) (make (.malformed (.recordMisaligned offset)))
  let word := (record.word32? 0).getD 0
  let signature ← orElse (make (.malformed (.unknownSignature word))) (Signature.ofWord? word)
  let pathSize ← orElse (make (.malformed (.recordTooSmall size)))
    (Word.sub? size signature.headerSize)
  demand (pathSize ≠ 0) (make (.malformed .emptyPath))
  let bytes : Buffer := record.extract signature.headerSize.toNat record.size
  demand (bytes.byte? (bytes.size - 1) = some 0) (make (.malformed .unterminatedPath))
  let path : SymbolPath := { bytes, offset := offset + signature.headerSize, signature }
  announce (.pathFound path.signature path.offset path.size)
  return path

/-- Find the path that an image names, and tell every stage on the way. -/
def narratePath (image : Image) (options : Options) : Narrated LookupError SymbolPath := do
  let directory ← image.narrateDirectory options
  let (index, entry) ← orElse (make (.absent .noCodeViewEntry)) directory.codeView?
  announce (.codeViewFound index entry.dataSize)
  image.narrateRecordPath entry options

@[simp] theorem outcome_narrateSectionTable (image : Image) :
    image.narrateSectionTable.outcome = image.sectionTable := by
  simp [narrateSectionTable, sectionTable]

/-- The sums on the way to the debug slot always fit, so it makes no difference
    that they are looked at. -/
@[simp] theorem outcome_narrateSlotOffset (image : Image) (options : Options) :
    (image.narrateSlotOffset options).outcome = image.slotOffset options := by
  unfold narrateSlotOffset slotOffset
  cases image.format with
  | te stripped => simp
  | pe kind headerOffset =>
      have hstart := headerOffset.toNat_lt
      have hword : UInt64.size = 18446744073709551616 := rfl
      have hsum : ∀ n ≤ 200, size64? (headerOffset.toNat + n) = some (headerOffset.toNat + n) :=
        fun n hn => size64?_of_lt (by omega)
      have hoptional := hsum coffHeaderSize (by decide)
      have hcount := hsum (coffHeaderSize + kind.countOffset) (by cases kind <;> decide)
      have hslot := hsum (coffHeaderSize + kind.slotOffset debugSlot) (by cases kind <;> decide)
      rw [← Nat.add_assoc] at hcount hslot
      have hfound : ∀ (error : LookupError) (value : Nat),
          require error (some value) = pure value := fun _ _ => rfl
      simp [hoptional, hcount, hslot, hfound]

@[simp] theorem outcome_narrateAnnouncedRange (image : Image) (options : Options) :
    (image.narrateAnnouncedRange options).outcome = image.announcedRange options := by
  simp [narrateAnnouncedRange, announcedRange]

@[simp] theorem outcome_narratePlace (image : Image) (range : VirtualRange) (options : Options) :
    (image.narratePlace range options).outcome = image.place range options := by
  simp [narratePlace, place]

@[simp] theorem outcome_narrateDirectory (image : Image) (options : Options) :
    (image.narrateDirectory options).outcome = image.debugDirectory options := by
  simp [narrateDirectory, debugDirectory, directoryAt]

@[simp] theorem outcome_narrateRecordPath (image : Image) (entry : DebugEntry)
    (options : Options) :
    (image.narrateRecordPath entry options).outcome = image.recordPath entry options := by
  simp [narrateRecordPath, recordPath]

@[simp] theorem outcome_narratePath (image : Image) (options : Options) :
    (image.narratePath options).outcome = image.symbolPath options := by
  simp [narratePath, symbolPath, DebugDirectory.codeViewEntry]

end Image

/-- Load a buffer as an image, and tell what it is. A buffer that is refused
    goes without an event. -/
def narrateLoad (buffer : Buffer) (options : Options) : Narrated LoadError Image := do
  let image ← .silent (Image.load buffer options)
  announce (.imageClassified image.format image.sizeOfImage image.sectionCount image.fileSize)
  return image

/-- Find the path that a buffer names, and tell everything on the way. -/
def narrateLocate (buffer : Buffer) (options : Options) : Narrated Failure SymbolPath := do
  announce (.lookupStarted buffer.size)
  demand options.debugSupport (do return .lookup (← make (.absent .supportDisabled)))
  let image ← (narrateLoad buffer options).mapError .load
  (image.narratePath options).mapError .lookup

@[simp] theorem outcome_narrateLoad (buffer : Buffer) (options : Options) :
    (narrateLoad buffer options).outcome = Image.load buffer options := by
  simp only [narrateLoad, Narrated.outcome_bind, Narrated.outcome_silent,
    Narrated.outcome_announce, Narrated.outcome_pure]
  cases Image.load buffer options <;> rfl

@[simp] theorem outcome_narrateLocate (buffer : Buffer) (options : Options) :
    (narrateLocate buffer options).outcome = locate buffer options := by
  simp only [narrateLocate, locate, Narrated.outcome_announce, Narrated.outcome_bind,
    Narrated.outcome_mapError, outcome_narrateLoad, Image.outcome_narratePath]
  cases hsupport : options.debugSupport <;> rfl

end SymbolLocator
