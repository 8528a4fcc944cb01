import SymbolLocator.Event
import SymbolLocator.Proofs.MessageForms

/-!
# Failures by Their Texts

A failure is known when its text is.

The text of a failure is all that is left of it in a log. That it can be traced
back is a property of all texts together: each has to be worded so that the
numbers in it have an end, and no two may be the same text for any numbers.

The wordings are listed here once more, as data, each with the failure that it
tells. They are collected as the texts are: those of absences and of defects are
put behind the words that say which of the two they are, and those of failures
to load and of failed lookups stand beside each other. A text of any failure is
in one of the wordings and tells that failure (`Failure.tells_message`), part by
part. That the wordings are told apart is then a computation on their outlines
(`failureWordings_unmistakable`).

The words in front decide nearly everything, but not all. Three failures of
sections begin alike and differ behind the index, and two defects of records
differ behind the offset. There the comparison goes on behind a number.

An event of a failed lookup shows the reason without the words in front. These
are given by the message of the event, so a failure is known from its event, too.

## Main definitions

* `absenceWordings`, `defectWordings`, `lookupWordings`, `loadWordings`,
  `failureWordings`: The texts of failures, as wordings.

## Theorems

* `Failure.tells_message`: The text of a failure tells that failure.
* `failureWordings_unmistakable`: No text tells two failures.
* `failures_identified_by_text`: Failures with the same text are the same.
-/

namespace SymbolLocator

/-! ### Lookups -/

/-- The reasons of absences. -/
def absenceWordings : List (Wording Absence) := [
  .of [.say "debug support disabled"] Absence.supportDisabled,
  .of [.say "image has no debug data directory"] Absence.noDirectory,
  .of [.say "debug directory is empty"] Absence.emptyDirectory,
  .of [.say "no CodeView debug entry"] Absence.noCodeViewEntry]

/-- The reasons of defects. -/
def defectWordings : List (Wording Defect) := [
  .of [.say "debug directory size ", .number .decimal, .say " is not a whole number of entries"]
    fun size => Defect.directoryNotWhole (.ofNat size),
  .of [.say "debug directory 0x", .number (.hexadecimal 8), .say "+0x", .number (.hexadecimal 1),
      .say " exceeds the image"]
    fun address size => Defect.directoryOutsideImage (.ofNat address) (.ofNat size),
  .of [.say "debug directory at 0x", .number (.hexadecimal 8),
      .say " is not contained in any section"]
    fun address => Defect.directoryOutsideSections (.ofNat address),
  .of [.say "debug directory exceeds the raw data of section ", .number .decimal]
    Defect.directoryExceedsRawData,
  .of [.say "debug directory file offset overflows"] Defect.directoryOffsetOverflow,
  .of [.say "debug directory file offset 0x", .number (.hexadecimal 1), .say " is misaligned"]
    fun offset => Defect.directoryMisaligned (.ofNat offset),
  .of [.say "debug directory at file offset 0x", .number (.hexadecimal 1),
      .say " exceeds the file"]
    fun offset => Defect.directoryOutsideFile (.ofNat offset),
  .of [.say "CodeView data of ", .number .decimal, .say " bytes cannot hold a signature"]
    fun size => Defect.recordTooSmall (.ofNat size),
  .of [.say "CodeView file offset 0x", .number (.hexadecimal 1),
      .say " lies inside the stripped header"]
    fun offset => Defect.recordInStrippedHeader (.ofNat offset),
  .of [.say "CodeView data 0x", .number (.hexadecimal 1), .say "+0x", .number (.hexadecimal 1),
      .say " exceeds the file"]
    fun offset size => Defect.recordOutsideFile (.ofNat offset) (.ofNat size),
  .of [.say "CodeView file offset 0x", .number (.hexadecimal 1), .say " is misaligned"]
    fun offset => Defect.recordMisaligned (.ofNat offset),
  .of [.say "unknown CodeView signature 0x", .number (.hexadecimal 8)]
    fun word => Defect.unknownSignature (.ofNat word),
  .of [.say "PDB path is empty"] Defect.emptyPath,
  .of [.say "PDB path is not NUL-terminated"] Defect.unterminatedPath]

/-- The words in front of the reason of an absence. -/
def absentWords : Words := ⟨"PDB path not found: ", _, rfl⟩

/-- The words in front of the reason of a defect. -/
def malformedWords : Words := ⟨"malformed debug data: ", _, rfl⟩

/-- The texts of contract violations, each of which has words of its own. -/
def contractWordings : List (Wording LookupError) := [
  .of [.say "image descriptor contract violated: ", .anything] LookupError.contract]

/-- The texts of failed lookups. -/
def lookupWordings : List (Wording LookupError) :=
  absenceWordings.map (.behind absentWords .absent) ++
    (defectWordings.map (.behind malformedWords .malformed) ++ contractWordings)

theorem Absence.tells_reason (absence : Absence) :
    Tells absenceWordings absence.reason absence := by
  cases absence with
  | supportDisabled => exact .of_getElem? 0 rfl () rfl rfl
  | noDirectory => exact .of_getElem? 1 rfl () rfl rfl
  | emptyDirectory => exact .of_getElem? 2 rfl () rfl rfl
  | noCodeViewEntry => exact .of_getElem? 3 rfl () rfl rfl

-- The wordings have numbers, and a word is the word with its number.
theorem Defect.tells_reason (defect : Defect) : Tells defectWordings defect.reason defect := by
  cases defect with
  | directoryNotWhole size =>
      exact .of_getElem? 0 rfl (size.toNat, ()) rfl (congrArg directoryNotWhole UInt32.ofNat_toNat)
  | directoryOutsideImage address size =>
      exact .of_getElem? 1 rfl (address.toNat, size.toNat, ()) rfl
        (congrArg₂ directoryOutsideImage UInt32.ofNat_toNat UInt32.ofNat_toNat)
  | directoryOutsideSections address =>
      exact .of_getElem? 2 rfl (address.toNat, ()) rfl
        (congrArg directoryOutsideSections UInt32.ofNat_toNat)
  | directoryExceedsRawData index => exact .of_getElem? 3 rfl (index, ()) rfl rfl
  | directoryOffsetOverflow => exact .of_getElem? 4 rfl () rfl rfl
  | directoryMisaligned offset =>
      exact .of_getElem? 5 rfl (offset.toNat, ()) rfl
        (congrArg directoryMisaligned UInt32.ofNat_toNat)
  | directoryOutsideFile offset =>
      exact .of_getElem? 6 rfl (offset.toNat, ()) rfl
        (congrArg directoryOutsideFile UInt32.ofNat_toNat)
  | recordTooSmall size =>
      exact .of_getElem? 7 rfl (size.toNat, ()) rfl (congrArg recordTooSmall UInt32.ofNat_toNat)
  | recordInStrippedHeader offset =>
      exact .of_getElem? 8 rfl (offset.toNat, ()) rfl
        (congrArg recordInStrippedHeader UInt32.ofNat_toNat)
  | recordOutsideFile offset size =>
      exact .of_getElem? 9 rfl (offset.toNat, size.toNat, ()) rfl
        (congrArg₂ recordOutsideFile UInt32.ofNat_toNat UInt32.ofNat_toNat)
  | recordMisaligned offset =>
      exact .of_getElem? 10 rfl (offset.toNat, ()) rfl
        (congrArg recordMisaligned UInt32.ofNat_toNat)
  | unknownSignature word =>
      exact .of_getElem? 11 rfl (word.toNat, ()) rfl (congrArg unknownSignature UInt32.ofNat_toNat)
  | emptyPath => exact .of_getElem? 12 rfl () rfl rfl
  | unterminatedPath => exact .of_getElem? 13 rfl () rfl rfl

theorem LookupError.tells_message (error : LookupError) :
    Tells lookupWordings error.message error := by
  cases error with
  | absent absence =>
      have htells := absence.tells_reason.behind absentWords LookupError.absent
      exact htells.append_left _
  | malformed defect =>
      have htells := defect.tells_reason.behind malformedWords LookupError.malformed
      exact (htells.append_left _).append_right _
  | contract violation =>
      have htells : Tells contractWordings (contract violation).message (contract violation) :=
        .of_getElem? 0 rfl (violation, ()) rfl rfl
      exact (htells.append_right _).append_right _

/-! ### All failures -/

/-- The texts of failures to load. -/
def loadWordings : List (Wording LoadError) := [
  .of [.say "Truncated header: expected ", .number .decimal, .say " bytes, got ",
      .number .decimal]
    LoadError.headerTruncated,
  .of [.say "Invalid image signature"] LoadError.unknownFormat,
  .of [.say "Invalid PE signature"] LoadError.noPeSignature,
  .of [.say "Invalid optional header magic: 0x", .number (.hexadecimal 4)]
    fun magic => LoadError.unknownMagic (.ofNat magic),
  .of [.say "TE images are prohibited"] LoadError.teProhibited,
  .of [.say "Invalid TE stripped size: ", .number .decimal]
    fun size => LoadError.strippedSizeTooSmall (.ofNat size),
  .of [.say "Optional header too small: ", .number .decimal, .say " bytes, need ",
      .number .decimal]
    fun size => LoadError.optionalHeaderTooSmall (.ofNat size),
  .of [.say "Section table exceeds the file"] LoadError.sectionTableOutsideFile,
  .of [.say "Section ", .number .decimal, .say " exceeds the image"]
    LoadError.sectionOutsideImage,
  .of [.say "Section ", .number .decimal, .say " raw data exceeds the file"]
    LoadError.sectionOutsideFile,
  .of [.say "Section ", .number .decimal, .say " overlaps or precedes the previous section"]
    LoadError.sectionOutOfOrder,
  .of [.say "Image buffer too large: ", .number .decimal, .say " bytes"]
    LoadError.bufferTooLarge]

/-- The texts of options that do not read, with any detail. -/
def optionsWordings : List (Wording Failure) := [
  .of [.say "Configuration error: ", .anything] Failure.options]

/-- The texts of all failures. -/
def failureWordings : List (Wording Failure) :=
  loadWordings.map (.as .load) ++ (lookupWordings.map (.as .lookup) ++ optionsWordings)

theorem LoadError.tells_message (error : LoadError) : Tells loadWordings error.message error := by
  cases error with
  | headerTruncated expected actual => exact .of_getElem? 0 rfl (expected, actual, ()) rfl rfl
  | unknownFormat => exact .of_getElem? 1 rfl () rfl rfl
  | noPeSignature => exact .of_getElem? 2 rfl () rfl rfl
  | unknownMagic magic =>
      exact .of_getElem? 3 rfl (magic.toNat, ()) rfl (congrArg unknownMagic UInt16.ofNat_toNat)
  | teProhibited => exact .of_getElem? 4 rfl () rfl rfl
  | strippedSizeTooSmall size =>
      exact .of_getElem? 5 rfl (size.toNat, ()) rfl
        (congrArg strippedSizeTooSmall UInt16.ofNat_toNat)
  | optionalHeaderTooSmall size required =>
      exact .of_getElem? 6 rfl (size.toNat, required, ()) rfl
        (congrArg₂ optionalHeaderTooSmall UInt16.ofNat_toNat rfl)
  | sectionTableOutsideFile => exact .of_getElem? 7 rfl () rfl rfl
  | sectionOutsideImage index => exact .of_getElem? 8 rfl (index, ()) rfl rfl
  | sectionOutsideFile index => exact .of_getElem? 9 rfl (index, ()) rfl rfl
  | sectionOutOfOrder index => exact .of_getElem? 10 rfl (index, ()) rfl rfl
  | bufferTooLarge size => exact .of_getElem? 11 rfl (size, ()) rfl rfl

theorem Failure.tells_message (failure : Failure) :
    Tells failureWordings failure.message failure := by
  cases failure with
  | load error =>
      have htells := error.tells_message.as Failure.load
      exact htells.append_left _
  | lookup error =>
      have htells := error.tells_message.as Failure.lookup
      exact (htells.append_left _).append_right _
  | options detail =>
      have htells : Tells optionsWordings (options detail).message (options detail) :=
        .of_getElem? 0 rfl (detail, ()) rfl rfl
      exact (htells.append_right _).append_right _

theorem failureWordings_unmistakable : Unmistakable failureWordings where
  readable := by decide
  apart := by decide +kernel

theorem Failure.eq_of_message {a b : Failure} (h : a.message = b.message) : a = b := by
  have ha := a.tells_message
  rw [h] at ha
  exact failureWordings_unmistakable.eq_of_tells ha b.tells_message

/-! ### Events -/

theorem eq_of_text_field {key text other : String}
    (h : [(key, FieldValue.text text)] = [(key, FieldValue.text other)]) : text = other := by
  simpa using h

/-- A failed lookup is known from its event: the message says of which kind the
    failure is, and the only field is the rest of its text. -/
theorem LookupError.eq_of_event {a b : LookupError}
    (hmessage : (Event.lookupFailed a).message = (Event.lookupFailed b).message)
    (hfields : (Event.lookupFailed a).fields = (Event.lookupFailed b).fields) : a = b := by
  have hkinds : "no PDB path" ≠ "malformed debug data" ∧
      "no PDB path" ≠ "image descriptor contract violated" ∧
      "malformed debug data" ≠ "image descriptor contract violated" := by decide
  -- The text of a lookup that failed is that of the failure.
  suffices h : a.message = b.message from Failure.lookup.inj (Failure.eq_of_message h)
  cases a with
  | absent absence =>
      cases b with
      | absent other => exact congrArg ("PDB path not found: " ++ ·) (eq_of_text_field hfields)
      | malformed other => exact absurd hmessage hkinds.1
      | contract other => exact absurd hmessage hkinds.2.1
  | malformed defect =>
      cases b with
      | absent other => exact absurd hmessage.symm hkinds.1
      | malformed other => exact congrArg ("malformed debug data: " ++ ·) (eq_of_text_field hfields)
      | contract other => exact absurd hmessage hkinds.2.2
  | contract violation =>
      cases b with
      | absent other => exact absurd hmessage.symm hkinds.2.1
      | malformed other => exact absurd hmessage.symm hkinds.2.2
      | contract other =>
          exact congrArg ("image descriptor contract violated: " ++ ·) (eq_of_text_field hfields)

/-- A failure is known from its text: failures with the same text are of the same
    kind, for the same reason, and with the same numbers. A failed lookup is
    known from its event as well. -/
theorem failures_identified_by_text :
    (∀ a b : Failure, a.message = b.message ↔ a = b) ∧
      ∀ a b : LookupError,
        ((Event.lookupFailed a).message = (Event.lookupFailed b).message ∧
          (Event.lookupFailed a).fields = (Event.lookupFailed b).fields) ↔ a = b := by
  refine ⟨fun a b => ⟨Failure.eq_of_message, fun h => congrArg _ h⟩, fun a b => ?_⟩
  constructor
  · intro h
    exact LookupError.eq_of_event h.1 h.2
  · intro h
    rw [h]
    exact ⟨rfl, rfl⟩

end SymbolLocator
