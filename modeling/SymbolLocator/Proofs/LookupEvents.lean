import SymbolLocator.Narration
import SymbolLocator.Proofs.LoadedLookup

/-!
# Events of a Lookup

What an observer of a lookup learns.

A lookup passes four stages, and reports one event for each that it has
passed. If it fails, it reports that as well, once and at the end. So the
events are a prefix of one fixed sequence and at most one failure, and both
can be told from the outcome: its error says how many stages were passed.

That a failure is reported iff there is one is a matter of how the lookup is
written. The report is made with the error. If an error were made in front of the
check that needs it, a lookup that succeeds would report a failure, and if one
were made and another given, the report would be of the wrong one.

`Narrated.Tells` says of any part of a lookup, which begins behind some stages
and ends behind others, what it reports. The rules are one per way of writing a
narrated computation, and every stage is taken through them line by line. What an
event says is carried along, since it is about values that are at hand only where
the event is reported.

Nothing is presumed of the image. For one that was loaded, there is more to
say: a lookup never reports an error of the program.

## Main definitions

* `stageMessages`: The messages of the four stages, in order.
* `stagesPassed`: How many stages a lookup has passed, by its outcome.
* `failureEvents`: The failure that is reported at the end.
* `FailsBehind`: The stage that the failures of a computation belong to.
* `Event.TrueOf`: An event shows the values that a lookup gives.
* `Narrated.Tells`: A part of a lookup reports the stages it passes.
* `Image.ToldBy`: The events of a lookup tell what happened.
* `ToldFrom`: So do those of a lookup in a buffer.

## Theorems

* `Narrated.tells_orElse`, `Narrated.tells_demand`: A check that fails reports
  the error it gives, and one that passes reports nothing.
* `Narrated.tells_bind`: The events of a sequence.
* `Image.tells_narrateRecordPath`: The events of taking a record apart.
* `Image.toldBy_narratePath`: The events of a lookup in any image.
* `toldFrom_narrateLocate`: The events of a lookup in a buffer.
* `events_tell_what_happened`: All of it together.
-/

namespace SymbolLocator

variable {α β : Type}

/-! ### Stages -/

/-- What is reported of the stages of a lookup, from first to last. -/
def stageMessages : List String := [
  "debug directory in section",
  "debug directory mapped",
  "CodeView entry found",
  "PDB path extracted"]

/-- How many stages a lookup has passed that finds this defect. -/
def Defect.stagesPassed : Defect → Nat
  | directoryNotWhole _ => 0
  | directoryOutsideImage _ _ => 0
  | directoryOutsideSections _ => 0
  | directoryExceedsRawData _ => 0
  | directoryOffsetOverflow => 0
  | directoryMisaligned _ => 0
  | directoryOutsideFile _ => 1
  | recordTooSmall _ => 3
  | recordInStrippedHeader _ => 3
  | recordOutsideFile _ _ => 3
  | recordMisaligned _ => 3
  | unknownSignature _ => 3
  | emptyPath => 3
  | unterminatedPath => 3

/-- How many stages a lookup has passed that fails like this. -/
def LookupError.stagesPassed : LookupError → Nat
  | absent .noCodeViewEntry => 2
  | absent _ => 0
  | malformed defect => defect.stagesPassed
  | contract _ => 0

/-- How many stages have been passed behind a part of a lookup that ends behind
    `total` of them if it succeeds. -/
def stagesPassed (total : Nat) : Except LookupError α → Nat
  | .ok _ => total
  | .error error => error.stagesPassed

/-- What is reported of a failure, if there is one. -/
def failureEvents : Except LookupError α → List Event
  | .ok _ => []
  | .error error => [.lookupFailed error]

theorem LookupError.stagesPassed_le (error : LookupError) : error.stagesPassed ≤ 3 := by
  cases error with
  | absent absence => cases absence <;> decide
  | malformed defect => cases defect <;> exact Nat.le_of_ble_eq_true rfl
  | contract violation => exact Nat.zero_le 3

/-- A lookup has passed all stages iff it succeeds. -/
theorem stagesPassed_eq_four_iff {outcome : Except LookupError α} :
    stagesPassed 4 outcome = 4 ↔ ∃ value, outcome = .ok value := by
  cases outcome with
  | ok value => exact ⟨fun _ => ⟨value, rfl⟩, fun _ => rfl⟩
  | error error =>
      have hle := error.stagesPassed_le
      refine ⟨fun h => ?_, fun ⟨value, h⟩ => ?_⟩
      · rw [stagesPassed] at h
        omega
      · simp only [reduceCtorEq] at h

/-! ### Where a failure belongs -/

/-- Every failure of the computation is one behind `passed` stages of a
    lookup. -/
def FailsBehind (passed : Nat) (outcome : Except LookupError α) : Prop :=
  ∀ error, outcome = .error error → error.stagesPassed = passed

/-! ### Telling stages -/

/-- The event reports that a lookup has passed a stage, `passed` others being
    behind it. -/
structure Event.IsStage (event : Event) (passed : Nat) : Prop where
  kind : event.kind = .point
  level : event.level = .trace
  message : stageMessages[passed]? = some event.message

namespace Narrated

/-- A part of a lookup that begins behind `before` stages, and ends behind
    `total` of them if it succeeds. It reports the stages that it passes and its
    failure, and `holds` of everything it reports of the stages. -/
def Tells (run : Narrated LookupError α) (before total : Nat) (holds : Event → Prop) : Prop :=
  ∃ stages, run.events = stages ++ failureEvents run.outcome ∧
    stageMessages.take before ++ stages.map Event.message =
      stageMessages.take (stagesPassed total run.outcome) ∧
    (∀ event ∈ stages, event.kind = .point ∧ event.level = .trace) ∧
    ∀ event ∈ stages, holds event

variable {holds : Event → Prop} {before total : Nat}

theorem tells_pure (value : α) : (pure value : Narrated LookupError α).Tells before before holds :=
  ⟨[], rfl, List.append_nil _, List.forall_mem_nil _, List.forall_mem_nil _⟩

theorem tells_fail {error : LookupError} (h : error.stagesPassed = before) :
    (fail (make error) : Narrated LookupError α).Tells before total holds := by
  refine ⟨[], rfl, ?_, List.forall_mem_nil _, List.forall_mem_nil _⟩
  rw [List.map_nil, List.append_nil, ← h]
  rfl

theorem tells_orElse {error : LookupError} (h : error.stagesPassed = before)
    (option : Option α) : (orElse (make error) option).Tells before before holds := by
  cases option with
  | some value => exact tells_pure value
  | none => exact tells_fail h

theorem tells_demand {error : LookupError} (h : error.stagesPassed = before) (condition : Prop)
    [Decidable condition] : (demand condition (make error)).Tells before before holds := by
  unfold demand
  by_cases hcondition : condition
  · rw [if_pos hcondition]
    exact tells_pure ()
  · rw [if_neg hcondition]
    exact tells_fail h

theorem tells_announce {event : Event} (hstage : event.IsStage before) (hholds : holds event) :
    (announce event : Narrated LookupError Unit).Tells before (before + 1) holds := by
  refine ⟨[event], rfl, ?_, ?_, List.forall_mem_singleton.mpr hholds⟩
  · show _ = stageMessages.take (before + 1)
    rw [List.take_add_one, hstage.message]
    rfl
  · exact List.forall_mem_singleton.mpr ⟨hstage.kind, hstage.level⟩

/-- In a sequence, the second part begins behind the stages that the first has
    passed, unless the first fails. -/
theorem tells_bind {middle : Nat} {first : Narrated LookupError α}
    {next : α → Narrated LookupError β} (hfirst : first.Tells before middle holds)
    (hnext : ∀ value, first.outcome = .ok value → (next value).Tells middle total holds) :
    (first >>= next).Tells before total holds := by
  rcases hfirst with ⟨stages, hevents, hmessages, htraces, hholds⟩
  rw [Tells, events_bind, outcome_bind, hevents]
  cases hrun : first.outcome with
  | error error =>
      rw [hrun] at hmessages
      refine ⟨stages, ?_, hmessages, htraces, hholds⟩
      rw [List.append_nil]
      rfl
  | ok value =>
      rw [hrun] at hmessages
      rcases hnext value hrun with ⟨others, hevents', hmessages', htraces', hholds'⟩
      refine ⟨stages ++ others, ?_, ?_, ?_, ?_⟩
      · rw [failureEvents, List.append_nil, List.append_assoc]
        exact congrArg (stages ++ ·) hevents'
      · rw [List.map_append, ← List.append_assoc, hmessages]
        exact hmessages'
      · exact List.forall_mem_append.mpr ⟨htraces, htraces'⟩
      · exact List.forall_mem_append.mpr ⟨hholds, hholds'⟩

/-! The first part is mostly a check or a report. -/

theorem tells_orElse_bind {error : LookupError} {option : Option α}
    {next : α → Narrated LookupError β} (h : error.stagesPassed = before)
    (hnext : ∀ value, option = some value → (next value).Tells before total holds) :
    (orElse (make error) option >>= next).Tells before total holds := by
  refine tells_bind (tells_orElse h option) fun value hvalue => ?_
  rw [outcome_orElse_make, require_eq_ok_iff] at hvalue
  exact hnext value hvalue

theorem tells_demand_bind {error : LookupError} {condition : Prop} [Decidable condition]
    {next : Unit → Narrated LookupError β} (h : error.stagesPassed = before)
    (hnext : condition → (next ()).Tells before total holds) :
    (demand condition (make error) >>= next).Tells before total holds := by
  refine tells_bind (tells_demand h condition) fun _ hvalue => ?_
  rw [outcome_demand_make, ensure_eq_ok_iff] at hvalue
  exact hnext hvalue

theorem tells_announce_bind {event : Event} {next : Unit → Narrated LookupError β}
    (hstage : event.IsStage before) (hholds : holds event)
    (hnext : (next ()).Tells (before + 1) total holds) :
    (announce event >>= next).Tells before total holds :=
  tells_bind (tells_announce hstage hholds) fun _ _ => hnext

/-- No failure is one behind all stages, so if three have been passed, a failure is
    one behind these. -/
theorem Tells.failsBehind_three {run : Narrated LookupError α} (h : run.Tells 3 total holds) :
    FailsBehind 3 run.outcome := by
  intro error herror
  rcases h with ⟨stages, -, hmessages, -, -⟩
  have hle := error.stagesPassed_le
  have hlength := congrArg List.length hmessages
  rw [herror, stagesPassed, List.length_append, List.length_take, List.length_take] at hlength
  have hfour : stageMessages.length = 4 := rfl
  omega

end Narrated

/-! ### What events say -/

/-- The fields of an event are the values that a lookup in the image gives. -/
def Event.TrueOf (image : Image) (options : Options) (event : Event) : Prop :=
  match event with
  | .lookupStarted _ => False
  | .imageClassified _ _ _ _ => False
  | .directoryInSection _ _ _ => ∃ range placement,
    image.announcedRange options = .ok range ∧ image.place range options = .ok placement ∧
      (∀ directory, image.debugDirectory options = .ok directory →
        directory.fileOffset = placement.fileOffset) ∧
      event.fields = [
        ("section", .text placement.header.label),
        ("index", .number placement.sectionIndex),
        ("file_offset", .number placement.fileOffset.toNat)]
  | .directoryMapped _ _ => ∃ directory, image.debugDirectory options = .ok directory ∧
      event.fields = [
        ("file_offset", .number directory.fileOffset.toNat),
        ("entries", .number directory.size)]
  | .codeViewFound _ _ => ∃ directory index entry,
    image.debugDirectory options = .ok directory ∧ directory.codeView? = some (index, entry) ∧
      event.fields = [("index", .number index), ("size", .number entry.dataSize.toNat)]
  | .pathFound _ _ _ => ∃ path, image.symbolPath options = .ok path ∧
      event.fields = [
        ("signature", .text path.signature.name),
        ("offset", .number path.offset.toNat),
        ("len", .number path.size)]
  | .lookupFailed error => image.symbolPath options = .error error

namespace Image

variable {image : Image} {options : Options}

theorem debugDirectory_eq_ok_iff {directory : DebugDirectory} :
    image.debugDirectory options = .ok directory ↔
      options.debugSupport = true ∧ ∃ range placement, image.announcedRange options = .ok range ∧
        range.checkDirectory image.sizeOfImage = .ok () ∧
        image.place range options = .ok placement ∧
        image.directoryAt placement.fileOffset range.size = .ok directory := by
  simp only [debugDirectory, bind_eq_ok_iff, ensure_eq_ok_iff, exists_const]
  constructor
  · intro h
    rcases h with ⟨hsupport, range, hrange, _, hcheck, placement, hplace, hview⟩
    exact ⟨hsupport, range, placement, hrange, hcheck, hplace, hview⟩
  · intro h
    rcases h with ⟨hsupport, range, placement, hrange, hcheck, hplace, hview⟩
    exact ⟨hsupport, range, hrange, (), hcheck, placement, hplace, hview⟩

theorem fileOffset_of_directoryAt {fileOffset size : UInt32} {directory : DebugDirectory}
    (h : image.directoryAt fileOffset size = .ok directory) : directory.fileOffset = fileOffset :=
  (DebugDirectory.ofBuffer?_eq_some_iff.mp (require_eq_ok_iff.mp h)).2

-- The number that is reported is that of the entries the view has.
theorem entryCount_of_directoryAt {range : VirtualRange} {fileOffset : UInt32}
    {directory : DebugDirectory} (h : image.directoryAt fileOffset range.size = .ok directory) :
    range.entryCount.toNat = directory.size := by
  have hslice := (DebugDirectory.ofBuffer?_eq_some_iff.mp (require_eq_ok_iff.mp h)).1
  rw [VirtualRange.entryCount, UInt32.toNat_div, DebugDirectory.size, Buffer.size_slice hslice]
  rfl

theorem trueOf_directoryInSection {range : VirtualRange} {placement : Placement}
    (hrange : image.announcedRange options = .ok range)
    (hplace : image.place range options = .ok placement) :
    Event.TrueOf image options (.directoryInSection placement.header.label placement.sectionIndex
      placement.fileOffset) := by
  refine ⟨range, placement, hrange, hplace, fun directory hdirectory => ?_, rfl⟩
  rcases debugDirectory_eq_ok_iff.mp hdirectory with
    ⟨-, range', placement', hrange', -, hplace', hview⟩
  -- A view of the same image is at the same place.
  rw [hrange, Except.ok.injEq] at hrange'
  rw [← hrange', hplace, Except.ok.injEq] at hplace'
  rw [fileOffset_of_directoryAt hview, hplace']

theorem trueOf_directoryMapped {range : VirtualRange} {fileOffset : UInt32}
    {directory : DebugDirectory} (hdirectory : image.debugDirectory options = .ok directory)
    (hview : image.directoryAt fileOffset range.size = .ok directory) :
    Event.TrueOf image options (.directoryMapped fileOffset range.entryCount) := by
  refine ⟨directory, hdirectory, ?_⟩
  rw [← entryCount_of_directoryAt hview, fileOffset_of_directoryAt hview]
  rfl

/-! ### Whole lookups -/

section

open Narrated

variable {holds : Event → Prop}

theorem tells_narrateSlotOffset : (image.narrateSlotOffset options).Tells 0 0 holds := by
  unfold narrateSlotOffset
  cases image.format with
  | te stripped => exact tells_demand_bind rfl fun _ => tells_pure _
  | pe kind headerOffset =>
      refine tells_orElse_bind rfl fun optionalOffset _ => ?_
      refine tells_orElse_bind rfl fun count _ => ?_
      exact tells_demand_bind rfl fun _ => tells_orElse rfl _

theorem tells_narrateAnnouncedRange :
    (image.narrateAnnouncedRange options).Tells 0 0 holds :=
  tells_bind tells_narrateSlotOffset fun _ _ => tells_orElse rfl _

theorem tells_narrateCheck (range : VirtualRange) (sizeOfImage : UInt32) :
    (range.narrateCheck sizeOfImage).Tells 0 0 holds := by
  refine tells_demand_bind rfl fun _ => ?_
  exact tells_demand_bind rfl fun _ => tells_demand rfl _

theorem tells_narratePlace {range : VirtualRange}
    (hrange : image.announcedRange options = .ok range) :
    (image.narratePlace range options).Tells 0 1 (Event.TrueOf image options) := by
  refine tells_orElse_bind rfl fun table htable => ?_
  refine tells_orElse_bind rfl fun ⟨sectionIndex, header⟩ hhit => ?_
  refine tells_demand_bind rfl fun hraw => ?_
  refine tells_orElse_bind rfl fun offset hoffset => ?_
  refine tells_demand_bind rfl fun hstripped => ?_
  refine tells_demand_bind rfl fun haligned => ?_
  have hplace : image.place range options =
      .ok { sectionIndex, header, fileOffset := offset - image.compensation options } := by
    simp only [place, sectionTable, bind_eq_ok_iff, require_eq_ok_iff, ensure_eq_ok_iff]
    exact ⟨table, htable, _, hhit, (), hraw, offset, hoffset, (), hstripped, (), haligned, rfl⟩
  exact tells_announce_bind ⟨rfl, rfl, rfl⟩ (trueOf_directoryInSection hrange hplace)
    (tells_pure _)

theorem tells_narrateDirectory :
    (image.narrateDirectory options).Tells 0 2 (Event.TrueOf image options) := by
  refine tells_demand_bind rfl fun hsupport => ?_
  refine tells_bind tells_narrateAnnouncedRange fun range hrange => ?_
  refine tells_bind (tells_narrateCheck range _) fun _ hcheck => ?_
  rw [outcome_narrateAnnouncedRange] at hrange
  rw [VirtualRange.outcome_narrateCheck] at hcheck
  refine tells_bind (tells_narratePlace hrange) fun placement hplace => ?_
  rw [outcome_narratePlace] at hplace
  refine tells_orElse_bind rfl fun directory hfound => ?_
  have hview : image.directoryAt placement.fileOffset range.size = .ok directory :=
    require_eq_ok_iff.mpr hfound
  have hdirectory := debugDirectory_eq_ok_iff.mpr
    ⟨hsupport, range, placement, hrange, hcheck, hplace, hview⟩
  exact tells_announce_bind ⟨rfl, rfl, rfl⟩ (trueOf_directoryMapped hdirectory hview)
    (tells_pure _)

theorem tells_narrateRecordPath {entry : DebugEntry}
    (hholds : ∀ path, image.recordPath entry options = .ok path →
      holds (.pathFound path.signature path.offset path.size)) :
    (image.narrateRecordPath entry options).Tells 3 4 holds := by
  refine tells_demand_bind rfl fun hsize => ?_
  refine tells_orElse_bind rfl fun offset hoffset => ?_
  refine tells_orElse_bind rfl fun record hrecord => ?_
  refine tells_demand_bind rfl fun haligned => ?_
  refine tells_orElse_bind rfl fun signature hsignature => ?_
  refine tells_orElse_bind rfl fun pathSize hpathSize => ?_
  refine tells_demand_bind rfl fun hnonempty => ?_
  refine tells_demand_bind rfl fun hterminated => ?_
  refine tells_announce_bind ⟨rfl, rfl, rfl⟩ (hholds _ ?_) (tells_pure _)
  simp only [recordPath, bind_eq_ok_iff, require_eq_ok_iff, ensure_eq_ok_iff]
  exact ⟨(), hsize, offset, hoffset, record, hrecord, (), haligned, signature, hsignature,
    pathSize, hpathSize, (), hnonempty, (), hterminated, rfl⟩

theorem tells_narratePath :
    (image.narratePath options).Tells 0 4 (Event.TrueOf image options) := by
  refine tells_bind tells_narrateDirectory fun directory hdirectory => ?_
  rw [outcome_narrateDirectory] at hdirectory
  refine tells_orElse_bind rfl fun hit hhit => ?_
  refine tells_announce_bind ⟨rfl, rfl, rfl⟩ ⟨directory, hit.1, hit.2, hdirectory, hhit, rfl⟩ ?_
  refine tells_narrateRecordPath fun path hpath => ⟨path, ?_, rfl⟩
  have hentry : directory.codeViewEntry = .ok hit := require_eq_ok_iff.mpr hhit
  rw [symbolPath_eq_recordPath hdirectory hentry, hpath]

/-- Whatever the entry is, a record that is not taken apart fails behind three
    stages. -/
theorem recordPath_failsBehind (image : Image) (options : Options) (entry : DebugEntry) :
    FailsBehind 3 (image.recordPath entry options) := by
  have htells : (image.narrateRecordPath entry options).Tells 3 4 fun _ => True :=
    tells_narrateRecordPath fun _ _ => trivial
  rw [← outcome_narrateRecordPath]
  exact htells.failsBehind_three

end

/-- What is reported of a lookup in the image tells what happened: `stages` are
    the stages that were passed, and nothing else is reported but the
    failure. -/
structure ToldBy (image : Image) (options : Options) (stages : List Event) : Prop where
  outcome : (image.narratePath options).outcome = image.symbolPath options
  events : (image.narratePath options).events =
    stages ++ failureEvents (image.symbolPath options)
  messages : stages.map Event.message =
    stageMessages.take (stagesPassed 4 (image.symbolPath options))
  length : stages.length = stagesPassed 4 (image.symbolPath options)
  complete : stages.length = 4 ↔ ∃ path, image.symbolPath options = .ok path
  traces : ∀ event ∈ stages, event.kind = .point ∧ event.level = .trace
  accurate : ∀ event ∈ (image.narratePath options).events, event.TrueOf image options

/-- The events of a lookup tell what happened, in any image. -/
theorem toldBy_narratePath (image : Image) (options : Options) :
    ∃ stages, image.ToldBy options stages := by
  have htells : (image.narratePath options).Tells 0 4 (Event.TrueOf image options) :=
    tells_narratePath
  rcases htells with ⟨stages, hevents, hmessages, htraces, hholds⟩
  rw [List.take_zero, List.nil_append, outcome_narratePath] at hmessages
  rw [outcome_narratePath] at hevents
  have hpassed : stagesPassed 4 (image.symbolPath options) ≤ stageMessages.length := by
    cases image.symbolPath options with
    | ok path => exact Nat.le_refl 4
    | error error => exact Nat.le_succ_of_le error.stagesPassed_le
  have hlength : stages.length = stagesPassed 4 (image.symbolPath options) := by
    rw [← List.length_map Event.message, hmessages, List.length_take, Nat.min_eq_left hpassed]
  refine ⟨stages, outcome_narratePath image options, hevents, hmessages, hlength, ?_, htraces, ?_⟩
  · rw [hlength]
    exact stagesPassed_eq_four_iff
  · rw [hevents]
    refine List.forall_mem_append.mpr ⟨hholds, fun event hmem => ?_⟩
    cases houtcome : image.symbolPath options with
    | ok path =>
        rw [houtcome] at hmem
        exact absurd hmem List.not_mem_nil
    | error error =>
        rw [houtcome] at hmem
        rw [List.mem_singleton.mp hmem]
        exact houtcome

/-! ### Loaded images -/

theorem level_ne_error_of_noContract {error : LookupError} (h : error.isContract = false) :
    (Event.lookupFailed error).level ≠ .error := by
  cases error with
  | absent absence => exact Level.noConfusion
  | malformed defect => exact Level.noConfusion
  | contract violation => exact absurd h Bool.true_eq_false.mp

/-- No lookup in a well-formed image reports an error of the program. -/
theorem WellFormed.level_ne_error (hwell : image.WellFormed)
    (hadmitted : image.AdmittedBy options) :
    ∀ event ∈ (image.narratePath options).events, event.level ≠ .error := by
  rcases toldBy_narratePath image options with ⟨stages, htold⟩
  rw [htold.events]
  refine List.forall_mem_append.mpr ⟨fun event hmem => ?_, fun event hmem => ?_⟩
  · rw [(htold.traces event hmem).2]
    exact Level.noConfusion
  · cases houtcome : image.symbolPath options with
    | ok path =>
        rw [houtcome] at hmem
        exact absurd hmem List.not_mem_nil
    | error error =>
        rw [houtcome] at hmem
        rw [List.mem_singleton.mp hmem]
        have hpossible := hwell.possible_of_symbolPath hadmitted houtcome
        exact level_ne_error_of_noContract hpossible.noContract

end Image

/-- What is reported of a lookup in a buffer: that it begins, what the buffer
    is, and the lookup in the image. -/
theorem events_narrateLocate (buffer : Buffer) (options : Options) :
    (narrateLocate buffer options).events = .lookupStarted buffer.size ::
      if options.debugSupport then
        match Image.load buffer options with
        | .error _ => []
        | .ok image =>
          .imageClassified image.format image.sizeOfImage image.sectionCount image.fileSize ::
            (image.narratePath options).events
      else [.lookupFailed (.absent .supportDisabled)] := by
  unfold narrateLocate narrateLoad
  cases hsupport : options.debugSupport with
  | false => rfl
  | true =>
      cases hload : Image.load buffer options with
      | error error => rfl
      | ok image => rfl

/-- What is reported of a failure of a lookup in a buffer. That the buffer is
    refused goes without a report. -/
def reportedFailure : Except Failure α → List Event
  | .error (.lookup error) => [.lookupFailed error]
  | _ => []

theorem reportedFailure_mapError (outcome : Except LookupError α) :
    reportedFailure (outcome.mapError .lookup) = failureEvents outcome := by
  cases outcome with
  | ok value => rfl
  | error error => rfl

/-- What is reported of a lookup in the buffer tells what happened: that it begins,
    the stages that were passed, and the failure. The stages are what the buffer is
    and those of the lookup in the image, or none if there is no image. -/
structure ToldFrom (buffer : Buffer) (options : Options) (stages : List Event) : Prop where
  outcome : (narrateLocate buffer options).outcome = locate buffer options
  events : (narrateLocate buffer options).events =
    .lookupStarted buffer.size :: (stages ++ reportedFailure (locate buffer options))
  loaded : options.debugSupport = true → ∀ image, Image.load buffer options = .ok image →
    ∃ others, image.ToldBy options others ∧ stages =
      .imageClassified image.format image.sizeOfImage image.sectionCount image.fileSize :: others
  refused : ∀ error, Image.load buffer options = .error error → stages = []
  switchedOff : options.debugSupport = false → stages = []
  noError : ∀ event ∈ (narrateLocate buffer options).events, event.level ≠ .error

theorem level_narrateLocate_ne_error (buffer : Buffer) (options : Options) :
    ∀ event ∈ (narrateLocate buffer options).events, event.level ≠ .error := by
  rw [events_narrateLocate]
  refine List.forall_mem_cons.mpr ⟨Level.noConfusion, ?_⟩
  cases options.debugSupport with
  | false => exact List.forall_mem_singleton.mpr Level.noConfusion
  | true =>
      cases hload : Image.load buffer options with
      | error error => exact List.forall_mem_nil _
      | ok image =>
          exact List.forall_mem_cons.mpr ⟨Level.noConfusion,
            (Image.wellFormed_of_load hload).level_ne_error (Image.admitted_of_load hload)⟩

theorem locate_of_switchedOff {buffer : Buffer} {options : Options}
    (hsupport : options.debugSupport = false) :
    locate buffer options = .error (.lookup (.absent .supportDisabled)) := by
  rw [locate, hsupport]
  rfl

theorem locate_of_refused {buffer : Buffer} {options : Options} {error : LoadError}
    (hsupport : options.debugSupport = true) (hload : Image.load buffer options = .error error) :
    locate buffer options = .error (.load error) := by
  rw [locate, hsupport, hload]
  rfl

theorem locate_of_loaded {buffer : Buffer} {options : Options} {image : Image}
    (hsupport : options.debugSupport = true) (hload : Image.load buffer options = .ok image) :
    locate buffer options = (image.symbolPath options).mapError .lookup := by
  rw [locate, hsupport, hload]
  rfl

/-- The events of a lookup tell what happened, in any buffer. -/
theorem toldFrom_narrateLocate (buffer : Buffer) (options : Options) :
    ∃ stages, ToldFrom buffer options stages := by
  have houtcome := outcome_narrateLocate buffer options
  have hnoError := level_narrateLocate_ne_error buffer options
  have hevents := events_narrateLocate buffer options
  cases hsupport : options.debugSupport with
  | false =>
      refine ⟨[], houtcome, ?_, ?_, fun _ _ => rfl, fun _ => rfl, hnoError⟩
      · rw [hevents, hsupport, locate_of_switchedOff hsupport]
        rfl
      · rw [hsupport]
        exact fun h => nomatch h
  | true =>
      cases hload : Image.load buffer options with
      | error error =>
          refine ⟨[], houtcome, ?_, ?_, fun _ _ => rfl, fun _ => rfl, hnoError⟩
          · rw [hevents, hsupport, hload, locate_of_refused hsupport hload]
            rfl
          · rw [hload]
            exact fun _ _ h => nomatch h
      | ok image =>
          rcases Image.toldBy_narratePath image options with ⟨others, htold⟩
          refine ⟨.imageClassified image.format image.sizeOfImage image.sectionCount
            image.fileSize :: others, houtcome, ?_, ?_, ?_, ?_, hnoError⟩
          · rw [hevents, hsupport, hload, locate_of_loaded hsupport hload,
              reportedFailure_mapError, List.cons_append, ← htold.events]
            rfl
          · rw [hload]
            rintro - _ ⟨⟩
            exact ⟨others, htold, rfl⟩
          · rw [hload]
            exact fun _ h => nomatch h
          · rw [hsupport]
            exact fun h => nomatch h

/-! ### What an observer learns -/

/-- The event is a point in time that shows one text. -/
structure Event.Shows (event : Event) (level : Level) (message field text : String) : Prop where
  kind : event.kind = .point
  level : event.level = level
  message : event.message = message
  fields : event.fields = [(field, .text text)]

/-- The events of a lookup tell what happened. In any image, they are the stages
    that were passed and the failure, if there is one, with the values that the
    lookup gives. A failure to take a record apart is behind three stages,
    whatever the entry is. Each kind of failure is shown in its own way. In a
    buffer, the events are those of the lookup in its image, if it has one. And in
    a buffer, or an image that was loaded, nothing is reported as an error of
    the program. -/
theorem events_tell_what_happened :
    (∀ (image : Image) (options : Options), ∃ stages, image.ToldBy options stages) ∧
    (∀ (image : Image) (options : Options) (entry : DebugEntry),
      FailsBehind 3 (image.recordPath entry options)) ∧
    (∀ absence : Absence, (Event.lookupFailed (.absent absence)).Shows .trace
      "no PDB path" "reason" absence.reason) ∧
    (∀ defect : Defect, (Event.lookupFailed (.malformed defect)).Shows .debug
      "malformed debug data" "reason" defect.reason) ∧
    (∀ violation : String, (Event.lookupFailed (.contract violation)).Shows .error
      "image descriptor contract violated" "violation" violation) ∧
    (∀ (buffer : Buffer) (loading options : Options) (image : Image),
      Image.load buffer loading = .ok image → image.AdmittedBy options →
        ∀ event ∈ (image.narratePath options).events, event.level ≠ .error) ∧
    ∀ (buffer : Buffer) (options : Options), ∃ stages, ToldFrom buffer options stages := by
  refine ⟨Image.toldBy_narratePath, Image.recordPath_failsBehind, fun absence => ?_,
    fun defect => ?_, fun violation => ?_, fun buffer loading options image hload hadmitted => ?_,
    toldFrom_narrateLocate⟩
  · exact ⟨rfl, rfl, rfl, rfl⟩
  · exact ⟨rfl, rfl, rfl, rfl⟩
  · exact ⟨rfl, rfl, rfl, rfl⟩
  · exact (Image.wellFormed_of_load hload).level_ne_error hadmitted

theorem smallImage_events_tell :
    (∃ stages, smallLoaded.ToldBy .standard stages ∧ stages.length = 4) ∧
      ∀ event ∈ (smallLoaded.narratePath .standard).events, event.level ≠ .error := by
  rcases events_tell_what_happened with ⟨htold, -, -, -, -, hloaded, -⟩
  rcases htold smallLoaded .standard with ⟨stages, hstages⟩
  have hfound : ∃ path, smallLoaded.symbolPath .standard = .ok path :=
    exists_ok_of_isOk (by decide +kernel)
  exact ⟨⟨stages, hstages, hstages.complete.mpr hfound⟩,
    hloaded smallImage .standard .standard smallLoaded load_smallImage (Or.inl rfl)⟩

end SymbolLocator
