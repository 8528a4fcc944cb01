import Mathlib.Control.Monad.Basic
import Mathlib.Logic.Relation
import SymbolLocator.Proofs.PeGrammar

/-!
# Size Reports

What the sizes in a loading error are worth to the caller.

Three errors name sizes: that a header is not all there, that an optional
header is declared too small, and that too little was stripped off a TE image.
The size that is asked for is computed apart from the read that failed. Three
reads of the file header ask for all of it, the optional header is asked for up
to its end, and the data directories by a product with a number from the file.
Nothing in the code compares what is asked for with what is there.

It is always more than what is there. So a caller may take the report at its
word. If a header is not all there, extending the buffer to the length asked
for and trying again makes progress: whatever the new bytes are, and however
often this is repeated, no such report ever asks for the same length again, or
for less.

A report is shown to be true where it is made. Most are conditions of a list of
checks that do not hold, and there the argument is a comparison of numbers. The
section table has reports of its own, which name no size.

## Main definitions

* `LoadError.TrueIn`: What an error says of the sizes in a buffer is so.
* `ReportsTruth`: Whatever a computation reports is so.
* `Buffer.signatureStart`: Where a buffer that is no TE image has its PE
  signature.
* `Retry`: A caller extends the buffer to the length asked for.
* `Progresses`: Retrying is possible, and asks for more each time.

## Theorems

* `reportsTruth_of_follows`, `reportsTruth_bind`: How truth is shown.
* `Layout.readPe_reportsTruth`, `Layout.readTe_reportsTruth`,
  `Image.load_reportsTruth`: Headers of either kind, and whole buffers.
* `asked_le_of_retries`: What is asked for is there after any number of retries.
* `size_reports_hold`: All of it together.
-/

namespace SymbolLocator

variable {α β : Type}

/-! ### Reports -/

/-- What the error says of the sizes in the buffer is so, if a PE signature
    would be at `start`. An error that names no size says nothing of them. -/
def LoadError.TrueIn (error : LoadError) (buffer : Buffer) (start : Nat) : Prop :=
  match error with
  | .headerTruncated expected actual => actual = buffer.size ∧ actual < expected
  | .optionalHeaderTooSmall size required =>
    buffer.word16? (start + 20) = some size ∧ start + 24 + size.toNat ≤ buffer.size ∧
      size.toNat < required
  | .strippedSizeTooSmall size => buffer.word16? 6 = some size ∧ size.toNat < 40
  | _ => True

/-- Whatever the computation reports is so. -/
def ReportsTruth (buffer : Buffer) (start : Nat) (outcome : Except LoadError α) : Prop :=
  ∀ error, outcome = .error error → error.TrueIn buffer start

section Rules

variable {buffer : Buffer} {start : Nat}

theorem reportsTruth_ok (value : α) : ReportsTruth buffer start (.ok value) := by
  intro error h
  simp only [reduceCtorEq] at h

/-- It is enough that each error of a list is true where its condition is not. -/
theorem reportsTruth_of_follows {outcome : Except LoadError α} {checks : List (Check LoadError)}
    {described : α → Prop} (h : Follows outcome checks described)
    (hchecks : ∀ check ∈ checks, ¬ check.condition → check.error.TrueIn buffer start) :
    ReportsTruth buffer start outcome := by
  intro error herror
  rcases (h.eq_error_iff.mp herror).exists_failed with ⟨check, hmem, hfails, hcheck⟩
  rw [← hcheck]
  exact hchecks check hmem hfails

theorem reportsTruth_require {error : LoadError} {option : Option α}
    (h : option = none → error.TrueIn buffer start) :
    ReportsTruth buffer start (require error option) := by
  intro other hother
  rw [require_eq_error_iff] at hother
  rw [← hother.2]
  exact h hother.1

theorem reportsTruth_ensure {error : LoadError} {condition : Prop} [Decidable condition]
    (h : ¬ condition → error.TrueIn buffer start) :
    ReportsTruth buffer start (ensure condition error) := by
  intro other hother
  rw [ensure_eq_error_iff] at hother
  rw [← hother.2]
  exact h hother.1

theorem reportsTruth_bind {first : Except LoadError α} {next : α → Except LoadError β}
    (hfirst : ReportsTruth buffer start first)
    (hnext : ∀ value, first = .ok value → ReportsTruth buffer start (next value)) :
    ReportsTruth buffer start (first >>= next) := by
  intro error h
  rcases bind_eq_error_iff.mp h with herror | ⟨value, hvalue, herror⟩
  · exact hfirst error herror
  · exact hnext value hvalue error herror

end Rules

/-! ### Sections -/

section Sections

variable {buffer : Buffer} {start : Nat}

theorem SectionBounds.check_reportsTruth (bounds : SectionBounds) (index : Nat)
    (previousEnd : UInt32) (header : Section) :
    ReportsTruth buffer start (bounds.check index previousEnd header) := by
  refine reportsTruth_bind (reportsTruth_require fun _ => trivial) fun last _ => ?_
  refine reportsTruth_bind (reportsTruth_ensure fun _ => trivial) fun _ _ => ?_
  exact reportsTruth_bind (reportsTruth_ensure fun _ => trivial) fun _ _ => reportsTruth_ok _

/-- The loop over the sections names none of the sizes of headers, in a buffer of
    any length. -/
theorem SectionBounds.checkFrom_reportsTruth (bounds : SectionBounds) (headers : List Section)
    (index : Nat) (previousEnd : UInt32) :
    ReportsTruth buffer start (bounds.checkFrom index previousEnd headers) := by
  induction headers generalizing index previousEnd with
  | nil => exact reportsTruth_ok ()
  | cons header rest ih =>
      rw [SectionBounds.checkFrom_cons]
      exact reportsTruth_bind (bounds.check_reportsTruth index previousEnd header)
        fun last _ => ih (index + 1) last

theorem highestEndFrom_reportsTruth (headers : List Section) (index : Nat) (highest : UInt32) :
    ReportsTruth buffer start (highestEndFrom index highest headers) := by
  induction headers generalizing index highest with
  | nil => exact reportsTruth_ok highest
  | cons header rest ih =>
      rw [highestEndFrom_cons]
      exact reportsTruth_bind (reportsTruth_require fun _ => trivial)
        fun last _ => ih (index + 1) (max highest last)

end Sections

/-! ### Headers -/

theorem dosHeaderOffset_reportsTruth (buffer : Buffer) (start : Nat) :
    ReportsTruth buffer start (dosHeaderOffset buffer) := by
  refine reportsTruth_of_follows (dosHeaderOffset_follows buffer) ?_
  intro check hmem hfails
  rw [List.mem_singleton] at hmem
  subst hmem
  exact ⟨rfl, Nat.lt_of_not_le hfails⟩

/-- The file header is asked for as a whole, so whichever of its reads failed,
    more is asked for than is there. -/
theorem CoffHeader.read_reportsTruth (buffer : Buffer) (start : UInt32) :
    ReportsTruth buffer start.toNat (CoffHeader.read buffer start) := by
  refine reportsTruth_of_follows (CoffHeader.read_follows buffer start) ?_
  intro check hmem hfails
  simp only [coffChecks, List.mem_cons, List.not_mem_nil, or_false] at hmem
  rcases hmem with rfl | rfl | rfl | rfl
  · have hshort : buffer.size < start.toNat + 4 := Nat.lt_of_not_le hfails
    exact ⟨rfl, by omega⟩
  · trivial
  · have hshort : buffer.size < start.toNat + 8 := Nat.lt_of_not_le hfails
    exact ⟨rfl, by omega⟩
  · have hshort : buffer.size < start.toNat + 22 := Nat.lt_of_not_le hfails
    exact ⟨rfl, by omega⟩

theorem CoffHeader.word16?_of_read {buffer : Buffer} {start : UInt32} {coff : CoffHeader}
    (h : CoffHeader.read buffer start = .ok coff) :
    buffer.word16? (start.toNat + 20) = some coff.optionalSize := by
  simp only [CoffHeader.read, bind_eq_ok_iff, require_eq_ok_iff, ensure_eq_ok_iff, pure,
    Except.pure, Except.ok.injEq] at h
  rcases h with ⟨_, -, _, -, sectionCount, -, optionalSize, hsize, rfl⟩
  exact hsize

/-- An optional header is only ever called too small if all of its declared size
    is in the file. -/
theorem OptionalHeader.read_reportsTruth {buffer declared : Buffer} {start : UInt32}
    {coff : CoffHeader} (hcoff : CoffHeader.read buffer start = .ok coff)
    (hslice : buffer.slice? (start.toNat + 24) coff.optionalSize.toNat = some declared) :
    ReportsTruth buffer start.toNat (OptionalHeader.read declared coff.optionalSize) := by
  have hfield := CoffHeader.word16?_of_read hcoff
  have hsize : coff.optionalSize.toNat = buffer.peOptionalSize start.toNat :=
    (Buffer.word16?_eq_some_iff.mp hfield).2
  have hfit := (Buffer.slice?_eq_some_iff.mp hslice).1
  refine reportsTruth_of_follows (OptionalHeader.read_follows hsize hslice) ?_
  intro check hmem hfails
  simp only [optionalChecks, ← hsize, UInt16.ofNat_toNat, List.mem_cons, List.not_mem_nil,
    or_false] at hmem
  rcases hmem with rfl | rfl | rfl | rfl
  · exact ⟨hfield, hfit, Nat.lt_of_not_le hfails⟩
  · trivial
  · exact ⟨hfield, hfit, Nat.lt_of_not_le hfails⟩
  · exact ⟨hfield, hfit, Nat.lt_of_not_le hfails⟩

theorem TeHeader.read_reportsTruth (buffer : Buffer) (start : Nat) :
    ReportsTruth buffer start (TeHeader.read buffer) := by
  have htruncated : ¬ 40 ≤ buffer.size →
      (LoadError.headerTruncated 40 buffer.size).TrueIn buffer start :=
    fun hshort => ⟨rfl, Nat.lt_of_not_le hshort⟩
  refine reportsTruth_bind (reportsTruth_require fun hnone => htruncated ?_) fun header hread => ?_
  · rw [Buffer.slice?_eq_none_iff, teHeaderSize, Nat.zero_add] at hnone
    exact Nat.not_le_of_lt hnone
  rw [require_eq_ok_iff] at hread
  have hheader : buffer.slice? 0 40 = some header := hread
  have hsize := Buffer.size_slice hheader
  -- The slice has 40 bytes, so neither of its fields is ever missed.
  refine reportsTruth_bind (reportsTruth_require fun hnone => ?_) fun sectionCount _ => ?_
  · rw [Buffer.byte?, dif_pos (by omega)] at hnone
    exact absurd hnone (Option.some_ne_none _)
  refine reportsTruth_bind (reportsTruth_require fun hnone => ?_) fun stripped hstripped => ?_
  · exact absurd hnone (Buffer.word16?_ne_none_iff.mpr (by omega))
  rw [require_eq_ok_iff] at hstripped
  refine reportsTruth_bind (reportsTruth_require fun hnone => ?_) fun _ _ => reportsTruth_ok _
  have hfield : buffer.word16? 6 = some stripped := by
    rcases Buffer.word16?_eq_some_iff.mp hstripped with ⟨-, hnumber⟩
    have hfit := (Buffer.slice?_eq_some_iff.mp hheader).1
    rw [Buffer.word16?_eq_some_iff, hnumber, Buffer.numberAt_slice hheader (by omega)]
    exact ⟨by omega, rfl⟩
  rw [Word.sub?_eq_none_iff, UInt16.toNat_toUInt32] at hnone
  exact ⟨hfield, hnone⟩

/-! ### Images -/

namespace Layout

/-- This needs no bound on the length of the buffer, unlike the list of all
    checks. -/
theorem readPe_reportsTruth (buffer : Buffer) (start : UInt32) :
    ReportsTruth buffer start.toNat (readPe buffer start) := by
  refine reportsTruth_bind (CoffHeader.read_reportsTruth buffer start) fun coff hcoff => ?_
  refine reportsTruth_bind (reportsTruth_require fun hnone => ?_) fun declared hdeclared => ?_
  · rw [Buffer.slice?_eq_none_iff] at hnone
    exact ⟨rfl, hnone⟩
  rw [require_eq_ok_iff] at hdeclared
  refine reportsTruth_bind (OptionalHeader.read_reportsTruth hcoff hdeclared) fun optional _ => ?_
  refine reportsTruth_bind (reportsTruth_require fun _ => trivial) fun table _ => ?_
  exact reportsTruth_bind (SectionBounds.checkFrom_reportsTruth _ table.toList 0 0)
    fun _ _ => reportsTruth_ok _

theorem readTe_reportsTruth (buffer : Buffer) (start : Nat) :
    ReportsTruth buffer start (readTe buffer) := by
  refine reportsTruth_bind (TeHeader.read_reportsTruth buffer start) fun header _ => ?_
  refine reportsTruth_bind (reportsTruth_require fun _ => trivial) fun table _ => ?_
  refine reportsTruth_bind (highestEndFrom_reportsTruth table.toList 0 0) fun sizeOfImage _ => ?_
  exact reportsTruth_bind (SectionBounds.checkFrom_reportsTruth _ table.toList 0 0)
    fun _ _ => reportsTruth_ok _

end Layout

/-- Where the PE signature of a buffer is that is read as a PE image: where its
    DOS header says, or at the start if it has none. -/
def Buffer.signatureStart (buffer : Buffer) : Nat :=
  if buffer.word16? 0 = some dosSignature then buffer.numberAt 4 60 else 0

theorem Layout.read_reportsTruth (buffer : Buffer) (options : Options) :
    ReportsTruth buffer buffer.signatureStart (Layout.read buffer options) := by
  refine reportsTruth_bind (reportsTruth_ensure fun _ => trivial) fun _ _ => ?_
  refine reportsTruth_bind (reportsTruth_require fun hnone => ?_) fun signature hsignature => ?_
  · rw [Buffer.word16?_eq_none_iff, Nat.zero_add] at hnone
    exact ⟨rfl, hnone⟩
  rw [require_eq_ok_iff] at hsignature
  by_cases hdos : signature = dosSignature
  · rw [if_pos hdos, Buffer.signatureStart, if_pos (by rw [hsignature, hdos])]
    refine reportsTruth_bind (dosHeaderOffset_reportsTruth buffer _) fun start hstart => ?_
    -- The offset in the DOS header is the one that the PE header is read at.
    rw [((dosHeaderOffset_follows buffer).of_eq_ok hstart).2, ← Buffer.toNat_dosStart]
    exact readPe_reportsTruth buffer buffer.dosStart
  · rw [if_neg hdos, Buffer.signatureStart,
      if_neg (fun h => hdos (Option.some.inj (hsignature.symm.trans h)))]
    by_cases hte : signature = teSignature
    · rw [if_pos hte]
      exact reportsTruth_bind (reportsTruth_ensure fun _ => trivial)
        fun _ _ => readTe_reportsTruth buffer 0
    · rw [if_neg hte]
      exact reportsTruth_bind (reportsTruth_ensure fun _ => trivial)
        fun _ _ => readPe_reportsTruth buffer 0

theorem Image.load_reportsTruth (buffer : Buffer) (options : Options) :
    ReportsTruth buffer buffer.signatureStart (Image.load buffer options) := by
  intro error h
  exact Layout.read_reportsTruth buffer options error (Image.load_eq_error_iff.mp h)

/-! ### Retries -/

/-- A caller who is told that a header is not all there extends the buffer to the
    length asked for, by any bytes. -/
inductive Retry (read : Buffer → Except LoadError α) : Buffer → Buffer → Prop
  | extend {buffer more : Buffer} {expected actual : Nat}
      (told : read buffer = .error (.headerTruncated expected actual))
      (extended : (buffer ++ more).size = expected) : Retry read buffer (buffer ++ more)

/-- A caller who is told that a header is not all there can retry, and is never
    again told that one of the same length is not, or of less. -/
structure Progresses (read : Buffer → Except LoadError α) : Prop where
  canRetry : ∀ {buffer expected actual},
    read buffer = .error (.headerTruncated expected actual) →
      ∃ longer, Retry read buffer longer
  asksForMore : ∀ {buffer later expected actual expected' actual'},
    read buffer = .error (.headerTruncated expected actual) →
    Relation.TransGen (Retry read) buffer later →
    read later = .error (.headerTruncated expected' actual') → expected < expected'

section Retries

variable {read : Buffer → Except LoadError α}

/-- One retry makes the buffer as long as was asked for. -/
theorem Retry.size_eq {buffer longer : Buffer} (h : Retry read buffer longer)
    {expected actual : Nat} (htold : read buffer = .error (.headerTruncated expected actual)) :
    longer.size = expected := by
  cases h with
  | extend told extended =>
      rw [told, Except.error.injEq, LoadError.headerTruncated.injEq] at htold
      rw [extended, htold.1]

variable (htruth : ∀ buffer, ∃ start, ReportsTruth buffer start (read buffer))
include htruth

theorem asked_gt_size {buffer : Buffer} {expected actual : Nat}
    (htold : read buffer = .error (.headerTruncated expected actual)) :
    buffer.size < expected := by
  rcases htruth buffer with ⟨start, hreports⟩
  rcases hreports _ htold with ⟨hactual, hmore⟩
  rw [← hactual]
  exact hmore

/-- Every retry makes the buffer longer. -/
theorem Retry.size_lt {buffer longer : Buffer} (h : Retry read buffer longer) :
    buffer.size < longer.size := by
  cases h with
  | extend told extended =>
      rw [extended]
      exact asked_gt_size htruth told

-- The induction is on the retries. The first makes the buffer as long as was asked for, and no
-- later one makes it shorter.
theorem asked_le_of_retries {buffer later : Buffer} {expected actual : Nat}
    (htold : read buffer = .error (.headerTruncated expected actual))
    (h : Relation.TransGen (Retry read) buffer later) : expected ≤ later.size := by
  induction h with
  | single hretry => exact Nat.le_of_eq (hretry.size_eq htold).symm
  | tail _ hretry ih => exact Nat.le_of_lt (Nat.lt_of_le_of_lt ih (hretry.size_lt htruth))

/-- A reader whose reports are true makes progress. -/
theorem progresses_of_reportsTruth : Progresses read where
  canRetry := by
    intro buffer expected actual htold
    have hmore := asked_gt_size htruth htold
    refine ⟨buffer ++ Buffer.zeros (expected - buffer.size), .extend htold ?_⟩
    rw [ByteArray.size_append, ← Buffer.length_bytes (Buffer.zeros _), Buffer.bytes_zeros,
      List.length_replicate]
    omega
  asksForMore := by
    intro buffer later expected actual expected' actual' htold hretries hagain
    exact Nat.lt_of_le_of_lt (asked_le_of_retries htruth htold hretries)
      (asked_gt_size htruth hagain)

end Retries

/-- Whatever is read of a buffer, the sizes that an error names are so: what is
    there and what is asked for, the declared size of the optional header, and
    what was stripped off a TE image. And a caller who extends the buffer to the
    length asked for, and does so again as often as told to, is asked for more
    each time. -/
theorem size_reports_hold :
    (∀ buffer options, ReportsTruth buffer buffer.signatureStart (Image.load buffer options)) ∧
    (∀ buffer start, ReportsTruth buffer start (dosHeaderOffset buffer)) ∧
    (∀ buffer (start : UInt32), ReportsTruth buffer start.toNat (Layout.readPe buffer start)) ∧
    (∀ buffer start, ReportsTruth buffer start (Layout.readTe buffer)) ∧
    (∀ options, Progresses (fun buffer => Image.load buffer options)) ∧
    Progresses dosHeaderOffset ∧
    (∀ start, Progresses (fun buffer => Layout.readPe buffer start)) ∧
    Progresses Layout.readTe := by
  refine ⟨Image.load_reportsTruth, dosHeaderOffset_reportsTruth, Layout.readPe_reportsTruth,
    Layout.readTe_reportsTruth, fun options => ?_, ?_, fun start => ?_, ?_⟩
  · exact progresses_of_reportsTruth fun buffer => ⟨_, Image.load_reportsTruth buffer options⟩
  · exact progresses_of_reportsTruth fun buffer => ⟨0, dosHeaderOffset_reportsTruth buffer 0⟩
  · exact progresses_of_reportsTruth fun buffer => ⟨_, Layout.readPe_reportsTruth buffer start⟩
  · exact progresses_of_reportsTruth fun buffer => ⟨0, Layout.readTe_reportsTruth buffer 0⟩

/-- The first bytes of the small image. Its file header ends at 24 bytes, and its
    optional header at 176. -/
def smallImageCut (length : Nat) : Buffer := smallImage.extract 0 length

theorem smallImageCut_size_reports_hold :
    Layout.readPe (smallImageCut 10) 0 = .error (.headerTruncated 24 10) ∧
      Layout.readPe (smallImageCut 24) 0 = .error (.headerTruncated 176 24) ∧
      10 < 24 ∧ 24 < 176 := by
  rcases size_reports_hold with ⟨-, -, htruth, -, -, -, hprogress, -⟩
  have hfirst : Layout.readPe (smallImageCut 10) 0 = .error (.headerTruncated 24 10) := by
    decide +kernel
  have hsecond : Layout.readPe (smallImageCut 24) 0 = .error (.headerTruncated 176 24) := by
    decide +kernel
  have hlonger : smallImageCut 10 ++ smallImage.extract 10 24 = smallImageCut 24 := by
    decide +kernel
  have hretry : Retry (Layout.readPe · 0) (smallImageCut 10) (smallImageCut 24) := by
    rw [← hlonger]
    exact .extend hfirst (by decide +kernel)
  exact ⟨hfirst, hsecond, (htruth _ 0 _ hfirst).2,
    (hprogress 0).asksForMore hfirst (.single hretry) hsecond⟩

end SymbolLocator
