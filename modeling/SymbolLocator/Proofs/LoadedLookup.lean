import SymbolLocator.Proofs.LookupChecks
import SymbolLocator.Proofs.Loaded

/-!
# Lookups in Loaded Images

Which errors a lookup in a loaded image can still report.

A lookup trusts no layout, and most of its checks of the layout can only fail
for one that was given by hand. Loading has made each of them already, though
in other places and in other words: the check that the directory is in the
file repeats the check that its section is, and the check that nothing in
front of the file is read repeats it as well.

One check of this kind is left. The offset of the directory in the whole file
is a sum of two words, and it is formed before the stripped bytes are taken
off. In a TE image so close to the greatest file that the stripped bytes make
the difference, the sum may overflow although the directory is in the file.

## Main definitions

* `LookupError.isPlain`: An error that says nothing of the layout.
* `LookupError.PossibleIn`: An error that loading does not rule out.

## Theorems

* `WellFormed.possible_locateChecks`, `WellFormed.possible_placeChecks`: What is
  left of the checks of the layout.
* `Image.lookup_after_load`: Lookups in a loaded image report possible errors
  only.
-/

namespace SymbolLocator

/-- The error says nothing of the layout of the image. -/
def LookupError.isPlain : LookupError → Bool
  | .contract _ => false
  | .malformed (.directoryOutsideFile _) => false
  | .malformed .directoryOffsetOverflow => false
  | _ => true

/-- Loading an image does not rule the error out. -/
structure LookupError.PossibleIn (image : Image) (error : LookupError) : Prop where
  noContract : error.isContract = false
  inFile : ∀ offset, error ≠ .malformed (.directoryOutsideFile offset)
  overflow : error = .malformed .directoryOffsetOverflow →
    image.format.isTe = true ∧ UInt32.size ≤ image.buffer.size + image.strippedOffset.toNat

variable {image : Image} {options : Options} {error : LookupError}

theorem LookupError.possibleIn_of_isPlain (h : error.isPlain = true) :
    error.PossibleIn image where
  noContract := by
    cases error with
    | contract violation => exact absurd h Bool.false_ne_true
    | absent absence => rfl
    | malformed defect => rfl
  inFile := by
    intro offset heq
    rw [heq] at h
    exact Bool.false_ne_true h
  overflow := by
    intro heq
    rw [heq] at h
    exact absurd h Bool.false_ne_true

theorem FirstFailure.possibleIn {checks : List (Check LookupError)}
    (h : FirstFailure checks error) (hplain : ∀ check ∈ checks, check.error.isPlain = true) :
    error.PossibleIn image := by
  have herror : error.isPlain = true :=
    @FirstFailure.of_forall _ checks error (fun reported => reported.isPlain = true) h hplain
  exact LookupError.possibleIn_of_isPlain herror

/-! ### Plain stages -/

theorem isPlain_rangeChecks (address size sizeOfImage : Nat) :
    ∀ check ∈ rangeChecks address size sizeOfImage, check.error.isPlain = true := by
  simp only [rangeChecks, List.forall_mem_cons]
  exact ⟨rfl, rfl, rfl, List.forall_mem_nil _⟩

theorem isPlain_scanChecks (buffer : Buffer) (directory size : Nat) :
    ∀ check ∈ scanChecks buffer directory size, check.error.isPlain = true := by
  simp only [scanChecks, List.forall_mem_cons]
  exact ⟨rfl, List.forall_mem_nil _⟩

theorem isPlain_recordChecks (image : Image) (options : Options) (size pointer : Nat) :
    ∀ check ∈ recordChecks image options size pointer, check.error.isPlain = true := by
  simp only [recordChecks, List.forall_mem_cons]
  exact ⟨rfl, rfl, rfl, rfl, rfl, rfl, rfl, rfl, List.forall_mem_nil _⟩

/-! ### Stages that look at the layout -/

theorem admitted_of_allHold (h : AllHold (directoryChecks image options)) :
    image.AdmittedBy options := by
  rw [directoryChecks, allHold_cons, allHold_append, locateChecks, slotChecks] at h
  cases hformat : image.format with
  | pe kind start => exact Image.admittedBy_pe hformat options
  | te stripped =>
      rw [hformat, allHold_append, allHold_cons] at h
      exact Or.inl h.2.1.1.1

-- A TE image is not looked at where the options prohibit it.
theorem prohibited_directoryChecks
    (hprohibited : ¬ image.AdmittedBy options)
    (h : FirstFailure (directoryChecks image options) error) :
    error = .absent .supportDisabled ∨ error = .contract Violation.teDisabled := by
  rw [directoryChecks, firstFailure_cons] at h
  rcases h with ⟨-, h⟩ | ⟨-, h⟩
  · exact Or.inl h.symm
  · cases hformat : image.format with
    | pe kind start => exact absurd (Image.admittedBy_pe hformat options) hprohibited
    | te stripped =>
        rw [locateChecks, slotChecks, hformat, List.singleton_append, List.cons_append,
          firstFailure_cons] at h
        rcases h with ⟨-, h⟩ | ⟨hallow, -⟩
        · exact Or.inr h.symm
        · exact absurd (Or.inl hallow) hprohibited

theorem prohibited_lookupChecks
    (hprohibited : ¬ image.AdmittedBy options)
    (h : FirstFailure (lookupChecks image options) error) :
    error = .absent .supportDisabled ∨ error = .contract Violation.teDisabled := by
  rw [lookupChecks, firstFailure_append] at h
  rcases h with h | ⟨hall, -⟩
  · exact prohibited_directoryChecks hprohibited h
  · exact absurd (admitted_of_allHold hall) hprohibited

namespace Image

namespace WellFormed

variable {address size : Nat}

theorem possible_locateChecks (hwell : image.WellFormed)
    (hadmitted : image.AdmittedBy options)
    (h : FirstFailure (locateChecks image options) error) : error.PossibleIn image := by
  have hslot := hwell.slot
  unfold SlotInFile at hslot
  unfold locateChecks slotChecks at h
  cases hformat : image.format with
  | pe kind start =>
      rw [hformat] at hslot
      simp only [hformat, List.cons_append, List.nil_append, firstFailure_cons,
        not_firstFailure_nil, and_false, or_false] at h
      -- Both reads are in the optional header. What is left is an image without the slot.
      rcases h with ⟨hcount, -⟩ | ⟨-, ⟨-, h⟩ | ⟨hmany, houtside, -⟩⟩
      · exact absurd hslot.1 hcount
      · rw [← h]
        exact LookupError.possibleIn_of_isPlain rfl
      · exact absurd (hslot.2 hmany) houtside
  | te stripped =>
      rw [hformat] at hslot
      simp only [hformat, List.cons_append, List.nil_append, firstFailure_cons,
        not_firstFailure_nil, and_false, or_false] at h
      rcases h with ⟨hprohibited, -⟩ | ⟨-, houtside, -⟩
      · exact absurd ((admittedBy_te_iff hformat).mp hadmitted) hprohibited
      · exact absurd hslot houtside

/-- Of the checks of the layout on the way to the place of a directory, only
    the one for the sum can fail, and only for a TE image. -/
theorem possible_placeChecks (hwell : image.WellFormed)
    (hadmitted : image.AdmittedBy options) (hpos : 0 < size)
    (h : FirstFailure (placeChecks image options address size) error) :
    error.PossibleIn image := by
  simp only [placeChecks, firstFailure_cons, not_firstFailure_nil, and_false, or_false] at h
  rcases h with ⟨houtside, -⟩ | ⟨-, ⟨-, h⟩ | ⟨hsome, ⟨-, h⟩ | ⟨hdata, h⟩⟩⟩
  -- The section table is where the layout says.
  · exact absurd hwell.table houtside
  · rw [← h]
    exact LookupError.possibleIn_of_isPlain rfl
  · rw [← h]
    exact LookupError.possibleIn_of_isPlain rfl
  -- Behind the check of the data, the range is in the file.
  · have hfile := hwell.holder_in_file hsome hpos hdata
    rcases h with ⟨hsum, h⟩ | ⟨-, ⟨hstripped, -⟩ | ⟨-, -, h⟩⟩
    · rw [← h]
      have hsmall := hwell.small
      refine ⟨rfl, fun offset => by simp, fun _ => ⟨?_, by omega⟩⟩
      cases hformat : image.format with
      | pe kind start =>
          -- Nothing was stripped off, so the sum is an offset in the file, hence a word.
          have hzero : image.strippedOffset.toNat = 0 := by
            rw [strippedOffset, hformat]
            rfl
          omega
      | te stripped => rfl
    · rw [shift_eq hadmitted] at hstripped
      exact absurd hfile.1 hstripped
    · rw [← h]
      exact LookupError.possibleIn_of_isPlain rfl

theorem possible_directoryChecks (hwell : image.WellFormed)
    (hadmitted : image.AdmittedBy options)
    (h : FirstFailure (directoryChecks image options) error) : error.PossibleIn image := by
  simp only [directoryChecks, firstFailure_append, firstFailure_cons] at h
  rcases h with ⟨-, h⟩ | ⟨-, h | ⟨-, h | ⟨hrange, h⟩⟩⟩
  · rw [← h]
    exact LookupError.possibleIn_of_isPlain rfl
  · exact hwell.possible_locateChecks hadmitted h
  · exact h.possibleIn (isPlain_rangeChecks _ _ _)
  · rw [rangeChecks, allHold_cons] at hrange
    have hpos : 0 < image.announcedSize := Nat.pos_of_ne_zero hrange.1
    rcases h with h | ⟨hplace, h⟩
    · exact hwell.possible_placeChecks hadmitted hpos h
    -- A directory that has a place in the file is in the file, so the last check holds.
    · exact absurd (hwell.allHold_viewChecks hadmitted hpos hplace) h.not_allHold

theorem possible_lookupChecks (hwell : image.WellFormed)
    (hadmitted : image.AdmittedBy options)
    (h : FirstFailure (lookupChecks image options) error) : error.PossibleIn image := by
  simp only [lookupChecks, firstFailure_append] at h
  rcases h with h | ⟨-, h | ⟨-, h⟩⟩
  · exact hwell.possible_directoryChecks hadmitted h
  · exact h.possibleIn (isPlain_scanChecks _ _ _)
  · exact h.possibleIn (isPlain_recordChecks _ _ _ _)

theorem possible_of_symbolPath (hwell : image.WellFormed)
    (hadmitted : image.AdmittedBy options) (h : image.symbolPath options = .error error) :
    error.PossibleIn image :=
  hwell.possible_lookupChecks hadmitted ((symbolPath_follows hwell.small options).eq_error_iff.mp h)

end WellFormed

end Image

/-- No lookup in a buffer violates a contract: it gets as far as the checks of
    the layout only if the buffer was loaded. -/
theorem locate_noContract {buffer : Buffer} (h : locate buffer options = .error (.lookup error)) :
    error.isContract = false := by
  rcases bind_eq_error_iff.mp h with hsupport | ⟨-, -, hrest⟩
  · rw [ensure_eq_error_iff, Failure.lookup.injEq] at hsupport
    rw [← hsupport.2]
    rfl
  · rcases bind_eq_error_iff.mp hrest with hload | ⟨loaded, hload, hlookup⟩
    · rcases mapError_eq_error_iff.mp hload with ⟨cause, -, hcause⟩
      exact absurd hcause (by simp only [reduceCtorEq, not_false_eq_true])
    · rw [mapError_eq_ok_iff] at hload
      rcases mapError_eq_error_iff.mp hlookup with ⟨cause, hsymbol, hcause⟩
      rw [Failure.lookup.injEq] at hcause
      rw [hcause] at hsymbol
      exact ((Image.wellFormed_of_load hload).possible_of_symbolPath
        (Image.admitted_of_load hload) hsymbol).noContract

/-- What a loaded image still reports. The options that it was loaded with
    admit it, and with any options that do, its section table is found, and its
    lookups report possible errors only. A sum that overflows is not reported
    with other options either, unless it is possible. -/
theorem Image.lookup_after_load {buffer : Buffer} {loading : Options} {image : Image}
    (hload : Image.load buffer loading = .ok image) :
    image.AdmittedBy loading ∧
    image.buffer = buffer ∧
    (∀ options : Options, image.AdmittedBy options →
      (∃ table, image.sectionTable = .ok table) ∧
      ∀ error, image.debugDirectory options = .error error ∨
        image.symbolPath options = .error error → error.PossibleIn image) ∧
    ∀ options : Options,
      image.debugDirectory options = .error (.malformed .directoryOffsetOverflow) ∨
        image.symbolPath options = .error (.malformed .directoryOffsetOverflow) →
      image.format.isTe = true ∧
        UInt32.size ≤ buffer.size + image.strippedOffset.toNat := by
  have hwell := wellFormed_of_load hload
  have hbuffer := (load_cases hload).1
  have hpossible : ∀ options : Options, image.AdmittedBy options →
      ∀ error, image.debugDirectory options = .error error ∨
        image.symbolPath options = .error error → error.PossibleIn image := by
    intro options hadmitted error herror
    rcases herror with herror | herror
    · rw [(debugDirectory_follows image options).eq_error_iff] at herror
      exact hwell.possible_directoryChecks hadmitted herror
    · rw [(symbolPath_follows hwell.small options).eq_error_iff] at herror
      exact hwell.possible_lookupChecks hadmitted herror
  refine ⟨admitted_of_load hload, hbuffer, fun options hadmitted => ⟨?_, ?_⟩, ?_⟩
  · rcases Option.ne_none_iff_exists'.mp
      (SectionTable.ofBuffer?_ne_none_iff.mpr hwell.table) with ⟨table, htable⟩
    exact ⟨table, require_eq_ok_iff.mpr htable⟩
  · exact hpossible options hadmitted
  · intro options herror
    rw [← hbuffer]
    by_cases hadmitted : image.AdmittedBy options
    · exact (hpossible options hadmitted _ herror).overflow rfl
    · -- An image that is not admitted fails before its sections are looked at.
      have hearly : LookupError.malformed .directoryOffsetOverflow = .absent .supportDisabled ∨
          LookupError.malformed .directoryOffsetOverflow = .contract Violation.teDisabled := by
        rcases herror with herror | herror
        · rw [(debugDirectory_follows image options).eq_error_iff] at herror
          exact prohibited_directoryChecks hadmitted herror
        · rw [(symbolPath_follows hwell.small options).eq_error_iff] at herror
          exact prohibited_lookupChecks hadmitted herror
      simp only [reduceCtorEq, or_self] at hearly

theorem smallImage_lookup_after_load :
    Image.load smallImage .standard = .ok smallLoaded ∧
      (∃ table, smallLoaded.sectionTable = .ok table) ∧
      ∀ error, smallLoaded.symbolPath .standard = .error error →
        error.isContract = false ∧ error ≠ .malformed .directoryOffsetOverflow := by
  rcases Image.lookup_after_load load_smallImage with ⟨hadmitted, -, hlater, -⟩
  rcases hlater .standard hadmitted with ⟨htable, hpossible⟩
  refine ⟨load_smallImage, htable, fun error herror => ?_⟩
  have herror' := hpossible error (Or.inr herror)
  refine ⟨herror'.noContract, fun hoverflow => ?_⟩
  exact absurd (herror'.overflow hoverflow).1 Bool.false_ne_true

end SymbolLocator
