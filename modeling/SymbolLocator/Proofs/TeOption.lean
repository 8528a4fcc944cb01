import SymbolLocator.Proofs.TeGrammar
import SymbolLocator.Proofs.LoadedLookup
import SymbolLocator.Proofs.LookupSuccess

/-!
# The TE Option

What the option for TE images decides.

The option is asked for in three places. Loading asks for it behind the
signature of a TE image, and nowhere else. The two stages that compensate file
offsets ask for it whatever the format is, so there the option is read for PE
images as well. It makes no difference to them: nothing was stripped off a PE
image, and zero is subtracted with the option and without it.

The statements are about two runs, with options that may differ in whether TE
images are allowed but not in whether debug data is looked at. They hold for
layouts that do not hold of their buffer as well, since they are about what is
read of the options and not about what is found.

## Main definitions

* `Options.SameSupport`: Two options that differ in the TE option at most.
* `Image.SameLookups`: No stage of a lookup tells two options apart.

## Theorems

* `Layout.read_eq_of_not_te`: Loading asks for the option behind a TE signature
  only.
* `Image.sameLookups_of_pe`: No lookup in a PE image tells the options apart.
* `load_prohibited`: A TE signature is refused without the option.
* `load_unique`, `load_of_admitted`: A buffer is the same image with all options
  that admit it.
* `te_option_for_te_images_only`: All of it together.
-/

namespace SymbolLocator

/-- The options differ at most in whether TE images are allowed. -/
def Options.SameSupport (a b : Options) : Prop := a.debugSupport = b.debugSupport

/-- Every stage of a lookup in the image, and the whole lookup, come out the
    same with either options. -/
structure Image.SameLookups (image : Image) (a b : Options) : Prop where
  announcedRange : image.announcedRange a = image.announcedRange b
  place : ∀ range, image.place range a = image.place range b
  debugDirectory : image.debugDirectory a = image.debugDirectory b
  recordPath : ∀ entry, image.recordPath entry a = image.recordPath entry b
  symbolPath : image.symbolPath a = image.symbolPath b

/-! ### Loading -/

-- The option is behind the signature, and the signature is another one.
theorem Layout.read_eq_of_not_te {buffer : Buffer} (hte : ¬ buffer.hasBytesAt 0 [0x56, 0x5A])
    (a b : Options) : Layout.read buffer a = Layout.read buffer b := by
  refine bind_congr_of_ok fun _ _ => bind_congr_of_ok fun signature hread => ?_
  rw [require_eq_ok_iff, Buffer.word16?_eq_some_iff] at hread
  have hother : signature ≠ teSignature := by
    intro heq
    rw [heq] at hread
    exact hte ((Buffer.numberAt_eq_iff_hasBytesAt hread.1).mp hread.2.symm)
  rw [if_neg hother, if_neg hother]

theorem load_eq_of_not_te {buffer : Buffer} (hte : ¬ buffer.hasBytesAt 0 [0x56, 0x5A])
    (a b : Options) : Image.load buffer a = Image.load buffer b := by
  rw [Image.load, Image.load, Layout.read_eq_of_not_te hte a b]

/-- A buffer that begins with a TE signature is refused without the option,
    whatever is behind the signature. -/
theorem load_prohibited {buffer : Buffer} (hsize : buffer.size < UInt32.size)
    (hte : buffer.hasBytesAt 0 [0x56, 0x5A]) {options : Options}
    (hprohibited : options.allowTe = false) :
    Image.load buffer options = .error .teProhibited := by
  have htwo : 0 + 2 ≤ buffer.size := Buffer.le_size_of_hasBytesAt hte (List.cons_ne_nil _ _)
  have hisTe : buffer.isTe := (Buffer.numberAt_eq_iff_hasBytesAt htwo).mpr hte
  have hdos : ¬ buffer.isDos := by
    rw [Buffer.isDos, hisTe]
    decide
  rw [Image.load_eq_error_iff, (Layout.read_follows buffer options).eq_error_iff, imageChecks,
    formatChecks, if_neg hdos, if_pos hisTe]
  -- The third check is the one for the option, and the first two hold.
  refine firstFailure_cons.mpr (Or.inr ⟨hsize, firstFailure_cons.mpr (Or.inr ⟨by omega, ?_⟩)⟩)
  refine firstFailure_cons.mpr (Or.inl ⟨?_, rfl⟩)
  rw [hprohibited]
  exact Bool.false_ne_true

-- No other option has a say in loading.
theorem load_congr {a b : Options} (h : a.allowTe = b.allowTe) (buffer : Buffer) :
    Image.load buffer a = Image.load buffer b := by
  unfold Image.load Layout.read
  rw [h]

/-- The options do not decide what image a buffer is, only whether it may be. -/
theorem load_unique {buffer : Buffer} {a b : Options} {image other : Image}
    (hload : Image.load buffer a = .ok image) (hother : Image.load buffer b = .ok other) :
    image = other := by
  have hsize := (Image.load_cases hload).2.1
  have hsame : Image.load buffer a = Image.load buffer b := by
    by_cases hte : buffer.hasBytesAt 0 [0x56, 0x5A]
    · have hread := (Image.load_eq_ok_iff.mp hload).1
      have hread' := (Image.load_eq_ok_iff.mp hother).1
      rw [Layout.read_te hsize hte] at hread hread'
      exact load_congr (hread.1.trans hread'.1.symm) buffer
    · exact load_eq_of_not_te hte a b
  exact Except.ok.inj (hload.symm.trans (hsame.trans hother))

/-- An image is loaded with all options that admit it. -/
theorem load_of_admitted {buffer : Buffer} {loading options : Options} {image : Image}
    (hload : Image.load buffer loading = .ok image) (hadmitted : image.AdmittedBy options) :
    Image.load buffer options = .ok image := by
  have hsize := (Image.load_cases hload).2.1
  by_cases hte : buffer.hasBytesAt 0 [0x56, 0x5A]
  · -- The image is a TE image, so both options allow it.
    rcases (Layout.read_te hsize hte loading _).mp (Image.load_eq_ok_iff.mp hload).1 with
      ⟨hallow, hread⟩
    rcases ((Layout.readTe_eq_ok_iff hsize).mp hread).2.format with ⟨stripped, hformat, -⟩
    rw [load_congr (((Image.admittedBy_te_iff hformat).mp hadmitted).trans hallow.symm), hload]
  · rw [load_eq_of_not_te hte options loading, hload]

/-! ### Lookups in PE images -/

namespace Image

variable {image : Image}

theorem compensation_of_pe (hpe : image.format.isTe = false) (options : Options) :
    image.compensation options = 0 := by
  rw [compensation, strippedOffset_of_pe hpe, ite_self]

theorem slotOffset_of_pe (hpe : image.format.isTe = false) (a b : Options) :
    image.slotOffset a = image.slotOffset b := by
  unfold slotOffset
  cases hformat : image.format with
  | pe kind start => rfl
  | te stripped =>
      rw [hformat] at hpe
      exact absurd hpe Bool.true_eq_false.mp

theorem announcedRange_of_pe (hpe : image.format.isTe = false) (a b : Options) :
    image.announcedRange a = image.announcedRange b := by
  rw [announcedRange, slotOffset_of_pe hpe a b, announcedRange]

theorem place_of_pe (hpe : image.format.isTe = false) (a b : Options) (range : VirtualRange) :
    image.place range a = image.place range b := by
  unfold place
  rw [compensation_of_pe hpe a, compensation_of_pe hpe b]

theorem recordPath_of_pe (hpe : image.format.isTe = false) (a b : Options) (entry : DebugEntry) :
    image.recordPath entry a = image.recordPath entry b := by
  unfold recordPath
  rw [compensation_of_pe hpe a, compensation_of_pe hpe b]

/-- No lookup in a PE image tells two options apart that differ in the TE
    option only. The layout of the image may be any. -/
theorem sameLookups_of_pe (hpe : image.format.isTe = false) {a b : Options}
    (hsame : a.SameSupport b) : image.SameLookups a b := by
  have hdirectory : image.debugDirectory a = image.debugDirectory b := by
    unfold debugDirectory
    rw [hsame, announcedRange_of_pe hpe a b]
    refine bind_congr_of_ok fun _ _ => bind_congr_of_ok fun range _ => ?_
    rw [place_of_pe hpe a b range]
  refine ⟨announcedRange_of_pe hpe a b, place_of_pe hpe a b, hdirectory,
    recordPath_of_pe hpe a b, ?_⟩
  unfold symbolPath
  rw [hdirectory]
  exact bind_congr_of_ok fun directory _ => bind_congr_of_ok fun hit _ =>
    recordPath_of_pe hpe a b hit.2

end Image

/-! ### Whole lookups -/

theorem locate_eq_of_not_te {buffer : Buffer} (hte : ¬ buffer.hasBytesAt 0 [0x56, 0x5A])
    {a b : Options} (hsame : a.SameSupport b) : locate buffer a = locate buffer b := by
  unfold locate
  rw [hsame, load_eq_of_not_te hte a b]
  refine bind_congr_of_ok fun _ _ => bind_congr_of_ok fun image hload => ?_
  rw [mapError_eq_ok_iff, load_eq_of_not_te hte b .withoutTe] at hload
  -- The image is loaded without the option too, so it is no TE image.
  have hpe : image.format.isTe = false := by
    rcases Image.admitted_of_load hload with hallow | hpe
    · exact absurd hallow Bool.false_ne_true
    · exact hpe
  rw [(Image.sameLookups_of_pe hpe hsame).symbolPath]

theorem locate_prohibited {buffer : Buffer} (hsize : buffer.size < UInt32.size)
    (hte : buffer.hasBytesAt 0 [0x56, 0x5A]) {options : Options}
    (hsupport : options.debugSupport = true) (hprohibited : options.allowTe = false) :
    locate buffer options = .error (.load .teProhibited) := by
  unfold locate
  rw [hsupport, load_prohibited hsize hte hprohibited]
  rfl

/-- The option for TE images matters to TE images only. It makes no difference
    to loading a buffer without a TE signature, or to any stage of a lookup in a
    PE image. A buffer with a TE signature is refused without it, so no TE image
    gets to a lookup that would find a contract violated, and neither does any
    other buffer. -/
theorem te_option_for_te_images_only :
    (∀ (buffer : Buffer) (a b : Options), ¬ buffer.hasBytesAt 0 [0x56, 0x5A] →
      a.SameSupport b →
        Image.load buffer a = Image.load buffer b ∧ locate buffer a = locate buffer b) ∧
    (∀ (image : Image) (a b : Options), image.format.isTe = false → a.SameSupport b →
      image.SameLookups a b) ∧
    (∀ (buffer : Buffer) (options : Options), buffer.size < UInt32.size →
      buffer.hasBytesAt 0 [0x56, 0x5A] → options.allowTe = false →
        Image.load buffer options = .error .teProhibited ∧
          (options.debugSupport = true →
            locate buffer options = .error (.load .teProhibited))) ∧
    (∀ (buffer : Buffer) (options : Options) (image : Image),
      Image.load buffer options = .ok image → image.format.isTe = true →
        options.allowTe = true) ∧
    ∀ (buffer : Buffer) (options : Options) (violation : String),
      locate buffer options ≠ .error (.lookup (.contract violation)) := by
  refine ⟨fun buffer a b hte hsame => ?_, fun image a b hpe hsame => ?_,
    fun buffer options hsize hte hprohibited => ?_, fun buffer options image hload hte => ?_,
    fun buffer options violation hviolated => ?_⟩
  · exact ⟨load_eq_of_not_te hte a b, locate_eq_of_not_te hte hsame⟩
  · exact Image.sameLookups_of_pe hpe hsame
  · exact ⟨load_prohibited hsize hte hprohibited,
      fun hsupport => locate_prohibited hsize hte hsupport hprohibited⟩
  · rcases Image.admitted_of_load hload with hallow | hpe
    · exact hallow
    · exact absurd (hte.symm.trans hpe) Bool.true_eq_false.mp
  · exact absurd (locate_noContract hviolated) Bool.true_eq_false.mp

-- The small image is no TE image and gives its path without the option too. The stripped image
-- is one.
theorem smallImage_locates_withoutTe :
    locate smallImage .withoutTe = .ok smallPath ∧
      smallLoaded.SameLookups .standard .withoutTe ∧
      Image.load strippedImage .withoutTe = .error .teProhibited ∧
      locate strippedImage .withoutTe = .error (.load .teProhibited) := by
  rcases te_option_for_te_images_only with ⟨hother, hpe, hte, -, -⟩
  have hsmall : ¬ smallImage.hasBytesAt 0 [0x56, 0x5A] := by decide +kernel
  have hlocate := (hother smallImage .standard .withoutTe hsmall rfl).2
  have hrefused := hte strippedImage .withoutTe (by decide +kernel) (by decide +kernel) rfl
  refine ⟨hlocate.symm.trans smallImage_locates, ?_, hrefused.1, hrefused.2 rfl⟩
  exact hpe smallLoaded .standard .withoutTe rfl rfl

end SymbolLocator
