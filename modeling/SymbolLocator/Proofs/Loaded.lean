import SymbolLocator.Proofs.PeGrammar
import SymbolLocator.Proofs.LocationChecks

/-!
# Loaded Images

What is known of an image that was loaded from a buffer.

An image is a buffer and a layout, and nothing about the type ties the two.
Loading does: the slot and the section table are in the file, the sections are
in order, and the data of each section is in the file. `Image.WellFormed` says
so for images of any format, and is all that the rest of the theory needs to
know about the loader.

The loader does not look at the file pointer of a section without data. So a
section may well point in front of the file, and that no lookup is led there
is a matter of sizes: a directory that is not empty lies within the data of
its section, which is then not empty either.

## Main definitions

* `Image.AdmittedBy`: The options let lookups look at an image.
* `Image.WellFormed`: The layout of an image holds of its buffer.

## Theorems

* `Image.load_cases`: What loading an image has found.
* `Image.wellFormed_of_load`: A loaded image is well formed.
* `Image.holder_holds`: The section that holds a range does hold it.
* `WellFormed.data_in_file`: A range in the data of a section is in the file.
* `WellFormed.allHold_viewChecks`: A directory that has a place in the file is
  in the file.
* `WellFormed.index_unique`: At most one section holds a range.
-/

namespace SymbolLocator

namespace Image

/-- The options let lookups look at the image. All do, unless it is a TE image,
    which they may prohibit. -/
def AdmittedBy (image : Image) (options : Options) : Prop :=
  options.allowTe = true ∨ image.format.isTe = false

instance (image : Image) (options : Options) : Decidable (image.AdmittedBy options) :=
  inferInstanceAs (Decidable (_ ∨ _))

/-- The slot of the debug directory is in the file, if the image has one. -/
def SlotInFile (image : Image) : Prop :=
  match image.format with
  | .te _ => image.slotAt + 8 ≤ image.buffer.size
  | .pe kind start =>
    start.toNat + 24 + kind.countOffset + 4 ≤ image.buffer.size ∧
      (6 < image.buffer.numberAt 4 (start.toNat + 24 + kind.countOffset) →
        image.slotAt + 8 ≤ image.buffer.size)

/-- The layout of an image holds of its buffer. -/
structure WellFormed (image : Image) : Prop where
  small : image.buffer.size < UInt32.size
  slot : image.SlotInFile
  table : image.sectionsOffset.toNat + 40 * image.sectionCount.toNat ≤ image.buffer.size
  sections : SectionsFit image.extentAt image.sectionCount.toNat
    ⟨image.sizeOfImage.toNat, image.strippedOffset.toNat, image.buffer.size⟩

theorem admittedBy_pe {image : Image} {kind : PeKind} {start : UInt32}
    (hformat : image.format = .pe kind start) (options : Options) : image.AdmittedBy options := by
  unfold AdmittedBy
  rw [hformat]
  exact Or.inr rfl

theorem admittedBy_te_iff {image : Image} {stripped : UInt32} {options : Options}
    (hformat : image.format = .te stripped) :
    image.AdmittedBy options ↔ options.allowTe = true := by
  unfold AdmittedBy
  rw [hformat]
  simp only [Format.isTe, Bool.true_eq_false, or_false]

/-- Nothing was stripped off a PE image. -/
theorem strippedOffset_of_pe {image : Image} (hpe : image.format.isTe = false) :
    image.strippedOffset = 0 := by
  rw [strippedOffset]
  cases hformat : image.format with
  | pe kind start => rfl
  | te stripped =>
      rw [hformat] at hpe
      exact absurd hpe Bool.true_eq_false.mp

/-- Loading finds a PE image behind some signature, or a TE image where the
    options admit one. -/
theorem load_cases {buffer : Buffer} {options : Options} {image : Image}
    (hload : Image.load buffer options = .ok image) :
    image.buffer = buffer ∧ buffer.size < UInt32.size ∧
      ((∃ start kind, PeGrammar buffer start.toNat kind ∧
          PeFacts buffer start kind image.toLayout) ∨
        (options.allowTe = true ∧ AllHold (teChecks buffer) ∧
          TeFacts buffer image.toLayout)) := by
  rcases Image.load_eq_ok_iff.mp hload with ⟨hread, hbuffer⟩
  rcases (Layout.read_follows buffer options).of_eq_ok hread with ⟨hall, hfacts⟩
  unfold imageChecks formatChecks at hall
  unfold ImageFacts at hfacts
  rw [allHold_cons, allHold_cons] at hall
  rcases hall with ⟨hsize, -, hall⟩
  refine ⟨hbuffer, hsize, ?_⟩
  -- One case for each signature that a buffer can begin with.
  by_cases hdos : buffer.isDos
  · rw [if_pos hdos, allHold_cons, allHold_peChecks_iff] at hall
    rw [if_pos hdos] at hfacts
    rw [← Buffer.toNat_dosStart] at hall hfacts
    exact Or.inl ⟨_, _, hall.2, hfacts⟩
  · rw [if_neg hdos] at hall hfacts
    by_cases hte : buffer.isTe
    · rw [if_pos hte, allHold_cons] at hall
      rw [if_pos hte] at hfacts
      exact Or.inr ⟨hall.1, hall.2, hfacts⟩
    · rw [if_neg hte, allHold_cons, allHold_peChecks_iff] at hall
      rw [if_neg hte] at hfacts
      exact Or.inl ⟨0, _, hall.2, hfacts⟩

end Image

-- The data directories that a PE image announces are in its optional header, wherever that
-- ends.
theorem OptionalFits.slot_le {buffer : Buffer} {start stop : Nat} {kind : PeKind}
    (h : OptionalFits buffer start kind)
    (hstop : start + 24 + buffer.peOptionalSize start ≤ stop) :
    start + 24 + kind.countOffset + 4 ≤ stop ∧
      (6 < buffer.numberAt 4 (start + 24 + kind.countOffset) →
        start + 24 + kind.directoriesOffset + 48 + 8 ≤ stop) := by
  cases kind with
  | pe32 =>
      rcases h with ⟨-, hfixed, hroom⟩
      simp only [PeKind.countOffset, PeKind.directoriesOffset]
      omega
  | pe32Plus =>
      rcases h with ⟨-, hfixed, hroom⟩
      simp only [PeKind.countOffset, PeKind.directoriesOffset]
      omega

theorem PeGrammar.wellFormed {image : Image} {start : UInt32} {kind : PeKind}
    (hsize : image.buffer.size < UInt32.size)
    (hgrammar : PeGrammar image.buffer start.toNat kind)
    (hfacts : PeFacts image.buffer start kind image.toLayout) : image.WellFormed where
  small := hsize
  slot := by
    have hslot := hgrammar.optional.slot_le hgrammar.optionalInFile
    unfold Image.SlotInFile Image.slotAt
    rw [hfacts.format]
    cases kind with
    | pe32 => exact hslot
    | pe32Plus => exact hslot
  table := by
    rw [hfacts.sectionsOffset, hfacts.sectionCount]
    exact hgrammar.tableInFile
  sections := by
    have hstripped : image.strippedOffset = 0 := by
      rw [Image.strippedOffset, hfacts.format, Format.strippedOffset]
    have hextents : image.extentAt = image.buffer.extentAt (image.buffer.peTable start.toNat) := by
      funext i
      rw [Image.extentAt, hfacts.sectionsOffset]
    rw [hstripped, hextents, hfacts.sectionCount, hfacts.sizeOfImage]
    exact hgrammar.sections

theorem TeFacts.wellFormed {image : Image} (hsize : image.buffer.size < UInt32.size)
    (hall : AllHold (teChecks image.buffer)) (hfacts : TeFacts image.buffer image.toLayout) :
    image.WellFormed := by
  simp only [teChecks, teHeaderChecks, teTableChecks, allHold_append, allHold_cons, allHold_nil,
    allHold_sectionChecks_extents_iff, and_true] at hall
  rcases hall with ⟨⟨hheader, -⟩, htable, -, hsections⟩
  rcases hfacts.format with ⟨stripped, hformat, hstripped⟩
  refine ⟨hsize, ?_, ?_, ?_⟩
  · unfold Image.SlotInFile Image.slotAt
    rw [hformat]
    exact hheader
  · rw [hfacts.sectionsOffset, hfacts.sectionCount]
    exact htable
  · have hoffset : image.strippedOffset.toNat = image.buffer.teStrippedSize - 40 := by
      rw [Image.strippedOffset, hformat, Format.strippedOffset, hstripped]
    have hextents : image.extentAt = image.buffer.extentAt 40 := by
      funext i
      rw [Image.extentAt, hfacts.sectionsOffset]
    rw [hoffset, hextents, hfacts.sectionCount, hfacts.sizeOfImage]
    exact hsections

namespace Image

variable {image : Image} {address size : Nat}

theorem wellFormed_of_load {buffer : Buffer} {options : Options}
    (hload : Image.load buffer options = .ok image) : image.WellFormed := by
  rcases load_cases hload with ⟨hbuffer, hsize, hcases⟩
  rw [← hbuffer] at hsize hcases
  rcases hcases with ⟨start, kind, hgrammar, hfacts⟩ | ⟨-, hall, hfacts⟩
  · exact hgrammar.wellFormed hsize hfacts
  · exact hfacts.wellFormed hsize hall

theorem admitted_of_load {buffer : Buffer} {options : Options}
    (hload : Image.load buffer options = .ok image) :
    image.AdmittedBy options := by
  rcases (load_cases hload).2.2 with ⟨start, kind, -, hfacts⟩ | ⟨hallow, -, -⟩
  · exact admittedBy_pe hfacts.format options
  · exact Or.inl hallow

-- All of the stripped bytes count where the options admit the image. Nothing was stripped off
-- a PE image, so they count for one with any options.
theorem shift_eq {options : Options}
    (hadmitted : image.AdmittedBy options) :
    image.shift options = image.strippedOffset.toNat := by
  unfold shift
  by_cases hallow : options.allowTe = true
  · rw [if_pos hallow]
  · rw [if_neg hallow, strippedOffset]
    cases hformat : image.format with
    | pe kind start => rfl
    | te stripped => exact absurd ((admittedBy_te_iff hformat).mp hadmitted) hallow

theorem holder_holds
    (h : ∃ i < image.sectionCount.toNat, (image.extentAt i).Holds address size) :
    image.holderIndex address size < image.sectionCount.toNat ∧
      (image.holder address size).Holds address size := by
  have hlt : image.holderIndex address size < image.sectionCount.toNat := leastIndex_lt_iff.mpr h
  exact ⟨hlt, ((leastIndex_eq_iff hlt).mp rfl).1⟩

namespace WellFormed

/-- A range in the data of a section is in the file, once the bytes that were
    stripped off are taken into account. It must not be empty: the loader does
    not look at the file pointer of a section without data. -/
theorem data_in_file (hwell : image.WellFormed) {i : Nat} (hi : i < image.sectionCount.toNat)
    {distance : Nat} (hpos : 0 < size) (hdata : distance + size ≤ (image.extentAt i).rawSize) :
    image.strippedOffset.toNat ≤ (image.extentAt i).rawPointer ∧
      (image.extentAt i).rawPointer + distance - image.strippedOffset.toNat + size ≤
        image.buffer.size := by
  -- The range is in the data, so the section has data and the loader has looked at it.
  have hraw : 0 < (image.extentAt i).rawSize := by omega
  rcases hwell.sections.inFile i hi hraw with ⟨hstripped, hend⟩
  dsimp only at hstripped hend
  omega

theorem holder_in_file (hwell : image.WellFormed)
    (hsome : ∃ i < image.sectionCount.toNat, (image.extentAt i).Holds address size)
    (hpos : 0 < size)
    (hdata : address - (image.holder address size).address + size ≤
      (image.holder address size).rawSize) :
    image.strippedOffset.toNat ≤ (image.holder address size).rawPointer ∧
      (image.holder address size).rawPointer +
        (address - (image.holder address size).address) - image.strippedOffset.toNat + size ≤
          image.buffer.size :=
  hwell.data_in_file (holder_holds hsome).1 hpos hdata

/-- A directory that was placed in the file is in the file. -/
theorem allHold_viewChecks (hwell : image.WellFormed) {options : Options}
    (hadmitted : image.AdmittedBy options) (hpos : 0 < size)
    (hplace : AllHold (placeChecks image options address size)) :
    AllHold (viewChecks image.buffer (image.placeAt options address size) size) := by
  simp only [placeChecks, allHold_cons] at hplace
  rcases hplace with ⟨-, hsome, hdata, -⟩
  have hfile := hwell.holder_in_file hsome hpos hdata
  rw [viewChecks, allHold_cons, placeAt, shift_eq hadmitted]
  exact ⟨hfile.2, allHold_nil⟩

/-- At most one section holds a range that is not empty. -/
theorem index_unique (hwell : image.WellFormed) {i j : Nat} (hi : i < image.sectionCount.toNat)
    (hj : j < image.sectionCount.toNat) (hpos : 0 < size)
    (hholds : (image.extentAt i).Holds address size)
    (hother : (image.extentAt j).Holds address size) : i = j := by
  have horder := hwell.sections.inOrder
  rcases hholds with ⟨hbegin, hend, -⟩
  rcases hother with ⟨hbegin', hend', -⟩
  -- If one were in front of the other, the range would end before it begins.
  rcases Nat.lt_trichotomy i j with hlt | heq | hgt
  · have hpair := horder i j hlt hj
    omega
  · exact heq
  · have hpair := horder j i hgt hi
    omega

theorem holds_iff (hwell : image.WellFormed) {i : Nat} (hi : i < image.sectionCount.toNat) :
    (image.extentAt i).Holds address size ↔
      (image.extentAt i).address ≤ address ∧ address + size ≤ (image.extentAt i).top := by
  -- The section ends within the image, hence at an address.
  have htop : (image.extentAt i).top ≤ image.sizeOfImage.toNat := hwell.sections.inImage i hi
  have hword := image.sizeOfImage.toNat_lt
  unfold Extent.Holds UInt32.size
  omega

end WellFormed

end Image

end SymbolLocator
