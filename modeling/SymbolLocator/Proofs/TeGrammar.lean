import SymbolLocator.Proofs.HeaderChecks

/-!
# Grammar of TE Images

Which buffers are TE images, and how far the image in one reaches.

A TE header has no field for the size of the image, so the loader goes through
the section table twice. The first pass takes the greatest end of all sections
for the size of the image, and the second checks every section against it.
The grammar knows of neither pass. It asks of every section that it ends at an
address, and of every pair of sections that the one in front ends before the
other begins.

The two passes are tied by the order of the sections. Each ends no earlier
than the one in front of it, so the greatest end is that of the last section,
and no section can reach past an image of this size. The second pass only ever
refuses a section for its order or for its data.

## Main definitions

* `lastTop`: The end of the last section of a table.
* `TeGrammar`: The buffer holds a TE image.
* `TeReading`: What a layout says of a TE image, with the end of its last
  section for the size of the image.

## Theorems

* `furthestTop_eq_lastTop`: The greatest end of ordered sections is that of the
  last.
* `top_le_lastTop`: It bounds the ends of all of them.
* `allHold_teChecks_iff`: The checks of a TE image all hold iff the grammar does.
* `Layout.readTe_eq_ok_iff`, `Layout.read_te`: What reading a TE layout gives.
* `Layout.readTe_accepts_grammar`: The loader and the grammar agree.
-/

namespace SymbolLocator

/-- The end of the last of `count` sections, or zero without sections. -/
def lastTop (extents : Nat → Extent) : (count : Nat) → Nat
  | 0 => 0
  | count + 1 => (extents count).top

/-- The buffer holds a TE image. -/
structure TeGrammar (buffer : Buffer) : Prop where
  headerInFile : 40 ≤ buffer.size
  stripped : 40 ≤ buffer.teStrippedSize
  tableInFile : 40 + 40 * buffer.teSectionCount ≤ buffer.size
  topIsWord : ∀ i < buffer.teSectionCount, (buffer.extentAt 40 i).top < UInt32.size
  inOrder : ∀ i j, i < j → j < buffer.teSectionCount →
    (buffer.extentAt 40 i).top ≤ (buffer.extentAt 40 j).address
  inFile : ∀ i < buffer.teSectionCount,
    (buffer.extentAt 40 i).InFile (buffer.teStrippedSize - 40) buffer.size

instance (buffer : Buffer) : Decidable (TeGrammar buffer) :=
  decidable_of_iff
    (40 ≤ buffer.size ∧ 40 ≤ buffer.teStrippedSize ∧
      40 + 40 * buffer.teSectionCount ≤ buffer.size ∧
      (∀ i < buffer.teSectionCount, (buffer.extentAt 40 i).top < UInt32.size) ∧
      (∀ j < buffer.teSectionCount, ∀ i < j,
        (buffer.extentAt 40 i).top ≤ (buffer.extentAt 40 j).address) ∧
      ∀ i < buffer.teSectionCount,
        (buffer.extentAt 40 i).InFile (buffer.teStrippedSize - 40) buffer.size)
    ⟨fun h => ⟨h.1, h.2.1, h.2.2.1, h.2.2.2.1, fun i j hij hj => h.2.2.2.2.1 j hj i hij,
        h.2.2.2.2.2⟩,
      fun h => ⟨h.headerInFile, h.stripped, h.tableInFile, h.topIsWord,
        fun j hj i hij => h.inOrder i j hij hj, h.inFile⟩⟩

/-- What a layout says of the TE image in a buffer. The end of the last section
    is the size of the image. -/
structure TeReading (buffer : Buffer) (layout : Layout) : Prop where
  format : ∃ stripped, layout.format = .te stripped ∧
    stripped.toNat = buffer.teStrippedSize - 40
  sizeOfImage : layout.sizeOfImage.toNat = lastTop (buffer.extentAt 40) buffer.teSectionCount
  sectionsOffset : layout.sectionsOffset.toNat = 40
  sectionCount : layout.sectionCount.toNat = buffer.teSectionCount

/-! ### The last section -/

section LastTop

variable {extents : Nat → Extent} {count : Nat}

/-- Sections in order all end where the last one does, or in front. -/
theorem top_le_lastTop (horder : ∀ i j, i < j → j < count → (extents i).top ≤ (extents j).address)
    {i : Nat} (hi : i < count) : (extents i).top ≤ lastTop extents count := by
  cases count with
  | zero => exact absurd hi (Nat.not_lt_zero i)
  | succ last =>
      show (extents i).top ≤ (extents last).top
      rcases Nat.lt_succ_iff_lt_or_eq.mp hi with hlt | rfl
      · have hpair := horder i last hlt (Nat.lt_succ_self last)
        have hgrow : (extents last).address ≤ (extents last).top := Nat.le_add_right _ _
        exact Nat.le_trans hpair hgrow
      · exact Nat.le_refl _

-- The fold goes through the table front to back, so the induction is on the number of
-- sections: the last one is compared with the greatest end in front of it.
theorem furthestTop_eq_lastTop
    (horder : ∀ i j, i < j → j < count → (extents i).top ≤ (extents j).address) :
    furthestTop ((List.range count).map extents) = lastTop extents count := by
  induction count with
  | zero => rfl
  | succ last ih =>
      have hfront : furthestTop ((List.range last).map extents) = lastTop extents last :=
        ih fun i j hij hj => horder i j hij (Nat.lt_succ_of_lt hj)
      have hsplit : furthestTop ((List.range (last + 1)).map extents) =
          max (furthestTop ((List.range last).map extents)) (extents last).top := by
        rw [furthestTop, List.range_succ, List.map_append, List.foldl_append]
        rfl
      have hle : lastTop extents last ≤ (extents last).top := by
        cases last with
        | zero => exact Nat.zero_le _
        | succ before =>
            exact top_le_lastTop horder (i := before) (by omega)
      rw [hsplit, hfront, Nat.max_eq_right hle]
      rfl

end LastTop

namespace TeGrammar

variable {buffer : Buffer}

theorem furthestTop_eq (h : TeGrammar buffer) :
    furthestTop (buffer.extents 40 buffer.teSectionCount) =
      lastTop (buffer.extentAt 40) buffer.teSectionCount :=
  furthestTop_eq_lastTop h.inOrder

-- That no section reaches past the image is a matter of their order.
theorem sectionsFit (h : TeGrammar buffer) :
    SectionsFit (buffer.extentAt 40) buffer.teSectionCount
      ⟨lastTop (buffer.extentAt 40) buffer.teSectionCount, buffer.teStrippedSize - 40,
        buffer.size⟩ where
  inImage := fun _ hi => top_le_lastTop h.inOrder hi
  inOrder := h.inOrder
  inFile := h.inFile

end TeGrammar

/-! ### Checks and grammar -/

/-- The checks of a TE image all hold iff the buffer holds one. -/
theorem allHold_teChecks_iff {buffer : Buffer} : AllHold (teChecks buffer) ↔ TeGrammar buffer := by
  simp only [teChecks, teHeaderChecks, teTableChecks, allHold_append, allHold_cons, allHold_nil,
    allHold_sectionChecks_extents_iff, allHold_topChecks_iff, and_true]
  constructor
  · intro h
    rcases h with ⟨⟨hheader, hstripped⟩, htable, htops, hsections⟩
    refine ⟨hheader, hstripped, htable, fun i hi => ?_, hsections.inOrder, hsections.inFile⟩
    exact htops _ (List.mem_map_of_mem (List.mem_range.mpr hi))
  · intro h
    refine ⟨⟨h.headerInFile, h.stripped⟩, h.tableInFile, fun extent hmem => ?_, ?_⟩
    · rcases List.mem_map.mp hmem with ⟨i, hi, rfl⟩
      exact h.topIsWord i (List.mem_range.mp hi)
    · rw [h.furthestTop_eq]
      exact h.sectionsFit

theorem TeFacts.unique {buffer : Buffer} {a b : Layout} (ha : TeFacts buffer a)
    (hb : TeFacts buffer b) : a = b := by
  rcases ha.format with ⟨stripped, hformat, hstripped⟩
  rcases hb.format with ⟨other, hformat', hstripped'⟩
  have hsame : stripped = other := UInt32.toNat_inj.mp (hstripped.trans hstripped'.symm)
  cases a
  cases b
  rw [Layout.mk.injEq]
  refine ⟨?_, ?_, ?_, ?_⟩
  · exact hformat.trans (hsame ▸ hformat'.symm)
  · exact UInt32.toNat_inj.mp (ha.sizeOfImage.trans hb.sizeOfImage.symm)
  · exact UInt32.toNat_inj.mp (ha.sectionsOffset.trans hb.sectionsOffset.symm)
  · exact UInt16.toNat_inj.mp (ha.sectionCount.trans hb.sectionCount.symm)

theorem TeGrammar.teFacts_iff_teReading {buffer : Buffer} (h : TeGrammar buffer) {layout : Layout} :
    TeFacts buffer layout ↔ TeReading buffer layout := by
  have hsize := h.furthestTop_eq
  constructor
  · intro hfacts
    exact ⟨hfacts.format, hfacts.sizeOfImage.trans hsize, hfacts.sectionsOffset,
      hfacts.sectionCount⟩
  · intro hreading
    exact ⟨hreading.format, hreading.sizeOfImage.trans hsize.symm, hreading.sectionsOffset,
      hreading.sectionCount⟩

theorem Layout.readTe_eq_ok_iff {buffer : Buffer} (hsize : buffer.size < UInt32.size)
    {layout : Layout} :
    Layout.readTe buffer = .ok layout ↔ TeGrammar buffer ∧ TeReading buffer layout := by
  rw [(readTe_follows hsize).eq_ok_iff (fun _ _ => TeFacts.unique), allHold_teChecks_iff]
  exact and_congr_right fun hgrammar => hgrammar.teFacts_iff_teReading

/-- A buffer that begins with a TE signature is an image iff the options allow
    TE images and it is one. -/
theorem Layout.read_te {buffer : Buffer} (hsize : buffer.size < UInt32.size)
    (hte : buffer.hasBytesAt 0 [0x56, 0x5A]) (options : Options) (layout : Layout) :
    Layout.read buffer options = .ok layout ↔
      options.allowTe = true ∧ Layout.readTe buffer = .ok layout := by
  have htwo : 0 + 2 ≤ buffer.size := Buffer.le_size_of_hasBytesAt hte (List.cons_ne_nil _ _)
  have hisTe : buffer.isTe := (Buffer.numberAt_eq_iff_hasBytesAt htwo).mpr hte
  have hdos : ¬ buffer.isDos := by
    rw [Buffer.isDos, hisTe]
    decide
  have hfacts : ∀ other, ImageFacts buffer other ↔ TeFacts buffer other := by
    intro other
    rw [ImageFacts, if_neg hdos, if_pos hisTe]
  have hunique : ∀ a b, ImageFacts buffer a → ImageFacts buffer b → a = b := by
    intro a b ha hb
    exact ((hfacts a).mp ha).unique ((hfacts b).mp hb)
  rw [(read_follows buffer options).eq_ok_iff hunique, hfacts, imageChecks, formatChecks,
    if_neg hdos, if_pos hisTe, (readTe_follows hsize).eq_ok_iff (fun _ _ => TeFacts.unique),
    allHold_cons, allHold_cons, allHold_cons]
  constructor
  · intro h
    rcases h with ⟨⟨-, -, hallow, hall⟩, hlayout⟩
    exact ⟨hallow, hall, hlayout⟩
  · intro h
    rcases h with ⟨hallow, hall, hlayout⟩
    exact ⟨⟨hsize, by omega, hallow, hall⟩, hlayout⟩

/-! ### Agreement -/

/-- The loader accepts exactly the TE images of the grammar. It reports their
    numbers unchanged and the end of the last section for the size of the
    image, and no section reaches past that. -/
theorem Layout.readTe_accepts_grammar {buffer : Buffer} (hsize : buffer.size < UInt32.size) :
    ((∃ layout, Layout.readTe buffer = .ok layout) ↔ TeGrammar buffer) ∧
    (∀ layout, Layout.readTe buffer = .ok layout ↔
      TeGrammar buffer ∧ TeReading buffer layout) ∧
    ∀ layout, Layout.readTe buffer = .ok layout →
      ∀ i < buffer.teSectionCount, (buffer.extentAt 40 i).top ≤ layout.sizeOfImage.toNat := by
  refine ⟨?_, fun layout => readTe_eq_ok_iff hsize, fun layout hread i hi => ?_⟩
  · rw [(readTe_follows hsize).exists_ok_iff, allHold_teChecks_iff]
  · rcases (readTe_eq_ok_iff hsize).mp hread with ⟨hgrammar, hreading⟩
    rw [hreading.sizeOfImage]
    exact top_le_lastTop hgrammar.inOrder hi

/-- A TE image that a hundred bytes were stripped off. The first of its two
    sections has no data. The second holds a debug directory of one CodeView
    entry and the record of the path `a`. -/
def strippedImage : Buffer :=
  ⟨([0x56, 0x5A, 0, 0, 2, 0] ++ toLittleEndian 2 140 ++ List.replicate 24 0 ++
    toLittleEndian 4 0x2000 ++ toLittleEndian 4 28 ++
    -- The section headers: sizes and places in memory and in the file.
    List.replicate 8 0 ++ toLittleEndian 4 16 ++ toLittleEndian 4 0x1000 ++
    List.replicate 24 0 ++
    List.replicate 8 0 ++ toLittleEndian 4 54 ++ toLittleEndian 4 0x2000 ++
    toLittleEndian 4 54 ++ toLittleEndian 4 220 ++ List.replicate 16 0 ++
    -- The debug entry: its type, and the size and place of the record.
    List.replicate 12 0 ++ toLittleEndian 4 2 ++ toLittleEndian 4 26 ++ toLittleEndian 4 0 ++
    toLittleEndian 4 248 ++
    -- The record: signature, identity and path.
    [0x52, 0x53, 0x44, 0x53] ++ List.replicate 20 0 ++ [0x61, 0]).toArray⟩

theorem strippedImage_teGrammar : TeGrammar strippedImage := by decide +kernel

/-- The layout of the stripped image. -/
def strippedLayout : Layout where
  format := .te 100
  sizeOfImage := 0x2036
  sectionsOffset := 40
  sectionCount := 2

theorem strippedImage_teReading : TeReading strippedImage strippedLayout where
  format := ⟨100, rfl, by decide +kernel⟩
  sizeOfImage := by decide +kernel
  sectionsOffset := rfl
  sectionCount := by decide +kernel

theorem readTe_accepts_stripped_image :
    strippedImage.size < UInt32.size ∧ Layout.readTe strippedImage = .ok strippedLayout := by
  have hsize : strippedImage.size < UInt32.size := by decide +kernel
  have haccepts := (Layout.readTe_accepts_grammar hsize).2.1 strippedLayout
  exact ⟨hsize, haccepts.mpr ⟨strippedImage_teGrammar, strippedImage_teReading⟩⟩

/-- The stripped image as it is loaded. -/
def strippedLoaded : Image := { strippedLayout with buffer := strippedImage }

theorem load_strippedImage : Image.load strippedImage .standard = .ok strippedLoaded := by
  have hsize : strippedImage.size < UInt32.size := by decide +kernel
  have hte : strippedImage.hasBytesAt 0 [0x56, 0x5A] := by decide +kernel
  rw [Image.load_eq_ok_iff, Layout.read_te hsize hte, Layout.readTe_eq_ok_iff hsize]
  exact ⟨⟨rfl, strippedImage_teGrammar, strippedImage_teReading⟩, rfl⟩

end SymbolLocator
