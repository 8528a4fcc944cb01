import SymbolLocator.Proofs.DecodedHeaders
import SymbolLocator.Proofs.TeGrammar

/-!
# Faults of Sections

Which section of a refused table is blamed, and for what.

A section can have three faults. It reaches past the image, it begins before
the end of some section in front of it, or its data is not all in the file.
Whether it has one is a matter of the numbers in the file and of no pass
through the table. The loader knows the sections one at a time, and of those in
front only the end of the last. That it still blames the first section with a
fault is because it stops there: up to the first fault the sections are in
order, and the last of them reaches furthest.

The table of a TE image is gone through twice. The first pass looks for the
furthest end and refuses a section that ends at no address, so such a section
is blamed before any other, wherever it stands. In the second pass no section
can reach past the image, since none reaches past the furthest end.

## Main definitions

* `CheckedTable`: A section table and what its sections are checked against.
* `CheckedTable.OutsideImage`, `CheckedTable.OutOfOrder`,
  `CheckedTable.OutsideFile`: The faults of a section.
* `CheckedTable.Reports`: Which fault of a section is reported.
* `CheckedTable.Blames`: What is reported of a table in one pass.
* `CheckedTable.FirstOutside`: The first section that reaches past the image.
* `CheckedTable.Decides`: An outcome is that of one pass through a table.

## Theorems

* `sectionChecks_eq_flatMap`: The checks of a table, index by index.
* `CheckedTable.sectionsFit_iff`: Sections fit iff none has a fault.
* `CheckedTable.firstFailure_sectionChecks_iff`: One pass blames the first
  section with a fault.
* `CheckedTable.decides_readPe`, `CheckedTable.decides_readTe`: Behind headers
  that are read, one pass decides.
* `CheckedTable.readTe_eq_sectionOutsideImage_iff`: What the first pass through
  the table of a TE image blames.
* `Layout.faulty_section_blamed`: What is reported of a refused table.
-/

namespace SymbolLocator

/-- A section table in a file, and what its sections are checked against. A TE
    image states no size, so there the size is missing. -/
structure CheckedTable where
  buffer : Buffer
  offset : Nat
  count : Nat
  sizeOfImage? : Option Nat
  /-- How far the file offsets are too large. -/
  stripped : Nat

namespace CheckedTable

/-- The table behind the headers of a PE image. -/
def ofPe (buffer : Buffer) (start : UInt32) (coff : CoffHeader) (optional : OptionalHeader) :
    CheckedTable where
  buffer
  offset := start.toNat + 24 + coff.optionalSize.toNat
  count := coff.sectionCount.toNat
  sizeOfImage? := some optional.sizeOfImage.toNat
  stripped := 0

/-- The table behind a TE header. -/
def ofTe (buffer : Buffer) (header : TeHeader) : CheckedTable where
  buffer
  offset := 40
  count := header.sectionCount.toNat
  sizeOfImage? := none
  stripped := header.strippedOffset.toNat

variable (table : CheckedTable)

/-- All headers of the table are in the file. -/
def InFile : Prop := table.offset + 40 * table.count ≤ table.buffer.size

/-- Where the section at `index` lies. -/
def extent (index : Nat) : Extent := table.buffer.extentAt table.offset index

/-- The section at `index` ends at no address, or past an image of known size. -/
def OutsideImage (index : Nat) : Prop :=
  UInt32.size ≤ (table.extent index).top ∨
    ∃ size ∈ table.sizeOfImage?, size < (table.extent index).top

/-- The section at `index` begins before the end of one in front of it. -/
def OutOfOrder (index : Nat) : Prop :=
  ∃ j < index, (table.extent index).address < (table.extent j).top

/-- The section at `index` has data, and the data begins in what was stripped
    off or ends past the file. -/
def OutsideFile (index : Nat) : Prop :=
  0 < (table.extent index).rawSize ∧
    ((table.extent index).rawPointer < table.stripped ∨
      table.buffer.size <
        (table.extent index).rawPointer - table.stripped + (table.extent index).rawSize)

/-- The section at `index` has none of the three faults. -/
structure Faultless (index : Nat) : Prop where
  insideImage : ¬ table.OutsideImage index
  inOrder : ¬ table.OutOfOrder index
  insideFile : ¬ table.OutsideFile index

/-- What is reported of the section at `index`. That it reaches past the image
    comes before its order, and its order before its data. -/
inductive Reports (index : Nat) : LoadError → Prop
  | outsideImage (h : table.OutsideImage index) : Reports index (.sectionOutsideImage index)
  | outOfOrder (hinside : ¬ table.OutsideImage index) (h : table.OutOfOrder index) :
    Reports index (.sectionOutOfOrder index)
  | outsideFile (hinside : ¬ table.OutsideImage index) (horder : ¬ table.OutOfOrder index)
    (h : table.OutsideFile index) : Reports index (.sectionOutsideFile index)

/-- The error is what is reported of the first section with a fault. -/
def Blames (error : LoadError) : Prop :=
  ∃ i < table.count, (∀ j < i, table.Faultless j) ∧ table.Reports i error

/-- The section at `index` is the first that reaches past the image. -/
def FirstOutside (index : Nat) : Prop :=
  index < table.count ∧ table.OutsideImage index ∧ ∀ j < index, ¬ table.OutsideImage j

instance : Decidable table.InFile := inferInstanceAs (Decidable (_ ≤ _))

instance (index : Nat) : Decidable (table.OutsideImage index) :=
  inferInstanceAs (Decidable (_ ∨ _))

instance (index : Nat) : Decidable (table.OutOfOrder index) :=
  inferInstanceAs (Decidable (∃ j < index, _))

instance (index : Nat) : Decidable (table.OutsideFile index) :=
  inferInstanceAs (Decidable (_ ∧ _))

instance (index : Nat) : Decidable (table.Faultless index) :=
  decidable_of_iff
    (¬ table.OutsideImage index ∧ ¬ table.OutOfOrder index ∧ ¬ table.OutsideFile index)
    ⟨fun h => ⟨h.1, h.2.1, h.2.2⟩, fun h => ⟨h.insideImage, h.inOrder, h.insideFile⟩⟩

end CheckedTable

/-! ### Index by index -/

-- The end that the checks carry is that of the section in front, so it can be looked up. The
-- induction is along the table, and each step moves the index with the end that belongs to it.
theorem sectionChecks_eq_flatMap' (limits : Limits) (extents : Nat → Extent) (index count : Nat) :
    sectionChecks limits index (lastTop extents index) ((List.range' index count).map extents) =
      (List.range' index count).flatMap fun i =>
        (extents i).checks limits i (lastTop extents i) := by
  induction count generalizing index with
  | zero => rfl
  | succ count ih =>
      rw [List.range'_succ, List.map_cons, List.flatMap_cons, sectionChecks, ← ih (index + 1)]
      rfl

theorem sectionChecks_eq_flatMap (limits : Limits) (extents : Nat → Extent) (count : Nat) :
    sectionChecks limits 0 0 ((List.range count).map extents) =
      (List.range count).flatMap fun i => (extents i).checks limits i (lastTop extents i) := by
  rw [List.range_eq_range']
  exact sectionChecks_eq_flatMap' limits extents 0 count

theorem topChecks_eq_flatMap (extents : Nat → Extent) (index count : Nat) :
    topChecks index ((List.range' index count).map extents) =
      (List.range' index count).flatMap fun i =>
        [⟨(extents i).top < UInt32.size, .sectionOutsideImage i⟩] := by
  induction count generalizing index with
  | zero => rfl
  | succ count ih =>
      rw [List.range'_succ, List.map_cons, List.flatMap_cons, topChecks, ih (index + 1)]
      rfl

/-- Sections in order end at an address or in front of it iff the last of them
    does. -/
theorem lastTop_le_iff {extents : Nat → Extent} {count address : Nat}
    (horder : ∀ i j, i < j → j < count → (extents i).top ≤ (extents j).address) :
    lastTop extents count ≤ address ↔ ∀ i < count, (extents i).top ≤ address := by
  constructor
  · intro h i hi
    exact Nat.le_trans (top_le_lastTop horder hi) h
  · intro h
    cases count with
    | zero => exact Nat.zero_le _
    | succ last => exact h last (Nat.lt_succ_self last)

-- The fold carries the greatest end so far, which no later section lowers.
theorem top_le_foldl_max {extents : List Extent} (highest : Nat) :
    highest ≤ extents.foldl (fun top extent => max top extent.top) highest ∧
      ∀ extent ∈ extents,
        extent.top ≤ extents.foldl (fun top extent => max top extent.top) highest := by
  induction extents generalizing highest with
  | nil => exact ⟨Nat.le_refl _, fun _ hmem => absurd hmem List.not_mem_nil⟩
  | cons head rest ih =>
      rcases ih (max highest head.top) with ⟨hhighest, hrest⟩
      rw [List.foldl_cons]
      refine ⟨by omega, fun extent hmem => ?_⟩
      rcases List.mem_cons.mp hmem with rfl | hmem
      · omega
      · exact hrest extent hmem

namespace CheckedTable

variable {table : CheckedTable} {limits : Limits}

/-- The limits are those that the table is checked against. -/
structure CheckedBy (table : CheckedTable) (limits : Limits) : Prop where
  image : ∀ i < table.count, (table.extent i).top ≤ limits.sizeOfImage ↔ ¬ table.OutsideImage i
  stripped : limits.stripped = table.stripped
  file : limits.fileSize = table.buffer.size

theorem CheckedBy.inFile_iff (h : table.CheckedBy limits) (i : Nat) :
    (table.extent i).InFile limits.stripped limits.fileSize ↔ ¬ table.OutsideFile i := by
  rw [Extent.InFile, OutsideFile, h.stripped, h.file]
  omega

theorem not_outOfOrder_iff {i : Nat} :
    ¬ table.OutOfOrder i ↔ ∀ j < i, (table.extent j).top ≤ (table.extent i).address := by
  simp only [OutOfOrder, not_exists, not_and, Nat.not_lt]

/-- Sections fit iff none has a fault. -/
theorem sectionsFit_iff (h : table.CheckedBy limits) {count : Nat} (hcount : count ≤ table.count) :
    SectionsFit table.extent count limits ↔ ∀ i < count, table.Faultless i := by
  constructor
  · intro hfit i hi
    refine ⟨(h.image i (by omega)).mp (hfit.inImage i hi), ?_,
      (h.inFile_iff i).mp (hfit.inFile i hi)⟩
    exact not_outOfOrder_iff.mpr fun j hj => hfit.inOrder j i hj hi
  · intro hall
    refine ⟨fun i hi => (h.image i (by omega)).mpr (hall i hi).insideImage, fun j i hj hi => ?_,
      fun i hi => (h.inFile_iff i).mpr (hall i hi).insideFile⟩
    exact not_outOfOrder_iff.mp (hall i hi).inOrder j hj

/-- Behind sections without a fault, the checks of a section report as they
    should. -/
theorem firstFailure_checks_iff (h : table.CheckedBy limits) {i : Nat} (hi : i < table.count)
    (hbefore : ∀ j < i, table.Faultless j) {error : LoadError} :
    FirstFailure ((table.extent i).checks limits i (lastTop table.extent i)) error ↔
      table.Reports i error := by
  -- The sections in front are in order, so the end of the last stands for all of them.
  have hfit := (sectionsFit_iff h (Nat.le_of_lt hi)).mpr hbefore
  have horder : lastTop table.extent i ≤ (table.extent i).address ↔ ¬ table.OutOfOrder i :=
    (lastTop_le_iff hfit.inOrder).trans not_outOfOrder_iff.symm
  simp only [Extent.checks, firstFailure_cons, not_firstFailure_nil, and_false, or_false,
    h.image i hi, horder, h.inFile_iff i, Decidable.not_not]
  constructor
  · intro hfail
    rcases hfail with ⟨himage, rfl⟩ | ⟨himage, ⟨horder, rfl⟩ | ⟨horder, hfile, rfl⟩⟩
    · exact .outsideImage himage
    · exact .outOfOrder himage horder
    · exact .outsideFile himage horder hfile
  · intro hreports
    cases hreports with
    | outsideImage himage => exact Or.inl ⟨himage, rfl⟩
    | outOfOrder himage horder => exact Or.inr ⟨himage, Or.inl ⟨horder, rfl⟩⟩
    | outsideFile himage horder hfile => exact Or.inr ⟨himage, Or.inr ⟨horder, hfile, rfl⟩⟩

/-- One pass through a table blames the first section with a fault. -/
theorem firstFailure_sectionChecks_iff (h : table.CheckedBy limits) {error : LoadError} :
    FirstFailure (sectionChecks limits 0 0 (table.buffer.extents table.offset table.count)) error ↔
      table.Blames error := by
  have hbefore : ∀ i ≤ table.count,
      (∀ j < i, AllHold ((table.extent j).checks limits j (lastTop table.extent j))) ↔
        ∀ j < i, table.Faultless j := by
    intro i hi
    rw [← sectionsFit_iff h hi]
    refine Iff.trans ?_ allHold_sectionChecks_extents_iff
    rw [Buffer.extents, sectionChecks_eq_flatMap]
    exact allHold_flatMap_range.symm
  have hchecks := sectionChecks_eq_flatMap limits table.extent table.count
  rw [Blames, Buffer.extents]
  refine Iff.trans (by rw [← hchecks]; rfl) (Iff.trans firstFailure_flatMap_range ?_)
  refine exists_congr fun i => and_congr_right fun hi => ?_
  rw [hbefore i (Nat.le_of_lt hi)]
  exact and_congr_right fun hfaultless => firstFailure_checks_iff h hi hfaultless

/-- The outcome is that of one pass through the table. It is a success iff no
    section has a fault, and otherwise it is blamed on the first that has. -/
structure Decides (table : CheckedTable) (outcome : Except LoadError Layout) : Prop where
  accepted_iff : (∃ layout, outcome = .ok layout) ↔ ∀ i < table.count, table.Faultless i
  refused_iff : ∀ error, outcome = .error error ↔ table.Blames error

theorem decides_of_follows (h : table.CheckedBy limits) {outcome : Except LoadError Layout}
    {described : Layout → Prop}
    (hfollows : Follows outcome
      (sectionChecks limits 0 0 (table.buffer.extents table.offset table.count)) described) :
    table.Decides outcome where
  accepted_iff := by
    rw [hfollows.exists_ok_iff, allHold_sectionChecks_extents_iff]
    exact sectionsFit_iff h (Nat.le_refl _)
  refused_iff := by
    intro error
    rw [hfollows.eq_error_iff, firstFailure_sectionChecks_iff h]

/-! ### PE images -/

theorem checkedBy_ofPe {buffer : Buffer} {start : UInt32} {coff : CoffHeader}
    {optional : OptionalHeader} :
    (ofPe buffer start coff optional).CheckedBy
      ⟨optional.sizeOfImage.toNat, 0, buffer.size⟩ where
  image := by
    intro i _
    have hword := optional.sizeOfImage.toNat_lt
    have hsize : UInt32.size = 4294967296 := rfl
    -- A section within the image ends at an address, as the image does.
    simp only [OutsideImage, ofPe, Option.mem_some_iff, exists_eq_left']
    omega
  stripped := rfl
  file := rfl

/-- Behind headers that are read, the sections decide whether a PE image is
    accepted. -/
theorem decides_readPe {buffer : Buffer} (hsize : buffer.size < UInt32.size) {start : UInt32}
    {coff : CoffHeader} {optional : OptionalHeader}
    (hheaders : PeHeadersRead buffer start coff optional)
    (htable : (ofPe buffer start coff optional).InFile) :
    (ofPe buffer start coff optional).Decides (Layout.readPe buffer start) := by
  rcases hheaders.optionalRead with ⟨declared, hslice, hoptional⟩
  rcases (CoffHeader.read_follows buffer start).of_eq_ok hheaders.coffRead with
    ⟨hcoff, hcount, hdeclared⟩
  rcases (OptionalHeader.read_follows hdeclared hslice).of_eq_ok hoptional with
    ⟨hchecks, -, hsizeOfImage⟩
  have hoffset : buffer.peTable start.toNat = start.toNat + 24 + coff.optionalSize.toNat := by
    rw [Buffer.peTable, hdeclared]
  have hfollows := (Layout.readPe_follows hsize start).of_append hcoff
  have hbehind := (hfollows.of_cons (hoffset ▸ hheaders.optional_le)).of_append hchecks
  rw [peTableChecks, hoffset, ← hcount, ← hsizeOfImage] at hbehind
  exact decides_of_follows checkedBy_ofPe (hbehind.of_cons htable)

/-! ### TE images -/

section Te

variable {buffer : Buffer} {header : TeHeader}

theorem outsideImage_ofTe_iff {i : Nat} :
    (ofTe buffer header).OutsideImage i ↔ UInt32.size ≤ ((ofTe buffer header).extent i).top := by
  simp only [OutsideImage, ofTe, Option.mem_def, reduceCtorEq, false_and, exists_false, or_false]

/-- Where every section ends at an address, none reaches past the furthest
    end. -/
theorem checkedBy_ofTe
    (htops : ∀ i < (ofTe buffer header).count, ¬ (ofTe buffer header).OutsideImage i) :
    (ofTe buffer header).CheckedBy
      ⟨furthestTop (buffer.extents 40 header.sectionCount.toNat), header.strippedOffset.toNat,
        buffer.size⟩ where
  image := by
    intro i hi
    refine iff_of_true ((top_le_foldl_max 0).2 _ ?_) (htops i hi)
    exact List.mem_map_of_mem (List.mem_range.mpr hi)
  stripped := rfl
  file := rfl

theorem allHold_topChecks_ofTe_iff :
    AllHold (topChecks 0 (buffer.extents 40 header.sectionCount.toNat)) ↔
      ∀ i < (ofTe buffer header).count, ¬ (ofTe buffer header).OutsideImage i := by
  simp only [allHold_topChecks_iff, Buffer.extents, List.forall_mem_map, List.mem_range,
    outsideImage_ofTe_iff, Nat.not_le]
  rfl

/-- The first pass blames the first section that ends at no address. -/
theorem firstFailure_topChecks_ofTe_iff {error : LoadError} :
    FirstFailure (topChecks 0 (buffer.extents 40 header.sectionCount.toNat)) error ↔
      ∃ i, (ofTe buffer header).FirstOutside i ∧ error = .sectionOutsideImage i := by
  rw [Buffer.extents, List.range_eq_range', topChecks_eq_flatMap, ← List.range_eq_range',
    firstFailure_flatMap_range]
  simp only [firstFailure_cons, not_firstFailure_nil, and_false, or_false, allHold_cons,
    allHold_nil, and_true]
  have htop : ∀ i, (buffer.extentAt 40 i).top < UInt32.size ↔
      ¬ (ofTe buffer header).OutsideImage i := by
    intro i
    rw [outsideImage_ofTe_iff, Nat.not_le]
    rfl
  simp only [htop, Decidable.not_not]
  constructor
  · intro h
    rcases h with ⟨i, hi, hbefore, houtside, rfl⟩
    exact ⟨i, ⟨hi, houtside, hbefore⟩, rfl⟩
  · intro h
    rcases h with ⟨i, ⟨hi, houtside, hbefore⟩, rfl⟩
    exact ⟨i, hi, hbefore, houtside, rfl⟩

/-- Behind a header that is read, the two passes decide whether a TE image is
    accepted. -/
theorem readTe_follows_passes (hsize : buffer.size < UInt32.size)
    (hheader : TeHeader.read buffer = .ok header) (htable : (ofTe buffer header).InFile) :
    Follows (Layout.readTe buffer)
      (topChecks 0 (buffer.extents 40 header.sectionCount.toNat) ++
        sectionChecks ⟨furthestTop (buffer.extents 40 header.sectionCount.toNat),
          header.strippedOffset.toNat, buffer.size⟩ 0 0
          (buffer.extents 40 header.sectionCount.toNat)) (TeFacts buffer) := by
  rcases (TeHeader.read_follows buffer).of_eq_ok hheader with ⟨hchecks, hcount, hstripped⟩
  have hbehind := (Layout.readTe_follows hsize).of_append hchecks
  rw [teTableChecks, ← hcount, ← hstripped] at hbehind
  exact hbehind.of_cons htable

theorem decides_readTe (hsize : buffer.size < UInt32.size)
    (hheader : TeHeader.read buffer = .ok header) (htable : (ofTe buffer header).InFile)
    (htops : ∀ i < (ofTe buffer header).count, ¬ (ofTe buffer header).OutsideImage i) :
    (ofTe buffer header).Decides (Layout.readTe buffer) :=
  decides_of_follows (checkedBy_ofTe htops)
    ((readTe_follows_passes hsize hheader htable).of_append (allHold_topChecks_ofTe_iff.mpr htops))

/-- A section is refused for reaching past the image iff it is the first that
    does. What else is wrong with the sections in front does not matter. -/
theorem readTe_eq_sectionOutsideImage_iff (hsize : buffer.size < UInt32.size)
    (hheader : TeHeader.read buffer = .ok header) (htable : (ofTe buffer header).InFile) {i : Nat} :
    Layout.readTe buffer = .error (.sectionOutsideImage i) ↔
      (ofTe buffer header).FirstOutside i := by
  rw [(readTe_follows_passes hsize hheader htable).eq_error_iff, firstFailure_append,
    firstFailure_topChecks_ofTe_iff, allHold_topChecks_ofTe_iff]
  constructor
  · intro h
    rcases h with ⟨j, hfirst, heq⟩ | ⟨htops, hfail⟩
    · rw [LoadError.sectionOutsideImage.injEq] at heq
      exact heq ▸ hfirst
    · -- In the second pass no section reaches past the furthest end.
      rcases (firstFailure_sectionChecks_iff (checkedBy_ofTe htops)).mp hfail with
        ⟨j, hj, -, hreports⟩
      cases hreports with
      | outsideImage houtside => exact absurd houtside (htops _ hj)
  · intro hfirst
    exact Or.inl ⟨i, hfirst, rfl⟩

theorem exists_readTe_iff (hsize : buffer.size < UInt32.size)
    (hheader : TeHeader.read buffer = .ok header) (htable : (ofTe buffer header).InFile) :
    (∃ layout, Layout.readTe buffer = .ok layout) ↔
      ∀ i < (ofTe buffer header).count, (ofTe buffer header).Faultless i := by
  constructor
  · intro hok
    have hall := (readTe_follows_passes hsize hheader htable).exists_ok_iff.mp hok
    have htops := allHold_topChecks_ofTe_iff.mp (allHold_append.mp hall).1
    exact (decides_readTe hsize hheader htable htops).accepted_iff.mp hok
  · intro hall
    have htops : ∀ i < (ofTe buffer header).count, ¬ (ofTe buffer header).OutsideImage i :=
      fun i hi => (hall i hi).insideImage
    exact (decides_readTe hsize hheader htable htops).accepted_iff.mpr hall

end Te

end CheckedTable

/-- Behind headers that are read, and with the section table in the file, the
    sections alone decide. A PE image is accepted iff no section has a fault,
    and is blamed on the first that has. So is a TE image, except that a
    section that ends at no address is blamed before all others. -/
theorem Layout.faulty_section_blamed {buffer : Buffer} (hsize : buffer.size < UInt32.size) :
    (∀ start coff optional, PeHeadersRead buffer start coff optional →
      (CheckedTable.ofPe buffer start coff optional).InFile →
      ((∃ layout, Layout.readPe buffer start = .ok layout) ↔
        ∀ i < coff.sectionCount.toNat,
          (CheckedTable.ofPe buffer start coff optional).Faultless i) ∧
      ∀ error, Layout.readPe buffer start = .error error ↔
        (CheckedTable.ofPe buffer start coff optional).Blames error) ∧
    ∀ header, TeHeader.read buffer = .ok header → (CheckedTable.ofTe buffer header).InFile →
      ((∃ layout, Layout.readTe buffer = .ok layout) ↔
        ∀ i < header.sectionCount.toNat, (CheckedTable.ofTe buffer header).Faultless i) ∧
      (∀ i, Layout.readTe buffer = .error (.sectionOutsideImage i) ↔
        (CheckedTable.ofTe buffer header).FirstOutside i) ∧
      ((∀ i < header.sectionCount.toNat, ¬ (CheckedTable.ofTe buffer header).OutsideImage i) →
        ∀ error, Layout.readTe buffer = .error error ↔
          (CheckedTable.ofTe buffer header).Blames error) := by
  refine ⟨fun start coff optional hheaders htable => ?_, fun header hheader htable => ?_⟩
  · have hdecides := CheckedTable.decides_readPe hsize hheaders htable
    exact ⟨hdecides.accepted_iff, hdecides.refused_iff⟩
  · refine ⟨CheckedTable.exists_readTe_iff hsize hheader htable, fun i => ?_, fun htops => ?_⟩
    · exact CheckedTable.readTe_eq_sectionOutsideImage_iff hsize hheader htable
    · exact (CheckedTable.decides_readTe hsize hheader htable htops).refused_iff

/-- A PE32 image with three sections. The second begins within the first and
    has data past the file, and the third reaches past the image. -/
def disorderedImage : Buffer :=
  ⟨(peSignature ++ toLittleEndian 2 0x14C ++ toLittleEndian 2 3 ++ List.replicate 12 0 ++
    toLittleEndian 2 96 ++ toLittleEndian 2 0 ++
    toLittleEndian 2 0x10B ++ List.replicate 54 0 ++ toLittleEndian 4 0x3000 ++
    List.replicate 36 0 ++
    Section.encode ⟨.replicate 8 0, 0x1000, 0x1000, 0, 0, 0⟩ (.replicate 12 0) ++
    Section.encode ⟨.replicate 8 0, 0x1000, 0x1800, 8, 0x4000, 0⟩ (.replicate 12 0) ++
    Section.encode ⟨.replicate 8 0, 0x1000, 0x4000, 0, 0, 0⟩ (.replicate 12 0)).toArray⟩

/-- A TE image with two sections. The first has data past the file, and the
    second ends at no address. -/
def unendingImage : Buffer :=
  ⟨([0x56, 0x5A, 0, 0, 2, 0] ++ toLittleEndian 2 40 ++ List.replicate 32 0 ++
    Section.encode ⟨.replicate 8 0, 0x1000, 0x1000, 8, 0x4000, 0⟩ (.replicate 12 0) ++
    Section.encode ⟨.replicate 8 0, 1, 0xFFFFFFFF, 0, 0, 0⟩ (.replicate 12 0)).toArray⟩

theorem disorderedImage_faulty_section_blamed :
    disorderedImage.size < UInt32.size ∧ unendingImage.size < UInt32.size ∧
      (∃ coff optional, PeHeadersRead disorderedImage 0 coff optional ∧
        (CheckedTable.ofPe disorderedImage 0 coff optional).InFile ∧
        Layout.readPe disorderedImage 0 = .error (.sectionOutOfOrder 1)) ∧
      ∃ header, TeHeader.read unendingImage = .ok header ∧
        (CheckedTable.ofTe unendingImage header).InFile ∧
        Layout.readTe unendingImage = .error (.sectionOutsideImage 1) := by
  have hsize : disorderedImage.size < UInt32.size := by decide +kernel
  have hsize' : unendingImage.size < UInt32.size := by decide +kernel
  refine ⟨hsize, hsize', ⟨⟨3, 96⟩, ⟨.pe32, 0, 0x3000⟩, ?_⟩, ⟨2, 0⟩, ?_⟩
  · have hheaders : PeHeadersRead disorderedImage 0 ⟨3, 96⟩ ⟨.pe32, 0, 0x3000⟩ :=
      ⟨eq_ok_of_toOption (by decide +kernel), disorderedImage.extract 24 120,
        if_pos (by decide +kernel), eq_ok_of_toOption (by decide +kernel)⟩
    have htable : (CheckedTable.ofPe disorderedImage 0 ⟨3, 96⟩ ⟨.pe32, 0, 0x3000⟩).InFile := by
      decide +kernel
    refine ⟨hheaders, htable, ?_⟩
    refine (((Layout.faulty_section_blamed hsize).1 0 _ _ hheaders htable).2 _).mpr ?_
    exact ⟨1, by decide, by decide +kernel, .outOfOrder (by decide +kernel) (by decide +kernel)⟩
  · have hheader : TeHeader.read unendingImage = .ok ⟨2, 0⟩ :=
      eq_ok_of_toOption (by decide +kernel)
    have htable : (CheckedTable.ofTe unendingImage ⟨2, 0⟩).InFile := by
      decide +kernel
    refine ⟨hheader, htable, ?_⟩
    refine (((Layout.faulty_section_blamed hsize').2 _ hheader htable).2.1 1).mpr ?_
    exact ⟨by decide, by decide +kernel, by decide +kernel⟩

end SymbolLocator
