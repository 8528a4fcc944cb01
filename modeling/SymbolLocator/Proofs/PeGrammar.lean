import SymbolLocator.Proofs.HeaderChecks

/-!
# Grammar of PE Images

Which buffers are PE images, and what is read off them.

The grammar is stated over the numbers in the file, all of them natural, and
mentions no check and no order of checks. In particular it asks of every pair
of sections that the one in front ends before the other begins, where the
loader compares neighbours only, and it multiplies the number of data
directories without regard to the width of a word.

`Layout.readPe_accepts_grammar` says that the loader accepts exactly this
grammar and reports exactly these numbers, wherever in a file the headers
stand. A buffer that begins with a DOS header is then an image iff its PE
header is one, and so is a buffer that begins with the PE header itself.

## Main definitions

* `OptionalFits`: An optional header of a kind, with room for its data
  directories.
* `PeGrammar`: A PE image with its signature at an offset.

## Theorems

* `PeGrammar.kind_eq`: A PE image is of one kind only.
* `allHold_peChecks_iff`: The checks of a PE image all hold iff the grammar
  does.
* `Layout.readPe_eq_ok_iff`: What reading a PE layout gives.
* `Layout.readPe_accepts_grammar`: The loader and the grammar agree.
-/

namespace SymbolLocator

/-- The optional header behind the PE signature at `start` is of the given
    kind, and has room for as many data directories as it announces. -/
def OptionalFits (buffer : Buffer) (start : Nat) : PeKind → Prop
  | .pe32 =>
    buffer.numberAt 2 (start + 24) = 0x10B ∧
      96 ≤ buffer.peOptionalSize start ∧
      96 + 8 * buffer.numberAt 4 (start + 24 + 92) ≤ buffer.peOptionalSize start
  | .pe32Plus =>
    buffer.numberAt 2 (start + 24) = 0x20B ∧
      112 ≤ buffer.peOptionalSize start ∧
      112 + 8 * buffer.numberAt 4 (start + 24 + 108) ≤ buffer.peOptionalSize start

instance (buffer : Buffer) (start : Nat) : (kind : PeKind) →
    Decidable (OptionalFits buffer start kind)
  | .pe32 => inferInstanceAs (Decidable (_ ∧ _ ∧ _))
  | .pe32Plus => inferInstanceAs (Decidable (_ ∧ _ ∧ _))

/-- The buffer holds a PE image of the given kind, with its signature at
    `start`. -/
structure PeGrammar (buffer : Buffer) (start : Nat) (kind : PeKind) : Prop where
  signature : buffer.hasBytesAt start [0x50, 0x45, 0, 0]
  optionalInFile : start + 24 + buffer.peOptionalSize start ≤ buffer.size
  optional : OptionalFits buffer start kind
  tableInFile : buffer.peTable start + 40 * buffer.peSectionCount start ≤ buffer.size
  sections : SectionsFit (buffer.extentAt (buffer.peTable start)) (buffer.peSectionCount start)
    ⟨buffer.peSizeOfImage start, 0, buffer.size⟩

instance (buffer : Buffer) (start : Nat) (kind : PeKind) :
    Decidable (PeGrammar buffer start kind) :=
  decidable_of_iff
    (buffer.hasBytesAt start [0x50, 0x45, 0, 0] ∧
      start + 24 + buffer.peOptionalSize start ≤ buffer.size ∧
      OptionalFits buffer start kind ∧
      buffer.peTable start + 40 * buffer.peSectionCount start ≤ buffer.size ∧
      SectionsFit (buffer.extentAt (buffer.peTable start)) (buffer.peSectionCount start)
        ⟨buffer.peSizeOfImage start, 0, buffer.size⟩)
    ⟨fun h => ⟨h.1, h.2.1, h.2.2.1, h.2.2.2.1, h.2.2.2.2⟩,
      fun h => ⟨h.signature, h.optionalInFile, h.optional, h.tableInFile, h.sections⟩⟩

theorem OptionalFits.kind_eq {buffer : Buffer} {start : Nat} {kind : PeKind}
    (h : OptionalFits buffer start kind) : buffer.peKind start = kind := by
  cases kind with
  | pe32 => rw [Buffer.peKind, h.1, if_neg (by decide)]
  | pe32Plus => rw [Buffer.peKind, h.1, if_pos rfl]

theorem PeGrammar.kind_eq {buffer : Buffer} {start : Nat} {kind : PeKind}
    (h : PeGrammar buffer start kind) : buffer.peKind start = kind :=
  h.optional.kind_eq

/-! ### Checks and grammar -/

theorem allHold_optionalChecks_iff {buffer : Buffer} {start : Nat} :
    AllHold (optionalChecks buffer start) ↔
      OptionalFits buffer start (buffer.peKind start) := by
  simp only [optionalChecks, Buffer.peDirectoryCount, allHold_cons, allHold_nil, and_true]
  -- The kind is a matter of the magic number, and fixes the two constants.
  by_cases hplus : buffer.numberAt 2 (start + 24) = 0x20B
  · have hkind : buffer.peKind start = .pe32Plus := by rw [Buffer.peKind, if_pos hplus]
    rw [hkind]
    simp only [OptionalFits, PeKind.directoriesOffset, PeKind.countOffset, hplus, or_true,
      true_and]
    omega
  · have hkind : buffer.peKind start = .pe32 := by rw [Buffer.peKind, if_neg hplus]
    rw [hkind]
    simp only [OptionalFits, PeKind.directoriesOffset, PeKind.countOffset]
    omega

/-- The checks of a PE image all hold iff the buffer holds one. -/
theorem allHold_peChecks_iff {buffer : Buffer} {start : Nat} :
    AllHold (peChecks buffer start) ↔ PeGrammar buffer start (buffer.peKind start) := by
  simp only [peChecks, coffChecks, peTableChecks, allHold_append, allHold_cons, allHold_nil,
    allHold_optionalChecks_iff, allHold_sectionChecks_extents_iff, and_true]
  constructor
  · intro h
    -- Three of the checks of the file header only say that it can be read.
    rcases h with ⟨⟨-, hsignature, -, -⟩, hfit, hoptional, htable, hsections⟩
    exact ⟨hsignature, hfit, hoptional, htable, hsections⟩
  · intro h
    -- The file header lies in front of the optional header, which is in the file.
    have hfit : start + 24 + buffer.peOptionalSize start ≤ buffer.size := h.optionalInFile
    exact ⟨⟨by omega, h.signature, by omega, by omega⟩, hfit, h.optional, h.tableInFile,
      h.sections⟩

theorem exists_peGrammar_iff {buffer : Buffer} {start : Nat} :
    AllHold (peChecks buffer start) ↔ ∃ kind, PeGrammar buffer start kind := by
  rw [allHold_peChecks_iff]
  constructor
  · intro h
    exact ⟨_, h⟩
  · intro h
    rcases h with ⟨kind, hgrammar⟩
    rw [hgrammar.kind_eq]
    exact hgrammar

theorem PeFacts.unique {buffer : Buffer} {start : UInt32} {kind : PeKind} {a b : Layout}
    (ha : PeFacts buffer start kind a) (hb : PeFacts buffer start kind b) : a = b := by
  cases a
  cases b
  rw [Layout.mk.injEq]
  refine ⟨ha.format.trans hb.format.symm, ?_, ?_, ?_⟩
  · exact UInt32.toNat_inj.mp (ha.sizeOfImage.trans hb.sizeOfImage.symm)
  · exact UInt32.toNat_inj.mp (ha.sectionsOffset.trans hb.sectionsOffset.symm)
  · exact UInt16.toNat_inj.mp (ha.sectionCount.trans hb.sectionCount.symm)

theorem Layout.readPe_eq_ok_iff {buffer : Buffer} (hsize : buffer.size < UInt32.size)
    {start : UInt32} {layout : Layout} :
    Layout.readPe buffer start = .ok layout ↔
      ∃ kind, PeGrammar buffer start.toNat kind ∧ PeFacts buffer start kind layout := by
  rw [(readPe_follows hsize start).eq_ok_iff (fun _ _ => PeFacts.unique), allHold_peChecks_iff]
  constructor
  · intro h
    exact ⟨_, h⟩
  · intro h
    rcases h with ⟨kind, hgrammar, hfacts⟩
    rw [hgrammar.kind_eq]
    exact ⟨hgrammar, hfacts⟩

theorem Layout.exists_readPe_iff {buffer : Buffer} (hsize : buffer.size < UInt32.size)
    (start : UInt32) :
    (∃ layout, Layout.readPe buffer start = .ok layout) ↔
      ∃ kind, PeGrammar buffer start.toNat kind := by
  rw [(readPe_follows hsize start).exists_ok_iff, exists_peGrammar_iff]

/-! ### Signatures -/

theorem Buffer.hasBytesAt_of_append {buffer : Buffer} {offset : Nat} {front back : List UInt8}
    (h : buffer.hasBytesAt offset (front ++ back)) : buffer.hasBytesAt offset front := by
  have htake := congrArg (List.take front.length) h
  rw [List.take_take, List.length_append, Nat.min_eq_left (Nat.le_add_right _ _),
    List.take_left] at htake
  exact htake

theorem Buffer.isDos_of_hasBytesAt {buffer : Buffer} (h : buffer.hasBytesAt 0 [0x4D, 0x5A]) :
    buffer.isDos :=
  (numberAt_eq_iff_hasBytesAt (le_size_of_hasBytesAt h (List.cons_ne_nil _ _))).mpr h

-- A buffer that begins with a PE signature begins with no other.
theorem Buffer.numberAt_of_hasBytesAt_pe {buffer : Buffer}
    (h : buffer.hasBytesAt 0 [0x50, 0x45, 0, 0]) : buffer.numberAt 2 0 = 0x4550 := by
  have hfront : buffer.hasBytesAt 0 [0x50, 0x45] := hasBytesAt_of_append h
  exact (numberAt_eq_iff_hasBytesAt (le_size_of_hasBytesAt hfront (List.cons_ne_nil _ _))).mpr
    hfront

/-- Where the checks of a buffer lead to a PE signature, reading it is reading
    the PE image there, behind the one check in front. -/
theorem Layout.read_pe {buffer : Buffer} {options : Options} {start : UInt32}
    {condition : Prop} (error : LoadError) (hsize : buffer.size < UInt32.size)
    (htwo : 2 ≤ buffer.size)
    (hchecks : formatChecks buffer options = ⟨condition, error⟩ :: peChecks buffer start.toNat)
    (hfacts : ∀ layout, ImageFacts buffer layout ↔
      PeFacts buffer start (buffer.peKind start.toNat) layout) (layout : Layout) :
    Layout.read buffer options = .ok layout ↔
      condition ∧ Layout.readPe buffer start = .ok layout := by
  have hunique : ∀ a b, ImageFacts buffer a → ImageFacts buffer b → a = b := by
    intro a b ha hb
    exact ((hfacts a).mp ha).unique ((hfacts b).mp hb)
  rw [(Layout.read_follows buffer options).eq_ok_iff hunique, hfacts, imageChecks, hchecks,
    (readPe_follows hsize start).eq_ok_iff (fun _ _ => PeFacts.unique), allHold_cons,
    allHold_cons, allHold_cons]
  constructor
  · intro h
    rcases h with ⟨⟨-, -, hcondition, hall⟩, hlayout⟩
    exact ⟨hcondition, hall, hlayout⟩
  · intro h
    rcases h with ⟨hcondition, hall, hlayout⟩
    exact ⟨⟨hsize, htwo, hcondition, hall⟩, hlayout⟩

/-- Behind a DOS header, a buffer is an image iff its PE header is. -/
theorem Layout.read_dos {buffer : Buffer} (hsize : buffer.size < UInt32.size)
    (hdos : buffer.hasBytesAt 0 [0x4D, 0x5A]) (options : Options) (layout : Layout) :
    Layout.read buffer options = .ok layout ↔
      64 ≤ buffer.size ∧ Layout.readPe buffer buffer.dosStart = .ok layout := by
  have hisDos := Buffer.isDos_of_hasBytesAt hdos
  have htwo : 0 + 2 ≤ buffer.size :=
    Buffer.le_size_of_hasBytesAt hdos (List.cons_ne_nil _ _)
  refine read_pe (.headerTruncated 64 buffer.size) hsize (by omega) ?_ (fun other => ?_) layout
  · rw [formatChecks, if_pos hisDos, Buffer.toNat_dosStart]
  · rw [ImageFacts, if_pos hisDos, Buffer.toNat_dosStart]

/-- A buffer that begins with a PE signature is an image iff it is one at its
    very start. -/
theorem Layout.read_bare {buffer : Buffer} (hsize : buffer.size < UInt32.size)
    (hpe : buffer.hasBytesAt 0 [0x50, 0x45, 0, 0]) (options : Options) (layout : Layout) :
    Layout.read buffer options = .ok layout ↔ Layout.readPe buffer 0 = .ok layout := by
  -- The word that tells the formats apart is that of a PE signature, so it is no other.
  have hnumber := Buffer.numberAt_of_hasBytesAt_pe hpe
  have hdos : ¬ buffer.isDos := by
    rw [Buffer.isDos, hnumber]
    decide
  have hte : ¬ buffer.isTe := by
    rw [Buffer.isTe, hnumber]
    decide
  have hfour : 0 + 4 ≤ buffer.size :=
    Buffer.le_size_of_hasBytesAt hpe (List.cons_ne_nil _ _)
  have hread : Layout.read buffer options = .ok layout ↔
      buffer.hasBytesAt 0 peSignature ∧ Layout.readPe buffer 0 = .ok layout := by
    refine read_pe .unknownFormat hsize (by omega) ?_ (fun other => ?_) layout
    · rw [formatChecks, if_neg hdos, if_neg hte]
      rfl
    · rw [ImageFacts, if_neg hdos, if_neg hte]
      rfl
  rw [hread]
  exact ⟨fun h => h.2, fun h => ⟨hpe, h⟩⟩

theorem Image.exists_load_iff {buffer : Buffer} {options : Options} :
    (∃ image, Image.load buffer options = .ok image) ↔
      ∃ layout, Layout.read buffer options = .ok layout := by
  constructor
  · intro h
    rcases h with ⟨image, hload⟩
    exact ⟨image.toLayout, (Image.load_eq_ok_iff.mp hload).1⟩
  · intro h
    rcases h with ⟨layout, hread⟩
    exact ⟨{ layout with buffer }, Image.load_eq_ok_iff.mpr ⟨hread, rfl⟩⟩

/-! ### Agreement -/

/-- The loader accepts exactly the PE images of the grammar, wherever the PE
    signature stands, and reports their numbers unchanged. A buffer with a DOS
    header is accepted iff the header is complete and leads to a PE image, and
    one that begins with the PE signature iff it is a PE image itself. -/
theorem Layout.readPe_accepts_grammar {buffer : Buffer} (hsize : buffer.size < UInt32.size) :
    (∀ start : UInt32,
      ((∃ layout, Layout.readPe buffer start = .ok layout) ↔
        ∃ kind, PeGrammar buffer start.toNat kind) ∧
      ∀ layout, Layout.readPe buffer start = .ok layout ↔
        ∃ kind, PeGrammar buffer start.toNat kind ∧ PeFacts buffer start kind layout) ∧
    (buffer.hasBytesAt 0 [0x4D, 0x5A] → ∀ options,
      ((∃ image, Image.load buffer options = .ok image) ↔
        64 ≤ buffer.size ∧ ∃ kind, PeGrammar buffer (buffer.numberAt 4 60) kind) ∧
      ∀ image, Image.load buffer options = .ok image → image.buffer = buffer ∧
        ∃ kind, PeGrammar buffer (buffer.numberAt 4 60) kind ∧
          PeFacts buffer buffer.dosStart kind image.toLayout) ∧
    (buffer.hasBytesAt 0 [0x50, 0x45, 0, 0] → ∀ options,
      ((∃ image, Image.load buffer options = .ok image) ↔ ∃ kind, PeGrammar buffer 0 kind) ∧
      ∀ image, Image.load buffer options = .ok image → image.buffer = buffer ∧
        ∃ kind, PeGrammar buffer 0 kind ∧ PeFacts buffer 0 kind image.toLayout) := by
  refine ⟨fun start => ⟨exists_readPe_iff hsize start, fun layout => readPe_eq_ok_iff hsize⟩,
    fun hdos options => ⟨?_, fun image hload => ?_⟩,
    fun hpe options => ⟨?_, fun image hload => ?_⟩⟩
  · simp only [Image.exists_load_iff, read_dos hsize hdos, exists_and_left,
      exists_readPe_iff hsize, Buffer.toNat_dosStart]
  · rcases Image.load_eq_ok_iff.mp hload with ⟨hread, hbuffer⟩
    rw [read_dos hsize hdos, readPe_eq_ok_iff hsize] at hread
    rw [Buffer.toNat_dosStart] at hread
    exact ⟨hbuffer, hread.2⟩
  · simp only [Image.exists_load_iff, read_bare hsize hpe, exists_readPe_iff hsize]
    rfl
  · rcases Image.load_eq_ok_iff.mp hload with ⟨hread, hbuffer⟩
    rw [read_bare hsize hpe, readPe_eq_ok_iff hsize] at hread
    exact ⟨hbuffer, hread⟩

/-- A PE32 image with seven data directories and one section, which holds a
    debug directory of one CodeView entry and the record of the path `a`. -/
def smallImage : Buffer :=
  ⟨(peSignature ++ toLittleEndian 2 0x14C ++ toLittleEndian 2 1 ++ List.replicate 12 0 ++
    toLittleEndian 2 152 ++ toLittleEndian 2 0 ++
    -- The optional header: its kind, the size of the image, and the debug slot.
    toLittleEndian 2 0x10B ++ List.replicate 54 0 ++ toLittleEndian 4 0x2000 ++
    List.replicate 32 0 ++ toLittleEndian 4 7 ++ List.replicate 48 0 ++
    toLittleEndian 4 0x1000 ++ toLittleEndian 4 28 ++
    -- The section header: sizes and places in memory and in the file.
    List.replicate 8 0 ++ toLittleEndian 4 54 ++ toLittleEndian 4 0x1000 ++
    toLittleEndian 4 54 ++ toLittleEndian 4 216 ++ List.replicate 16 0 ++
    -- The debug entry: its type, and the size and place of the record.
    List.replicate 12 0 ++ toLittleEndian 4 2 ++ toLittleEndian 4 26 ++ toLittleEndian 4 0 ++
    toLittleEndian 4 244 ++
    -- The record: signature, identity and path.
    [0x52, 0x53, 0x44, 0x53] ++ List.replicate 20 0 ++ [0x61, 0]).toArray⟩

theorem smallImage_peGrammar : PeGrammar smallImage 0 .pe32 := by decide +kernel

/-- The small image as it is loaded. -/
def smallLoaded : Image where
  format := .pe .pe32 0
  sizeOfImage := 0x2000
  sectionsOffset := 176
  sectionCount := 1
  buffer := smallImage

theorem load_smallImage : Image.load smallImage .standard = .ok smallLoaded := by
  have hsize : smallImage.size < UInt32.size := by decide +kernel
  have hpe : smallImage.hasBytesAt 0 [0x50, 0x45, 0, 0] := smallImage_peGrammar.signature
  rw [Image.load_eq_ok_iff, Layout.read_bare hsize hpe, Layout.readPe_eq_ok_iff hsize]
  have hnumbers : smallImage.peSizeOfImage 0 = 0x2000 ∧ smallImage.peTable 0 = 176 ∧
      smallImage.peSectionCount 0 = 1 := by
    decide +kernel
  exact ⟨⟨.pe32, smallImage_peGrammar, rfl, hnumbers.1.symm, hnumbers.2.1.symm,
    hnumbers.2.2.symm⟩, rfl⟩

theorem readPe_smallImage : Layout.readPe smallImage 0 = .ok smallLoaded.toLayout := by
  have hsize : smallImage.size < UInt32.size := by decide +kernel
  exact (Layout.read_bare hsize smallImage_peGrammar.signature .standard _).mp
    (Image.load_eq_ok_iff.mp load_smallImage).1

theorem readPe_accepts_small_image :
    smallImage.size < UInt32.size ∧
      ∃ image, Image.load smallImage .standard = .ok image ∧ image.buffer = smallImage := by
  have hsize : smallImage.size < UInt32.size := by decide +kernel
  have haccepts := (Layout.readPe_accepts_grammar hsize).2.2 (by decide +kernel) .standard
  rcases haccepts.1.mpr ⟨.pe32, smallImage_peGrammar⟩ with ⟨image, hload⟩
  exact ⟨hsize, image, hload, (haccepts.2 image hload).1⟩

end SymbolLocator
