import SymbolLocator.Proofs.LookupChecks
import SymbolLocator.Proofs.Loaded

/-!
# Successful Lookups

When a buffer gives a path, and which.

The answer is stated over the bytes of the file alone. It asks for some
section that has the debug directory in its data, where the lookup takes the
first that holds the range and then insists on it. It counts in natural
numbers, where the lookup works with words and refuses sums that overflow. And
it says nothing of what the lookup checks of the layout. All of this is the
same for a loaded image: its sections do not overlap, so at most one of them
holds the directory, and what they contain is in the file.

## Main definitions

* `Image.Announces`: The debug slot is there and holds a range.
* `Image.Places`: Some section has a range in its data, at a place of the file.
* `Buffer.FirstCodeView`: The first CodeView entry of a directory.
* `Buffer.HoldsPath`: A CodeView record with a path in it.
* `Image.NamesBy`, `Image.Names`: An image names a path.

## Theorems

* `WellFormed.places_iff`: The lookup places a range where some section does.
* `WellFormed.namesBy_of_symbolPath`: A path that a lookup gives is named by way of
  what its stages find.
* `WellFormed.symbolPath_eq_ok_iff`: A lookup in a loaded image gives what it names.
* `locate_eq_ok_iff_names`: So does a lookup in a buffer.
-/

namespace SymbolLocator

/-- The entry at `index` is the first CodeView entry of the directory of `size`
    bytes at `directory`. -/
structure Buffer.FirstCodeView (buffer : Buffer) (directory size index : Nat) : Prop where
  whole : index < size / 28
  codeView : buffer.entryTypeAt directory index = 2
  first : ∀ earlier < index, buffer.entryTypeAt directory earlier ≠ 2

/-- The `size` bytes at `start` are a CodeView record, and `path` is the path
    in it. -/
structure Buffer.HoldsPath (buffer : Buffer) (start size : Nat) (path : SymbolPath) : Prop
    extends PathFacts buffer start size path where
  inFile : start + size ≤ buffer.size
  aligned : 4 ∣ start
  longer : path.signature.headerSize.toNat < size
  terminated : buffer.numberAt 1 (start + size - 1) = 0

namespace Image

/-- The slot of the debug directory is there, and holds the range of `size`
    addresses from `address` on. -/
def Announces (image : Image) (address size : Nat) : Prop :=
  match image.format with
  | .te _ => image.buffer.numberAt 4 32 = address ∧ image.buffer.numberAt 4 36 = size
  | .pe kind start =>
    6 < image.buffer.numberAt 4 (start.toNat + 24 + kind.countOffset) ∧
      image.buffer.numberAt 4 (start.toNat + 24 + kind.slotOffset 6) = address ∧
      image.buffer.numberAt 4 (start.toNat + 24 + kind.slotOffset 6 + 4) = size

/-- Some section has the range of `size` addresses from `address` on in its
    data, at `place` in the file. -/
def Places (image : Image) (address size place : Nat) : Prop :=
  ∃ i < image.sectionCount.toNat,
    (image.extentAt i).address ≤ address ∧
    address + size ≤ (image.extentAt i).address + (image.extentAt i).size ∧
    address - (image.extentAt i).address + size ≤ (image.extentAt i).rawSize ∧
    (image.extentAt i).rawPointer + (address - (image.extentAt i).address) < UInt32.size ∧
    place + image.strippedOffset.toNat =
      (image.extentAt i).rawPointer + (address - (image.extentAt i).address)

/-- The image names `path` by way of a directory, announced as the range of
    `size` addresses from `address` on and found at `place` in the file, whose
    first CodeView entry is at `index`. -/
structure NamesBy (image : Image) (address size place index : Nat) (path : SymbolPath) :
    Prop where
  announced : image.Announces address size
  nonempty : 0 < size
  whole : 28 ∣ size
  inImage : address + size ≤ image.sizeOfImage.toNat
  placed : image.Places address size place
  aligned : 4 ∣ place
  first : image.buffer.FirstCodeView place size index
  notStripped : image.strippedOffset.toNat ≤ image.buffer.entryPointerAt place index
  record : image.buffer.HoldsPath
    (image.buffer.entryPointerAt place index - image.strippedOffset.toNat)
    (image.buffer.entrySizeAt place index) path

/-- The image names a path: its slot announces a directory, a section has the
    directory in its data, the directory has a CodeView entry, and the record
    behind the first of these holds the path. -/
def Names (image : Image) (path : SymbolPath) : Prop :=
  ∃ address size place index, image.NamesBy address size place index path

end Image

/-! ### Decision -/

instance (buffer : Buffer) (directory size index : Nat) :
    Decidable (buffer.FirstCodeView directory size index) :=
  decidable_of_iff
    (index < size / 28 ∧ buffer.entryTypeAt directory index = 2 ∧
      ∀ earlier < index, buffer.entryTypeAt directory earlier ≠ 2)
    ⟨fun h => ⟨h.1, h.2.1, h.2.2⟩, fun h => ⟨h.whole, h.codeView, h.first⟩⟩

instance (buffer : Buffer) (start size : Nat) (path : SymbolPath) :
    Decidable (PathFacts buffer start size path) :=
  decidable_of_iff
    (buffer.hasBytesAt start path.signature.characters ∧
      path.offset.toNat = start + path.signature.headerSize.toNat ∧
      path.bytes.bytes = (buffer.bytes.drop (start + path.signature.headerSize.toNat)).take
        (size - path.signature.headerSize.toNat))
    ⟨fun h => ⟨h.1, h.2.1, h.2.2⟩, fun h => ⟨h.signature, h.offset, h.bytes⟩⟩

instance (buffer : Buffer) (start size : Nat) (path : SymbolPath) :
    Decidable (buffer.HoldsPath start size path) :=
  decidable_of_iff
    (PathFacts buffer start size path ∧ start + size ≤ buffer.size ∧ 4 ∣ start ∧
      path.signature.headerSize.toNat < size ∧ buffer.numberAt 1 (start + size - 1) = 0)
    ⟨fun h => ⟨h.1, h.2.1, h.2.2.1, h.2.2.2.1, h.2.2.2.2⟩,
      fun h => ⟨h.toPathFacts, h.inFile, h.aligned, h.longer, h.terminated⟩⟩

namespace Image

instance (image : Image) (address size place : Nat) :
    Decidable (image.Places address size place) :=
  inferInstanceAs (Decidable (∃ i < image.sectionCount.toNat, _ ∧ _ ∧ _ ∧ _ ∧ _))

instance (image : Image) (address size : Nat) : Decidable (image.Announces address size) :=
  match hformat : image.format with
  | .te _ =>
    decidable_of_iff (image.buffer.numberAt 4 32 = address ∧ image.buffer.numberAt 4 36 = size)
      (by rw [Announces, hformat])
  | .pe kind start =>
    decidable_of_iff
      (6 < image.buffer.numberAt 4 (start.toNat + 24 + kind.countOffset) ∧
        image.buffer.numberAt 4 (start.toNat + 24 + kind.slotOffset 6) = address ∧
        image.buffer.numberAt 4 (start.toNat + 24 + kind.slotOffset 6 + 4) = size)
      (by rw [Announces, hformat])

instance (image : Image) (address size place index : Nat) (path : SymbolPath) :
    Decidable (image.NamesBy address size place index path) :=
  decidable_of_iff
    (image.Announces address size ∧ 0 < size ∧ 28 ∣ size ∧
      address + size ≤ image.sizeOfImage.toNat ∧ image.Places address size place ∧ 4 ∣ place ∧
      image.buffer.FirstCodeView place size index ∧
      image.strippedOffset.toNat ≤ image.buffer.entryPointerAt place index ∧
      image.buffer.HoldsPath
        (image.buffer.entryPointerAt place index - image.strippedOffset.toNat)
        (image.buffer.entrySizeAt place index) path)
    ⟨fun h => ⟨h.1, h.2.1, h.2.2.1, h.2.2.2.1, h.2.2.2.2.1, h.2.2.2.2.2.1, h.2.2.2.2.2.2.1,
        h.2.2.2.2.2.2.2.1, h.2.2.2.2.2.2.2.2⟩,
      fun h => ⟨h.announced, h.nonempty, h.whole, h.inImage, h.placed, h.aligned, h.first,
        h.notStripped, h.record⟩⟩

end Image

/-! ### Stages -/

theorem allHold_scanChecks_iff {buffer : Buffer} {directory size index : Nat} :
    AllHold (scanChecks buffer directory size) ∧ index = buffer.codeViewIndex directory size ↔
      buffer.FirstCodeView directory size index := by
  rw [scanChecks, allHold_cons, Buffer.codeViewIndex]
  constructor
  · intro h
    rcases h with ⟨⟨hsome, -⟩, hindex⟩
    have hlt := leastIndex_lt_iff.mpr hsome
    rcases (leastIndex_eq_iff hlt).mp rfl with ⟨hcodeView, hfirst⟩
    rw [hindex]
    exact ⟨hlt, hcodeView, hfirst⟩
  · intro h
    have hindex := (leastIndex_eq_iff h.whole).mpr ⟨h.codeView, h.first⟩
    exact ⟨⟨⟨index, h.whole, h.codeView⟩, allHold_nil⟩, hindex.symm⟩

theorem Signature.four_le_headerSize (signature : Signature) :
    4 ≤ signature.headerSize.toNat := by
  cases signature with
  | nb10 => decide
  | rsds => decide
  | mtoc => decide

/-- The record checks and the facts of the path are together what it is to hold
    the path. -/
theorem allHold_recordChecks_iff {image : Image} {options : Options} {size pointer : Nat}
    {path : SymbolPath} :
    AllHold (recordChecks image options size pointer) ∧
        PathFacts image.buffer (pointer - image.shift options) size path ↔
      image.shift options ≤ pointer ∧
        image.buffer.HoldsPath (pointer - image.shift options) size path := by
  simp only [recordChecks, allHold_cons, allHold_nil, and_true]
  constructor
  · intro h
    rcases h with ⟨⟨-, hshift, hfile, haligned, -, hheader, hpath, hlast⟩, hfacts⟩
    rw [Buffer.recordHeaderAt_eq hfacts.signature] at hheader hpath
    exact ⟨hshift, hfacts, hfile, haligned, Nat.lt_of_le_of_ne hheader hpath, hlast⟩
  · intro h
    rcases h with ⟨hshift, hholds⟩
    have hheader := Buffer.recordHeaderAt_eq hholds.signature
    have hfour := path.signature.four_le_headerSize
    have hlonger := hholds.longer
    -- The header has room for the signature, so one bound on the size is enough.
    refine ⟨⟨by omega, hshift, hholds.inFile, hholds.aligned, ⟨_, hholds.signature⟩, ?_, ?_,
      hholds.terminated⟩, hholds.toPathFacts⟩
    · rw [hheader]
      exact Nat.le_of_lt hlonger
    · rw [hheader]
      exact Nat.ne_of_lt hlonger

/-- A path is found in a record iff the record holds it, in a file that 32-bit
    offsets reach. -/
theorem Image.recordPath_eq_ok_iff {image : Image} (hsize : image.buffer.size < UInt32.size)
    {entry : DebugEntry} {options : Options} {path : SymbolPath} :
    image.recordPath entry options = .ok path ↔
      image.shift options ≤ entry.rawPointer.toNat ∧
        image.buffer.HoldsPath (entry.rawPointer.toNat - image.shift options)
          entry.dataSize.toNat path := by
  rw [(recordPath_follows hsize entry options).eq_ok_iff (fun _ _ => PathFacts.unique),
    allHold_recordChecks_iff]

namespace Image

namespace WellFormed

variable {image : Image} {options : Options} {address size place : Nat}

theorem allHold_locateChecks_iff (hwell : image.WellFormed)
    (hadmitted : image.AdmittedBy options) :
    AllHold (locateChecks image options) ∧
        address = image.announcedAddress ∧ size = image.announcedSize ↔
      image.Announces address size := by
  have hslot := hwell.slot
  unfold SlotInFile at hslot
  unfold locateChecks slotChecks Announces announcedAddress announcedSize
  cases hformat : image.format with
  | pe kind start =>
      have hplace : image.slotAt = start.toNat + 24 + kind.slotOffset 6 := by
        rw [slotAt, hformat]
        cases kind with
        | pe32 => rfl
        | pe32Plus => rfl
      rw [hformat] at hslot
      simp only [hplace, List.cons_append, List.nil_append, allHold_cons, allHold_nil,
        and_true] at hslot ⊢
      constructor
      · intro h
        exact ⟨h.1.2.1, h.2.1.symm, h.2.2.symm⟩
      · intro h
        exact ⟨⟨hslot.1, h.1, hslot.2 h.1⟩, h.2.1.symm, h.2.2.symm⟩
  | te stripped =>
      have hplace : image.slotAt = 32 := by rw [slotAt, hformat]
      have hallow : options.allowTe = true := (admittedBy_te_iff hformat).mp hadmitted
      rw [hformat] at hslot
      simp only [hplace, List.cons_append, List.nil_append, allHold_cons, allHold_nil,
        and_true] at hslot ⊢
      constructor
      · intro h
        exact ⟨h.2.1.symm, h.2.2.symm⟩
      · intro h
        exact ⟨⟨hallow, hslot⟩, h.1.symm, h.2.symm⟩

/-- The lookup places a range where some section does. It looks at the first
    section that holds the range, and no other does. -/
theorem places_iff (hwell : image.WellFormed)
    (hadmitted : image.AdmittedBy options) (hpos : 0 < size) :
    AllHold (placeChecks image options address size) ∧
        place = image.placeAt options address size ↔
      image.Places address size place ∧ 4 ∣ place := by
  simp only [placeChecks, allHold_cons, allHold_nil, and_true, shift_eq hadmitted, placeAt]
  constructor
  · intro h
    rcases h with ⟨⟨-, hsome, hdata, hsum, hstripped, haligned⟩, hplace⟩
    rcases holder_holds hsome with ⟨hindex, hbegin, hend, -⟩
    rw [hplace]
    refine ⟨⟨_, hindex, hbegin, hend, hdata, hsum, ?_⟩, haligned⟩
    exact Nat.sub_add_cancel (Nat.le_trans hstripped (Nat.le_add_right _ _))
  · intro h
    rcases h with ⟨⟨i, hi, hbegin, hend, hdata, hsum, hplace⟩, haligned⟩
    -- Some section holds the range, so the first one does, and it is no other.
    have hholds : (image.extentAt i).Holds address size :=
      (hwell.holds_iff hi).mpr ⟨hbegin, hend⟩
    have hsome : ∃ i < image.sectionCount.toNat, (image.extentAt i).Holds address size :=
      ⟨i, hi, hholds⟩
    have hholder : image.holder address size = image.extentAt i := by
      rcases holder_holds hsome with ⟨hindex, hother⟩
      rw [holder, hwell.index_unique hindex hi hpos hother hholds]
    -- The loader has seen to it that the data does not begin in front of the file.
    have hstripped := (hwell.data_in_file hi hpos hdata).1
    have hplaceAt : place = (image.extentAt i).rawPointer +
        (address - (image.extentAt i).address) - image.strippedOffset.toNat :=
      Nat.eq_sub_of_add_eq hplace
    rw [hholder, ← hplaceAt]
    exact ⟨⟨hwell.table, hsome, hdata, hsum, hstripped, haligned⟩, rfl⟩

/-- A path that a lookup gives is named by way of what its stages find. -/
theorem namesBy_of_symbolPath (hwell : image.WellFormed) (hadmitted : image.AdmittedBy options)
    {path : SymbolPath} (hpath : image.symbolPath options = .ok path) :
    image.NamesBy image.announcedAddress image.announcedSize (image.directoryStart options)
      (image.entryIndex options) path := by
  rcases (symbolPath_follows hwell.small options).of_eq_ok hpath with ⟨hall, hfacts⟩
  rw [lookupChecks, directoryChecks, allHold_append, allHold_append, allHold_cons, allHold_append,
    allHold_append, allHold_append] at hall
  rcases hall with ⟨⟨-, hlocate, hrange, hplace, -⟩, hscan, hrecord⟩
  have hannounces := (hwell.allHold_locateChecks_iff hadmitted).mp ⟨hlocate, rfl, rfl⟩
  simp only [rangeChecks, allHold_cons, allHold_nil, and_true] at hrange
  rcases hrange with ⟨hnonempty, hwhole, himage⟩
  have hpos : 0 < image.announcedSize := Nat.pos_of_ne_zero hnonempty
  rcases (hwell.places_iff hadmitted hpos).mp ⟨hplace, rfl⟩ with ⟨hplaces, haligned⟩
  have hfirst := allHold_scanChecks_iff.mp ⟨hscan, rfl⟩
  have hholds := allHold_recordChecks_iff.mp ⟨hrecord, hfacts⟩
  rw [shift_eq hadmitted] at hholds
  exact ⟨hannounces, hpos, hwhole, himage, hplaces, haligned, hfirst, hholds.1, hholds.2⟩

/-- A lookup in a loaded image gives the path that the image names. -/
theorem symbolPath_eq_ok_iff (hwell : image.WellFormed)
    (hadmitted : image.AdmittedBy options)
    (hsupport : options.debugSupport = true) {path : SymbolPath} :
    image.symbolPath options = .ok path ↔ image.Names path := by
  constructor
  · intro h
    exact ⟨_, _, _, _, hwell.namesBy_of_symbolPath hadmitted h⟩
  · intro h
    rcases h with ⟨address, size, place, index, hnames⟩
    rw [(symbolPath_follows hwell.small options).eq_ok_iff (fun _ _ => PathFacts.unique),
      lookupChecks, directoryChecks, allHold_append, allHold_append, allHold_cons, allHold_append,
      allHold_append, allHold_append]
    -- Each stage determines what the next is about, from the slot to the record.
    have hpos := hnames.nonempty
    rcases (hwell.allHold_locateChecks_iff hadmitted).mpr hnames.announced with
      ⟨hlocate, rfl, rfl⟩
    rcases (hwell.places_iff hadmitted hpos).mpr ⟨hnames.placed, hnames.aligned⟩ with
      ⟨hplace, rfl⟩
    rcases allHold_scanChecks_iff.mpr hnames.first with ⟨hscan, rfl⟩
    have hpath := And.intro hnames.notStripped hnames.record
    rw [← shift_eq hadmitted, ← allHold_recordChecks_iff] at hpath
    have hrange : AllHold (rangeChecks image.announcedAddress image.announcedSize
        image.sizeOfImage.toNat) := by
      simp only [rangeChecks, allHold_cons, allHold_nil, and_true]
      exact ⟨Nat.ne_of_gt hpos, hnames.whole, hnames.inImage⟩
    -- That the directory is in the file is no part of the answer, but of the image.
    have hview := hwell.allHold_viewChecks hadmitted hpos hplace
    exact ⟨⟨⟨hsupport, hlocate, hrange, hplace, hview⟩, hscan, hpath.1⟩, hpath.2⟩

end WellFormed

end Image

/-! ### Buffers -/

theorem locate_eq_ok_iff {buffer : Buffer} {options : Options} {path : SymbolPath} :
    locate buffer options = .ok path ↔
      options.debugSupport = true ∧
        ∃ image, Image.load buffer options = .ok image ∧ image.symbolPath options = .ok path := by
  simp only [locate, bind_eq_ok_iff, ensure_eq_ok_iff, mapError_eq_ok_iff, exists_const]

theorem locate_eq_ok_of_names {buffer : Buffer} {options : Options} {image : Image}
    {path : SymbolPath} (hsupport : options.debugSupport = true)
    (hload : Image.load buffer options = .ok image) (hnames : image.Names path) :
    locate buffer options = .ok path := by
  have hwell := Image.wellFormed_of_load hload
  have hadmitted := Image.admitted_of_load hload
  have hpath := (hwell.symbolPath_eq_ok_iff hadmitted hsupport).mpr hnames
  exact locate_eq_ok_iff.mpr ⟨hsupport, image, hload, hpath⟩

/-- A buffer gives a path iff debug data is looked at, the buffer is an image,
    and the image names the path. -/
theorem locate_eq_ok_iff_names (buffer : Buffer) (options : Options) (path : SymbolPath) :
    locate buffer options = .ok path ↔
      options.debugSupport = true ∧
        ∃ image, Image.load buffer options = .ok image ∧ image.Names path := by
  rw [locate_eq_ok_iff]
  constructor
  · intro h
    rcases h with ⟨hsupport, image, hload, hpath⟩
    rw [(Image.wellFormed_of_load hload).symbolPath_eq_ok_iff (Image.admitted_of_load hload)
      hsupport] at hpath
    exact ⟨hsupport, image, hload, hpath⟩
  · intro h
    rcases h with ⟨hsupport, image, hload, hnames⟩
    refine ⟨hsupport, image, hload, ?_⟩
    rw [(Image.wellFormed_of_load hload).symbolPath_eq_ok_iff (Image.admitted_of_load hload)
      hsupport]
    exact hnames

/-- The path in the record of the small image. -/
def smallPath : SymbolPath where
  bytes := ⟨#[0x61, 0]⟩
  offset := 268
  signature := .rsds

theorem smallLoaded_names : smallLoaded.Names smallPath := by
  have hnames : smallLoaded.NamesBy 0x1000 28 216 0 smallPath := by decide +kernel
  exact ⟨_, _, _, _, hnames⟩

theorem smallImage_locates : locate smallImage .standard = .ok smallPath :=
  locate_eq_ok_of_names rfl load_smallImage smallLoaded_names

theorem locate_smallImage :
    Options.standard.debugSupport = true ∧ locate smallImage .standard = .ok smallPath :=
  ⟨rfl, (locate_eq_ok_iff_names smallImage .standard smallPath).mpr
    ⟨rfl, smallLoaded, load_smallImage, smallLoaded_names⟩⟩

end SymbolLocator
