import SymbolLocator.Proofs.TeGrammar
import SymbolLocator.Proofs.PeGrammar

/-!
# Agreement of Buffers

What two buffers have in common that agree on some of their bytes.

Everything that is read off a buffer is a number at a place, and the number is
a matter of the bytes at that place. So two buffers that agree there have the
same numbers, whatever else is in them.

For loading this means that the headers decide. They are read front to back
and end with the section table, and nothing behind the table is looked at. Of
the rest of the file only its length counts, and only as a bound: a longer
file passes every check that a shorter one passes. `Image.load_of_agreeOn` is
both in one. A buffer that has the headers of an image, and is no shorter, is
an image with the same layout.

## Main definitions

* `Buffer.AgreeOn`: Two buffers have the same bytes in some range.
* `Layout.headersEnd`: Where the headers end that a layout was read from.
* `Image.withBuffer`: The layout of an image over another buffer.

## Theorems

* `AgreeOn.numberAt_eq`: Buffers that agree have the same numbers.
* `AgreeOn.slice?_eq`: They have the same slices.
* `OptionalFits.of_agreeOn`, `PeGrammar.of_agreeOn`, `TeGrammar.of_agreeOn`:
  An image is one also in a buffer that agrees on the headers.
* `Layout.read_of_agreeOn`, `Image.load_of_agreeOn`: It is read and loaded with
  the same layout.
-/

namespace SymbolLocator

/-- The two buffers have the same bytes from `start` up to `stop`. Where one
    of them ends in front of `stop`, the other ends at the same place. -/
def Buffer.AgreeOn (a b : Buffer) (start stop : Nat) : Prop :=
  ∀ i < stop, start ≤ i → a.bytes[i]? = b.bytes[i]?

instance (a b : Buffer) (start stop : Nat) : Decidable (a.AgreeOn b start stop) :=
  inferInstanceAs (Decidable (∀ i < stop, start ≤ i → a.bytes[i]? = b.bytes[i]?))

namespace Buffer

variable {a b : Buffer} {start stop : Nat}

namespace AgreeOn

theorem symm (h : a.AgreeOn b start stop) : b.AgreeOn a start stop := by
  intro i hstop hstart
  exact (h i hstop hstart).symm

theorem mono (h : a.AgreeOn b start stop) {start' stop' : Nat} (hstart : start ≤ start')
    (hstop : stop' ≤ stop) : a.AgreeOn b start' stop' := by
  intro i hi hi'
  exact h i (Nat.lt_of_lt_of_le hi hstop) (Nat.le_trans hstart hi')

theorem take_drop_eq (h : a.AgreeOn b start stop) {offset width : Nat} (hstart : start ≤ offset)
    (hstop : offset + width ≤ stop) :
    (a.bytes.drop offset).take width = (b.bytes.drop offset).take width := by
  apply List.ext_getElem?
  intro i
  rw [List.getElem?_take, List.getElem?_take]
  by_cases hi : i < width
  · rw [if_pos hi, if_pos hi, List.getElem?_drop, List.getElem?_drop]
    exact h (offset + i) (by omega) (by omega)
  · rw [if_neg hi, if_neg hi]

theorem numberAt_eq (h : a.AgreeOn b start stop) {width offset : Nat} (hstart : start ≤ offset)
    (hstop : offset + width ≤ stop) : a.numberAt width offset = b.numberAt width offset := by
  rw [numberAt, numberAt, h.take_drop_eq hstart hstop]

theorem hasBytesAt (h : a.AgreeOn b start stop) {offset : Nat} {content : List UInt8}
    (hcontent : a.hasBytesAt offset content) (hstart : start ≤ offset)
    (hstop : offset + content.length ≤ stop) : b.hasBytesAt offset content := by
  rw [Buffer.hasBytesAt, ← h.take_drop_eq hstart hstop]
  exact hcontent

theorem extentAt_eq (h : a.AgreeOn b start stop) {table index : Nat} (hstart : start ≤ table)
    (hstop : table + 40 * index + 40 ≤ stop) : a.extentAt table index = b.extentAt table index := by
  have hword : ∀ field, field ≤ 36 →
      a.numberAt 4 (table + 40 * index + field) = b.numberAt 4 (table + 40 * index + field) := by
    intro field hfield
    exact h.numberAt_eq (by omega) (by omega)
  rw [extentAt, extentAt, hword 12 (by omega), hword 8 (by omega), hword 16 (by omega),
    hword 20 (by omega)]

/-- Slices that are in both buffers are the same. -/
theorem slice?_eq (h : a.AgreeOn b start stop) {offset length : Nat} (hstart : start ≤ offset)
    (hstop : offset + length ≤ stop) (ha : offset + length ≤ a.size)
    (hb : offset + length ≤ b.size) : a.slice? offset length = b.slice? offset length := by
  rcases a.slice?_eq_some ha with ⟨part, hpart⟩
  have hbytes := (slice?_eq_some_iff.mp hpart).2
  rw [h.take_drop_eq hstart hstop] at hbytes
  rw [hpart, eq_comm, slice?_eq_some_iff]
  exact ⟨hb, hbytes⟩

/-! The numbers of the headers behind a PE signature. -/

theorem peOptionalSize_eq (h : a.AgreeOn b 0 stop) {header : Nat} (hstop : header + 22 ≤ stop) :
    a.peOptionalSize header = b.peOptionalSize header :=
  h.numberAt_eq (Nat.zero_le _) hstop

theorem peSectionCount_eq (h : a.AgreeOn b 0 stop) {header : Nat} (hstop : header + 22 ≤ stop) :
    a.peSectionCount header = b.peSectionCount header :=
  h.numberAt_eq (Nat.zero_le _) (by omega)

theorem peTable_eq (h : a.AgreeOn b 0 stop) {header : Nat} (hstop : header + 22 ≤ stop) :
    a.peTable header = b.peTable header := by
  rw [peTable, peTable, h.peOptionalSize_eq hstop]

end AgreeOn

end Buffer

/-! ### Headers -/

variable {a b : Buffer}

/-- Sections that fit a file fit a longer one. -/
theorem SectionsFit.of_agreeOn {table count sizeOfImage stripped : Nat}
    (h : SectionsFit (a.extentAt table) count ⟨sizeOfImage, stripped, a.size⟩)
    (hle : a.size ≤ b.size) (hagree : a.AgreeOn b 0 (table + 40 * count)) :
    SectionsFit (b.extentAt table) count ⟨sizeOfImage, stripped, b.size⟩ := by
  have hextent : ∀ i < count, b.extentAt table i = a.extentAt table i := by
    intro i hi
    exact (hagree.extentAt_eq (Nat.zero_le _) (by omega)).symm
  refine ⟨fun i hi => ?_, fun i j hij hj => ?_, fun i hi hraw => ?_⟩
  · rw [hextent i hi]
    exact h.inImage i hi
  · rw [hextent i (Nat.lt_trans hij hj), hextent j hj]
    exact h.inOrder i j hij hj
  · rw [hextent i hi] at hraw ⊢
    rcases h.inFile i hi hraw with ⟨hstripped, hend⟩
    exact ⟨hstripped, Nat.le_trans hend hle⟩

theorem OptionalFits.fixed_le {start : Nat} {kind : PeKind} (h : OptionalFits a start kind) :
    96 ≤ a.peOptionalSize start := by
  cases kind with
  | pe32 => exact h.2.1
  | pe32Plus => exact Nat.le_trans (by decide) h.2.1

theorem OptionalFits.of_agreeOn {start : Nat} {kind : PeKind} (h : OptionalFits a start kind)
    (hagree : a.AgreeOn b 0 (a.peTable start)) : OptionalFits b start kind := by
  have hfixed := h.fixed_le
  have htable : a.peTable start = start + 24 + a.peOptionalSize start := rfl
  -- All that is asked of the optional header stands in front of the section table.
  cases kind with
  | pe32 =>
      rw [OptionalFits, ← hagree.peOptionalSize_eq (by omega),
        ← hagree.numberAt_eq (Nat.zero_le _) (by omega),
        ← hagree.numberAt_eq (Nat.zero_le _) (by omega)]
      exact h
  | pe32Plus =>
      have hfixed' : 112 ≤ a.peOptionalSize start := h.2.1
      rw [OptionalFits, ← hagree.peOptionalSize_eq (by omega),
        ← hagree.numberAt_eq (Nat.zero_le _) (by omega),
        ← hagree.numberAt_eq (Nat.zero_le _) (by omega)]
      exact h

theorem PeGrammar.of_agreeOn {start : Nat} {kind : PeKind} (h : PeGrammar a start kind)
    (hle : a.size ≤ b.size)
    (hagree : a.AgreeOn b 0 (a.peTable start + 40 * a.peSectionCount start)) :
    PeGrammar b start kind := by
  have hfixed := h.optional.fixed_le
  have htable : a.peTable start = start + 24 + a.peOptionalSize start := rfl
  have hoptional : a.peOptionalSize start = b.peOptionalSize start :=
    hagree.peOptionalSize_eq (by omega)
  have hcount : a.peSectionCount start = b.peSectionCount start :=
    hagree.peSectionCount_eq (by omega)
  have hsizeOfImage : a.peSizeOfImage start = b.peSizeOfImage start :=
    hagree.numberAt_eq (Nat.zero_le _) (by omega)
  have hsections := h.sections.of_agreeOn hle hagree
  have hoptionalFits := h.optional.of_agreeOn (hagree.mono (Nat.le_refl 0) (by omega))
  have hfour : start + 4 ≤ a.peTable start + 40 * a.peSectionCount start := by omega
  have hsignature := hagree.hasBytesAt h.signature (Nat.zero_le start) hfour
  rw [hagree.peTable_eq (by omega), hcount, hsizeOfImage] at hsections
  refine ⟨hsignature, ?_, hoptionalFits, ?_, hsections⟩
  · rw [← hoptional]
    exact Nat.le_trans h.optionalInFile hle
  · rw [← hcount, ← hagree.peTable_eq (by omega)]
    exact Nat.le_trans h.tableInFile hle

theorem PeFacts.of_agreeOn {start : UInt32} {kind : PeKind} {layout : Layout}
    (h : PeFacts a start kind layout) {stop : Nat} (hstop : start.toNat + 84 ≤ stop)
    (hagree : a.AgreeOn b 0 stop) : PeFacts b start kind layout where
  format := h.format
  sizeOfImage := h.sizeOfImage.trans (hagree.numberAt_eq (Nat.zero_le _) (by omega))
  sectionsOffset := h.sectionsOffset.trans (hagree.peTable_eq (by omega))
  sectionCount := h.sectionCount.trans (hagree.peSectionCount_eq (by omega))

theorem TeGrammar.of_agreeOn (h : TeGrammar a) (hle : a.size ≤ b.size)
    (hagree : a.AgreeOn b 0 (40 + 40 * a.teSectionCount)) : TeGrammar b := by
  have hstripped : a.teStrippedSize = b.teStrippedSize :=
    hagree.numberAt_eq (Nat.zero_le _) (by omega)
  have hcount : a.teSectionCount = b.teSectionCount :=
    hagree.numberAt_eq (Nat.zero_le _) (by omega)
  have hsections := h.sectionsFit.of_agreeOn hle hagree
  rw [hstripped, hcount] at hsections
  refine ⟨?_, ?_, ?_, fun i hi => ?_, hsections.inOrder, hsections.inFile⟩
  · exact Nat.le_trans h.headerInFile hle
  · rw [← hstripped]
    exact h.stripped
  · rw [← hcount]
    exact Nat.le_trans h.tableInFile hle
  · rw [← hagree.extentAt_eq (Nat.zero_le _) (by omega)]
    exact h.topIsWord i (hcount ▸ hi)

theorem TeReading.of_agreeOn {layout : Layout} (h : TeReading a layout)
    (hagree : a.AgreeOn b 0 (40 + 40 * a.teSectionCount)) : TeReading b layout := by
  have hstripped : a.teStrippedSize = b.teStrippedSize :=
    hagree.numberAt_eq (Nat.zero_le _) (by omega)
  have hcount : a.teSectionCount = b.teSectionCount :=
    hagree.numberAt_eq (Nat.zero_le _) (by omega)
  have hlast : lastTop (a.extentAt 40) a.teSectionCount =
      lastTop (b.extentAt 40) a.teSectionCount := by
    cases hsections : a.teSectionCount with
    | zero => rfl
    | succ last =>
        rw [hsections] at hagree
        rw [lastTop, lastTop, hagree.extentAt_eq (Nat.zero_le _) (by omega)]
  refine ⟨?_, ?_, h.sectionsOffset, h.sectionCount.trans hcount⟩
  · rw [← hstripped]
    exact h.format
  · rw [h.sizeOfImage, hlast, hcount]

/-! ### Loading -/

namespace Layout

variable {layout : Layout} {options : Options}

/-- The first byte behind the headers that a layout was read from. -/
def headersEnd (layout : Layout) : Nat :=
  layout.sectionsOffset.toNat + 40 * layout.sectionCount.toNat

/-- The headers of a PE image are read in the same way, and they reach past the
    fixed part of the optional header. -/
theorem readPe_of_agreeOn {start : UInt32} (hread : readPe a start = .ok layout)
    (hle : a.size ≤ b.size) (hsize : b.size < UInt32.size)
    (hagree : a.AgreeOn b 0 layout.headersEnd) :
    start.toNat + 120 ≤ layout.headersEnd ∧ readPe b start = .ok layout := by
  rw [readPe_eq_ok_iff (Nat.lt_of_le_of_lt hle hsize)] at hread
  rcases hread with ⟨kind, hgrammar, hfacts⟩
  have hfixed := hgrammar.optional.fixed_le
  have hend : layout.headersEnd =
      start.toNat + 24 + a.peOptionalSize start.toNat + 40 * a.peSectionCount start.toNat := by
    rw [headersEnd, hfacts.sectionsOffset, hfacts.sectionCount, Buffer.peTable]
  have hfront : start.toNat + 120 ≤ layout.headersEnd := by omega
  have hgrammar' := hgrammar.of_agreeOn hle (hend ▸ hagree)
  rw [readPe_eq_ok_iff hsize]
  exact ⟨hfront, kind, hgrammar', hfacts.of_agreeOn (by omega) hagree⟩

/-- The headers of a TE image are read in the same way, and they reach past the
    TE header. -/
theorem readTe_of_agreeOn (hread : readTe a = .ok layout)
    (hle : a.size ≤ b.size) (hsize : b.size < UInt32.size)
    (hagree : a.AgreeOn b 0 layout.headersEnd) :
    40 ≤ layout.headersEnd ∧ readTe b = .ok layout := by
  rw [readTe_eq_ok_iff (Nat.lt_of_le_of_lt hle hsize)] at hread
  rcases hread with ⟨hgrammar, hreading⟩
  have hend : layout.headersEnd = 40 + 40 * a.teSectionCount := by
    rw [headersEnd, hreading.sectionsOffset, hreading.sectionCount]
  rw [hend] at hagree ⊢
  rw [readTe_eq_ok_iff hsize]
  exact ⟨by omega, hgrammar.of_agreeOn hle hagree, hreading.of_agreeOn hagree⟩

/-- A buffer that is read begins with one of the three signatures. -/
theorem begins_of_read (hread : Layout.read a options = .ok layout) :
    a.size < UInt32.size ∧
      (a.hasBytesAt 0 [0x4D, 0x5A] ∨ a.hasBytesAt 0 [0x56, 0x5A] ∨
        a.hasBytesAt 0 [0x50, 0x45, 0, 0]) := by
  have hall := ((read_follows a options).of_eq_ok hread).1
  rw [imageChecks, allHold_cons, allHold_cons] at hall
  rcases hall with ⟨hsize, htwo, hall⟩
  have htwo' : 0 + 2 ≤ a.size := by omega
  unfold formatChecks at hall
  refine ⟨hsize, ?_⟩
  by_cases hdos : a.isDos
  · exact Or.inl ((Buffer.numberAt_eq_iff_hasBytesAt htwo').mp hdos)
  · rw [if_neg hdos] at hall
    by_cases hte : a.isTe
    · exact Or.inr (Or.inl ((Buffer.numberAt_eq_iff_hasBytesAt htwo').mp hte))
    · rw [if_neg hte, allHold_cons] at hall
      exact Or.inr (Or.inr hall.1)

/-- The headers decide what is read of a buffer, as long as the rest of it is
    no shorter. -/
theorem read_of_agreeOn (hread : Layout.read a options = .ok layout)
    (hle : a.size ≤ b.size) (hsize : b.size < UInt32.size)
    (hagree : a.AgreeOn b 0 layout.headersEnd) : Layout.read b options = .ok layout := by
  rcases begins_of_read hread with ⟨hsize', hdos | hte | hpe⟩
  · rw [read_dos hsize' hdos] at hread
    rcases hread with ⟨hheader, hread⟩
    rcases readPe_of_agreeOn hread hle hsize hagree with ⟨hfront, hread'⟩
    -- The DOS header stands in front of the PE header that it leads to.
    have hstart : a.dosStart = b.dosStart := by
      rw [Buffer.dosStart, Buffer.dosStart, hagree.numberAt_eq (Nat.zero_le _) (by omega)]
    have htwo : 0 + 2 ≤ layout.headersEnd := by omega
    have hdos' := hagree.hasBytesAt hdos (Nat.le_refl 0) htwo
    rw [read_dos hsize hdos', ← hstart]
    exact ⟨Nat.le_trans hheader hle, hread'⟩
  · rw [read_te hsize' hte] at hread
    rcases hread with ⟨hallow, hread⟩
    rcases readTe_of_agreeOn hread hle hsize hagree with ⟨hfront, hread'⟩
    have htwo : 0 + 2 ≤ layout.headersEnd := by omega
    have hte' := hagree.hasBytesAt hte (Nat.le_refl 0) htwo
    rw [read_te hsize hte']
    exact ⟨hallow, hread'⟩
  · rw [read_bare hsize' hpe] at hread
    rcases readPe_of_agreeOn hread hle hsize hagree with ⟨hfront, hread'⟩
    have hfour : 0 + 4 ≤ layout.headersEnd := by omega
    have hpe' := hagree.hasBytesAt hpe (Nat.le_refl 0) hfour
    rw [read_bare hsize hpe']
    exact hread'

end Layout

namespace Image

/-- The image with another buffer under its layout. -/
def withBuffer (image : Image) (buffer : Buffer) : Image := { image with buffer }

@[simp] theorem withBuffer_toLayout (image : Image) (buffer : Buffer) :
    (image.withBuffer buffer).toLayout = image.toLayout := rfl

@[simp] theorem withBuffer_buffer (image : Image) (buffer : Buffer) :
    (image.withBuffer buffer).buffer = buffer := rfl

/-- The headers of an image make an image of every buffer that has them and is
    no shorter. -/
theorem load_of_agreeOn {options : Options} {image : Image}
    (hload : Image.load a options = .ok image) (hle : a.size ≤ b.size)
    (hsize : b.size < UInt32.size) (hagree : a.AgreeOn b 0 image.headersEnd) :
    Image.load b options = .ok (image.withBuffer b) := by
  rcases Image.load_eq_ok_iff.mp hload with ⟨hread, -⟩
  exact Image.load_eq_ok_iff.mpr ⟨Layout.read_of_agreeOn hread hle hsize hagree, rfl⟩

end Image

end SymbolLocator
