import SymbolLocator.Proofs.Extension
import SymbolLocator.Proofs.AddressMapping

/-!
# Full Files

A TE image against the file that it was stripped of.

The offsets in a TE image count from the start of the full file. The lookup
subtracts the stripped bytes from them, in one stage before it checks them and
in another one after. What comes of it is the same as if the bytes had never
been stripped off: the full file, with zeros where the stripped bytes were and
read as a PE image, gives the same answers, and every offset is larger by the
number of the stripped bytes.

For records this is so for any layout. A file pointer into the stripped bytes
is refused in the TE image for that reason. In the full file it leads to
zeros, and no signature begins with a zero, so nothing is found either, though
for another reason. For places of directories the two images even fail for the
same reason, if the TE image was loaded. With a layout given by hand a section
may point into the stripped bytes, and only the TE image would report that.

## Main definitions

* `Corresponds`: Two computations succeed together and fail together.
* `SymbolPath.MovedBy`, `Placement.MovedBy`, `LookupError.MovedBy`: Answers
  with larger offsets.
* `Image.Unstripped`: The full file of a TE image, read as a PE image.

## Theorems

* `Buffer.slice?_append_add`, `Buffer.numberAt_append_add`: Reads behind other
  bytes.
* `Buffer.holdsPath_append_iff`: Records behind other bytes.
* `Image.Unstripped.corresponds_recordPath`: Records in a full file.
* `Image.Unstripped.corresponds_place`: Places in a full file.
* `full_file_gives_moved_answers`: Both together.
-/

namespace SymbolLocator

variable {ε δ α β γ : Type}

/-! ### Two computations -/

/-- Both computations succeed, with values that are related, or both fail, with
    errors that are. -/
inductive Corresponds (values : α → β → Prop) (errors : ε → δ → Prop) :
    Except ε α → Except δ β → Prop
  | ok {value : α} {other : β} (h : values value other) :
    Corresponds values errors (.ok value) (.ok other)
  | error {error : ε} {other : δ} (h : errors error other) :
    Corresponds values errors (.error error) (.error other)

section Corresponds

variable {values : α → β → Prop} {errors : ε → δ → Prop}

theorem Corresponds.exists_ok {outcome : Except ε α} {other : Except δ β}
    (h : Corresponds values errors outcome other) {value : α} (hok : outcome = .ok value) :
    ∃ found, other = .ok found ∧ values value found := by
  cases h with
  | ok hvalues =>
      rw [Except.ok.injEq] at hok
      exact ⟨_, rfl, hok ▸ hvalues⟩
  | error herrors => simp only [reduceCtorEq] at hok

/-- Computations correspond that give related values of each other. -/
theorem corresponds_of_ok {outcome : Except ε α} {other : Except δ β}
    (hleft : ∀ value, outcome = .ok value → ∃ found, other = .ok found ∧ values value found)
    (hright : ∀ found, other = .ok found → ∃ value, outcome = .ok value) :
    Corresponds values (fun _ _ => True) outcome other := by
  cases outcome with
  | ok value =>
      rcases hleft value rfl with ⟨found, hfound, hvalues⟩
      rw [hfound]
      exact .ok hvalues
  | error error =>
      cases other with
      | ok found =>
          rcases hright found rfl with ⟨value, hvalue⟩
          simp only [reduceCtorEq] at hvalue
      | error other => exact .error trivial

-- Both demand the same value, and go on from it.
theorem corresponds_require_bind {error : ε} {error' : δ} (herror : errors error error')
    {option : Option γ} {next : γ → Except ε α} {next' : γ → Except δ β}
    (hnext : ∀ value, option = some value → Corresponds values errors (next value) (next' value)) :
    Corresponds values errors (require error option >>= next)
      (require error' option >>= next') := by
  cases option with
  | none => exact .error herror
  | some value => exact hnext value rfl

theorem corresponds_known_bind {error : ε} {error' : δ} {option option' : Option γ} {value : γ}
    (hvalue : option = some value) (hvalue' : option' = some value) {next : γ → Except ε α}
    {next' : γ → Except δ β} (hnext : Corresponds values errors (next value) (next' value)) :
    Corresponds values errors (require error option >>= next)
      (require error' option' >>= next') := by
  rw [hvalue, hvalue']
  exact hnext

theorem corresponds_ensure_bind {error : ε} {error' : δ} {tested tested' : Prop}
    [Decidable tested] [Decidable tested'] (htested : tested ↔ tested')
    (herror : ¬ tested → errors error error') {next : Unit → Except ε α}
    {next' : Unit → Except δ β}
    (hnext : tested → Corresponds values errors (next ()) (next' ())) :
    Corresponds values errors (ensure tested error >>= next)
      (ensure tested' error' >>= next') := by
  unfold ensure
  by_cases h : tested
  · rw [if_pos h, if_pos (htested.mp h)]
    exact hnext h
  · rw [if_neg h, if_neg (fun h' => h (htested.mpr h'))]
    exact .error (herror h)

end Corresponds

/-! ### Answers -/

/-- The same path, `distance` bytes further on. -/
structure SymbolPath.MovedBy (distance : Nat) (path moved : SymbolPath) : Prop where
  offset : moved.offset.toNat = path.offset.toNat + distance
  bytes : moved.bytes = path.bytes
  signature : moved.signature = path.signature

namespace SymbolPath

theorem exists_moved {path : SymbolPath} {distance : Nat}
    (h : path.offset.toNat + distance < UInt32.size) : ∃ moved, path.MovedBy distance moved := by
  rcases Word.exists_toNat_eq h with ⟨offset, hoffset⟩
  exact ⟨{ path with offset }, hoffset, rfl, rfl⟩

theorem exists_movedBy {moved : SymbolPath} {distance : Nat} (h : distance ≤ moved.offset.toNat) :
    ∃ path : SymbolPath, path.MovedBy distance moved := by
  rcases Word.exists_toNat_eq (Nat.lt_of_le_of_lt (Nat.sub_le moved.offset.toNat distance)
    moved.offset.toNat_lt) with ⟨offset, hoffset⟩
  refine ⟨{ moved with offset }, ?_, rfl, rfl⟩
  dsimp only
  omega

end SymbolPath

/-- A place in the same section, `distance` bytes further on. -/
structure Placement.MovedBy (distance : Nat) (placement moved : Placement) : Prop where
  fileOffset : moved.fileOffset.toNat = placement.fileOffset.toNat + distance
  sectionIndex : moved.sectionIndex = placement.sectionIndex
  header : moved.header = placement.header

/-- The same defect, or that of a misaligned offset, `distance` bytes further on.
    Nothing but a defect is a failure of this kind. -/
inductive LookupError.MovedBy (distance : Nat) : LookupError → LookupError → Prop
  | misaligned {offset moved : UInt32} (h : moved.toNat = offset.toNat + distance) :
    MovedBy distance (.malformed (.directoryMisaligned offset))
      (.malformed (.directoryMisaligned moved))
  | same {defect : Defect} (h : ∀ offset, defect ≠ .directoryMisaligned offset) :
    MovedBy distance (.malformed defect) (.malformed defect)

namespace Image

/-- `full` is the file that the TE image `te` was stripped of, with zeros for
    what is missing and read as a PE image. Nothing else is known of their
    layouts. -/
structure Unstripped (te full : Image) : Prop where
  isTe : te.format.isTe = true
  isPe : full.format.isTe = false
  buffer : full.buffer = Buffer.zeros te.strippedOffset.toNat ++ te.buffer

end Image

/-! ### Bytes in front -/

namespace Buffer

theorem size_append (front back : Buffer) : (front ++ back).size = front.size + back.size :=
  ByteArray.size_append

theorem size_zeros (count : Nat) : (zeros count).size = count := by
  rw [← length_bytes, bytes_zeros, List.length_replicate]

theorem drop_append_add (front back : Buffer) (offset : Nat) :
    (front ++ back).bytes.drop (front.size + offset) = back.bytes.drop offset := by
  have hfront : front.bytes.length ≤ front.size + offset := Nat.le_add_right _ _
  rw [bytes_append, List.drop_append, List.drop_eq_nil_of_le hfront, List.nil_append, length_bytes,
    Nat.add_sub_cancel_left]

theorem numberAt_append_add (front back : Buffer) (width offset : Nat) :
    (front ++ back).numberAt width (front.size + offset) = back.numberAt width offset := by
  rw [numberAt, drop_append_add, numberAt]

theorem hasBytesAt_append_add {front back : Buffer} {offset : Nat} {content : List UInt8} :
    (front ++ back).hasBytesAt (front.size + offset) content ↔ back.hasBytesAt offset content := by
  rw [hasBytesAt, drop_append_add, hasBytesAt]

theorem slice?_append_add (front back : Buffer) (offset length : Nat) :
    (front ++ back).slice? (front.size + offset) length = back.slice? offset length := by
  apply Option.ext
  intro part
  rw [slice?_eq_some_iff, slice?_eq_some_iff, drop_append_add, size_append]
  refine and_congr_left' ?_
  omega

/-- No signature begins with a zero. -/
theorem not_hasBytesAt_zeros {count offset : Nat} (h : offset < count) (back : Buffer)
    (signature : Signature) : ¬ (zeros count ++ back).hasBytesAt offset signature.characters := by
  intro hbytes
  have hcount : offset < (zeros count).bytes.length := by
    rw [length_bytes, size_zeros]
    exact h
  have hzero : (zeros count ++ back).bytes[offset]? = some 0 := by
    rw [bytes_append, List.getElem?_append_left hcount, bytes_zeros,
      List.getElem?_replicate_of_lt h]
  have hfirst : signature.characters[0]? = (zeros count ++ back).bytes[offset]? := by
    rw [← hbytes, Signature.length_characters, List.getElem?_take_of_lt (by decide),
      List.getElem?_drop, Nat.add_zero]
  rw [hzero] at hfirst
  cases signature with
  | nb10 => exact absurd hfirst (by decide)
  | rsds => exact absurd hfirst (by decide)
  | mtoc => exact absurd hfirst (by decide)

/-- A record behind other bytes holds the same path, further on. The bytes in
    front must keep the alignment. -/
theorem holdsPath_append_iff {front back : Buffer} (haligned : 4 ∣ front.size) {start size : Nat}
    {path moved : SymbolPath} (hmoved : path.MovedBy front.size moved) :
    (front ++ back).HoldsPath (front.size + start) size moved ↔
      back.HoldsPath start size path := by
  have hlast : 0 < size → front.size + start + size - 1 = front.size + (start + size - 1) := by
    omega
  constructor
  · intro h
    have hpos : 0 < size := Nat.zero_lt_of_lt h.longer
    rcases h with ⟨⟨hsignature, hoffset, hbytes⟩, hfile, hstart, hlonger, hterminated⟩
    rw [hmoved.signature, hasBytesAt_append_add] at hsignature
    rw [hmoved.offset, hmoved.signature] at hoffset
    rw [hmoved.bytes, hmoved.signature, Nat.add_assoc, drop_append_add] at hbytes
    rw [size_append] at hfile
    rw [hmoved.signature] at hlonger
    rw [hlast hpos, numberAt_append_add] at hterminated
    exact ⟨⟨hsignature, by omega, hbytes⟩, by omega, (Nat.dvd_add_right haligned).mp hstart,
      hlonger, hterminated⟩
  · intro h
    have hpos : 0 < size := Nat.zero_lt_of_lt h.longer
    refine ⟨⟨?_, ?_, ?_⟩, ?_, Nat.dvd_add haligned h.aligned, ?_, ?_⟩
    · rw [hmoved.signature, hasBytesAt_append_add]
      exact h.signature
    · rw [hmoved.offset, hmoved.signature, h.offset]
      omega
    · rw [hmoved.bytes, hmoved.signature, Nat.add_assoc, drop_append_add]
      exact h.bytes
    · rw [size_append, Nat.add_assoc]
      exact Nat.add_le_add_left h.inFile _
    · rw [hmoved.signature]
      exact h.longer
    · rw [hlast hpos, numberAt_append_add]
      exact h.terminated

end Buffer

/-! ### Loaded images -/

namespace Image

theorem sectionsOffset_of_load {data : Buffer} {loading : Options} {image : Image}
    (hload : Image.load data loading = .ok image) (hte : image.format.isTe = true) :
    image.sectionsOffset.toNat = 40 := by
  rcases (load_cases hload).2.2 with ⟨start, kind, -, hfacts⟩ | ⟨-, -, hfacts⟩
  · rw [hfacts.format] at hte
    exact absurd hte Bool.false_ne_true
  · exact hfacts.sectionsOffset

/-- No data of a section was stripped off, if a range was found in it that is
    not empty. -/
theorem WellFormed.stripped_le_of_containing? {image : Image} (hwell : image.WellFormed)
    {table : SectionTable} (htable : image.sections? = some table) {range : VirtualRange}
    (hpos : 0 < range.size.toNat) {index : Nat} {header : Section}
    (hhit : table.containing? range = some (index, header))
    (hdata : (Word.add? (range.address - header.virtualAddress) range.size).any
      (fun last => last ≤ header.rawSize) = true) :
    image.strippedOffset.toNat ≤ header.rawPointer.toNat := by
  rcases of_containing?_eq_some htable hhit with ⟨-, hextent, hholds⟩
  have hsome : ∃ i < image.sectionCount.toNat,
      (image.extentAt i).Holds range.address.toNat range.size.toNat := by
    rw [← containing?_ne_none_iff htable, hhit]
    exact Option.some_ne_none _
  rw [Word.any_add?_le_iff,
    UInt32.toNat_sub_of_le _ _ (UInt32.le_iff_toNat_le.mpr hholds.1)] at hdata
  have hfile := hwell.holder_in_file hsome hpos (by rw [← hextent]; exact hdata)
  rw [← hextent] at hfile
  exact hfile.1

/-! ### Records -/

namespace Unstripped

variable {te full : Image} {options : Options}

theorem shift_full (hfull : te.Unstripped full) : full.shift options = 0 := by
  rw [shift_eq (Or.inr hfull.isPe), strippedOffset_of_pe hfull.isPe]
  rfl

theorem size_full (hfull : te.Unstripped full) :
    full.buffer.size = te.strippedOffset.toNat + te.buffer.size := by
  rw [hfull.buffer, Buffer.size_append, Buffer.size_zeros]

/-- Behind the zeros, the records of the two files are the same. -/
theorem holdsPath_iff (hfull : te.Unstripped full) (haligned : 4 ∣ te.strippedOffset.toNat)
    {pointer size : Nat} (hle : te.strippedOffset.toNat ≤ pointer) {path moved : SymbolPath}
    (hmoved : path.MovedBy te.strippedOffset.toNat moved) :
    full.buffer.HoldsPath pointer size moved ↔
      te.buffer.HoldsPath (pointer - te.strippedOffset.toNat) size path := by
  have hzeros := Buffer.size_zeros te.strippedOffset.toNat
  rw [← hzeros] at haligned hmoved
  rw [← Buffer.holdsPath_append_iff haligned hmoved, hfull.buffer, hzeros, Nat.add_sub_cancel' hle]

/-- No record begins in the zeros. -/
theorem le_of_holdsPath (hfull : te.Unstripped full) {pointer size : Nat} {moved : SymbolPath}
    (h : full.buffer.HoldsPath pointer size moved) : te.strippedOffset.toNat ≤ pointer := by
  rcases Nat.lt_or_ge pointer te.strippedOffset.toNat with hlt | hge
  · have hsignature := h.signature
    rw [hfull.buffer] at hsignature
    exact absurd hsignature (Buffer.not_hasBytesAt_zeros hlt _ _)
  · exact hge

/-- An entry leads to a path in a TE image iff it does in the full file, and to
    the same one. -/
theorem corresponds_recordPath (hfull : te.Unstripped full)
    (haligned : 4 ∣ te.strippedOffset.toNat)
    (hsize : te.strippedOffset.toNat + te.buffer.size < UInt32.size)
    (hallow : options.allowTe = true) (entry : DebugEntry) :
    Corresponds (SymbolPath.MovedBy te.strippedOffset.toNat) (fun _ _ => True)
      (te.recordPath entry options) (full.recordPath entry options) := by
  have hsmall : te.buffer.size < UInt32.size := by omega
  have hfullSize : full.buffer.size < UInt32.size := by
    rw [hfull.size_full]
    exact hsize
  have hshift : te.shift options = te.strippedOffset.toNat := shift_eq (Or.inl hallow)
  refine corresponds_of_ok (fun path hpath => ?_) (fun moved hmoved => ?_)
  · rw [recordPath_eq_ok_iff hsmall, hshift] at hpath
    rcases hpath with ⟨hle, hholds⟩
    -- The path ends within the full file, so its offset there is a word.
    have hfit : path.offset.toNat + te.strippedOffset.toNat < UInt32.size := by
      have hoffset := hholds.offset
      have hfile := hholds.inFile
      have hlonger := hholds.longer
      omega
    rcases SymbolPath.exists_moved hfit with ⟨moved, hmoved⟩
    refine ⟨moved, ?_, hmoved⟩
    rw [recordPath_eq_ok_iff hfullSize, hfull.shift_full, Nat.sub_zero]
    exact ⟨Nat.zero_le _, (hfull.holdsPath_iff haligned hle hmoved).mpr hholds⟩
  · rw [recordPath_eq_ok_iff hfullSize, hfull.shift_full, Nat.sub_zero] at hmoved
    have hholds := hmoved.2
    have hle := hfull.le_of_holdsPath hholds
    -- The record is behind the zeros, and so is the path.
    have hback : te.strippedOffset.toNat ≤ moved.offset.toNat := by
      rw [hholds.offset]
      omega
    rcases SymbolPath.exists_movedBy hback with ⟨path, hpath⟩
    refine ⟨path, ?_⟩
    rw [recordPath_eq_ok_iff hsmall, hshift]
    exact ⟨hle, (hfull.holdsPath_iff haligned hle hpath).mp hholds⟩

/-! ### Places -/

/-- The section table of the full file is that of the TE image. -/
theorem sections?_full (hfull : te.Unstripped full)
    (hoffset : full.sectionsOffset.toNat = te.sectionsOffset.toNat + te.strippedOffset.toNat)
    (hcount : full.sectionCount = te.sectionCount) : full.sections? = te.sections? := by
  have hplace : full.sectionsOffset.toNat =
      (Buffer.zeros te.strippedOffset.toNat).size + te.sectionsOffset.toNat := by
    rw [hoffset, Buffer.size_zeros, Nat.add_comm]
  rw [sections?, sections?, SectionTable.ofBuffer?, SectionTable.ofBuffer?, hfull.buffer, hplace,
    hcount, Buffer.slice?_append_add]

/-- A range that is not empty is placed in a well-formed TE image iff it is in
    the full file, and further on there. Otherwise both report the same
    defect. -/
theorem corresponds_place (hfull : te.Unstripped full) (hwell : te.WellFormed)
    (haligned : 4 ∣ te.strippedOffset.toNat) (hallow : options.allowTe = true)
    (hoffset : full.sectionsOffset.toNat = te.sectionsOffset.toNat + te.strippedOffset.toNat)
    (hcount : full.sectionCount = te.sectionCount) {range : VirtualRange}
    (hpos : 0 < range.size.toNat) :
    Corresponds (Placement.MovedBy te.strippedOffset.toNat)
      (LookupError.MovedBy te.strippedOffset.toNat)
      (te.place range options) (full.place range options) := by
  rcases hwell.exists_sections? with ⟨table, htable⟩
  have hcompensation : (te.compensation options).toNat = te.strippedOffset.toNat := by
    rw [toNat_compensation, shift_eq (Or.inl hallow)]
  have hzero : (full.compensation options).toNat = 0 := by
    rw [toNat_compensation, hfull.shift_full]
  refine corresponds_known_bind htable ((hfull.sections?_full hoffset hcount).trans htable) ?_
  refine corresponds_require_bind (.same fun _ => Defect.noConfusion) fun hit hhit => ?_
  rcases hit with ⟨index, header⟩
  dsimp only
  refine corresponds_ensure_bind Iff.rfl (fun _ => .same fun _ => Defect.noConfusion)
    fun hdata => ?_
  refine corresponds_require_bind (.same fun _ => Defect.noConfusion) fun offset hsum => ?_
  have hstripped := hwell.stripped_le_of_containing? htable hpos hhit hdata
  rw [Word.add?_eq_some_iff] at hsum
  have hle : te.compensation options ≤ header.rawPointer := by
    rw [UInt32.le_iff_toNat_le, hcompensation]
    exact hstripped
  have hle' : full.compensation options ≤ header.rawPointer := by
    rw [UInt32.le_iff_toNat_le, hzero]
    exact Nat.zero_le _
  refine corresponds_ensure_bind (iff_of_true hle hle') (absurd hle) fun _ => ?_
  -- The two places differ by the stripped bytes, and are aligned together.
  have hmoved : (offset - full.compensation options).toNat =
      (offset - te.compensation options).toNat + te.strippedOffset.toNat := by
    have hoffset : te.strippedOffset.toNat ≤ offset.toNat := by omega
    rw [← hcompensation] at hoffset ⊢
    rw [UInt32.toNat_sub_of_le _ _ (UInt32.le_iff_toNat_le.mpr hoffset),
      UInt32.toNat_sub_of_le _ _ (UInt32.le_iff_toNat_le.mpr (hzero ▸ Nat.zero_le _)), hzero]
    omega
  have halignedBoth : Word.isAligned (offset - te.compensation options) 4 = true ↔
      Word.isAligned (offset - full.compensation options) 4 = true := by
    rw [Word.isAligned_four_iff, Word.isAligned_four_iff, hmoved]
    exact (Nat.dvd_add_left haligned).symm
  refine corresponds_ensure_bind halignedBoth (fun _ => .misaligned hmoved) fun _ => ?_
  exact .ok ⟨hmoved, rfl, rfl⟩

end Unstripped

end Image

/-! ### Agreement -/

/-- A TE image gives the answers of the full file, at smaller offsets. The
    stripped bytes must keep the alignment, and the full file must be one that
    32-bit offsets reach. Records agree in images of any layout. Places of
    directories agree if the TE image was loaded, and if the full file is read
    with the same section table. Where there is no place, both report the same
    defect, and never that a contract is violated. -/
theorem full_file_gives_moved_answers {te full : Image} (hfull : te.Unstripped full)
    (haligned : 4 ∣ te.strippedOffset.toNat)
    (hsize : te.strippedOffset.toNat + te.buffer.size < UInt32.size) {options : Options}
    (hallow : options.allowTe = true) :
    (∀ entry, Corresponds (SymbolPath.MovedBy te.strippedOffset.toNat) (fun _ _ => True)
      (te.recordPath entry options) (full.recordPath entry options)) ∧
    ∀ (data : Buffer) (loading : Options), Image.load data loading = .ok te →
      full.sectionsOffset.toNat = 40 + te.strippedOffset.toNat →
      full.sectionCount = te.sectionCount →
      ∀ range : VirtualRange, 0 < range.size.toNat →
        Corresponds (Placement.MovedBy te.strippedOffset.toNat)
          (LookupError.MovedBy te.strippedOffset.toNat)
          (te.place range options) (full.place range options) := by
  refine ⟨hfull.corresponds_recordPath haligned hsize hallow,
    fun data loading hload hoffset hcount range hpos => ?_⟩
  have hwell := Image.wellFormed_of_load hload
  have htable := Image.sectionsOffset_of_load hload hfull.isTe
  rw [← htable] at hoffset
  exact hfull.corresponds_place hwell haligned hallow hoffset hcount hpos

/-- The file that the stripped image was stripped of, as far as it is known. -/
def unstrippedImage : Image where
  format := .pe .pe32 0
  sizeOfImage := 0
  sectionsOffset := 140
  sectionCount := 2
  buffer := Buffer.zeros 100 ++ strippedImage

theorem strippedImage_gives_moved_answers :
    strippedLoaded.Unstripped unstrippedImage ∧
      (∃ path moved, path.MovedBy 100 moved ∧
        strippedLoaded.recordPath { dataSize := 26, rawPointer := 248 } .standard = .ok path ∧
        unstrippedImage.recordPath { dataSize := 26, rawPointer := 248 } .standard = .ok moved) ∧
      ∃ placement moved, placement.MovedBy 100 moved ∧
        strippedLoaded.place ⟨0x2000, 28⟩ .standard = .ok placement ∧
        unstrippedImage.place ⟨0x2000, 28⟩ .standard = .ok moved := by
  have hfull : strippedLoaded.Unstripped unstrippedImage := ⟨rfl, rfl, rfl⟩
  have hsize : strippedLoaded.strippedOffset.toNat + strippedLoaded.buffer.size < UInt32.size := by
    decide +kernel
  have hallow : Options.standard.allowTe = true := rfl
  rcases full_file_gives_moved_answers hfull (by decide) hsize hallow with ⟨hrecords, hplaces⟩
  have hpath : (strippedLoaded.recordPath { dataSize := 26, rawPointer := 248 }
      .standard).isOk = true := by decide +kernel
  have hplacement : (strippedLoaded.place ⟨0x2000, 28⟩ .standard).isOk = true := by decide +kernel
  rcases exists_ok_of_isOk hpath with ⟨path, hpath⟩
  rcases (hrecords _).exists_ok hpath with ⟨moved, hmoved, hpaths⟩
  rcases exists_ok_of_isOk hplacement with ⟨placement, hplacement⟩
  have htable : unstrippedImage.sectionsOffset.toNat =
      40 + strippedLoaded.strippedOffset.toNat := by decide
  have hcount : unstrippedImage.sectionCount = strippedLoaded.sectionCount := by decide
  have hanswers := hplaces strippedImage .standard load_strippedImage htable hcount ⟨0x2000, 28⟩
    (by decide)
  rcases hanswers.exists_ok hplacement with ⟨other, hother, hplacements⟩
  exact ⟨hfull, ⟨path, moved, hpaths, hpath, hmoved⟩, placement, other, hplacements, hplacement,
    hother⟩

end SymbolLocator
