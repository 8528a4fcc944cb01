import SymbolLocator.Image.Sections
import SymbolLocator.Proofs.CheckLists
import SymbolLocator.Proofs.Words
import SymbolLocator.Proofs.Tables

/-!
# Order of Sections

What the section checks establish about all sections of an image together.

The checks run through the table once and carry a single number, the end of
the section in front. What they establish is stronger than that: every section
ends before every later one begins, not only before its neighbour. The step
from one to the other is an induction along the table. The end that is carried
bounds the ends of all sections behind, because a section that passes begins
at it or later and ends no earlier than it begins.

The checks are also written down as a list, three for each section, so that
which section is blamed, and for what, can be read off.

## Main definitions

* `Extent.checks`, `sectionChecks`: The checks of one section, and of all.
* `topChecks`: The checks that all sections end at some address.
* `SectionsFit`: All sections of an image are in order, within the image and
  within the file.

## Theorems

* `SectionBounds.checkFrom_follows`: The loop decides as the list says.
* `highestEndFrom_follows`: So does the search for the furthest end.
* `allHold_sectionChecks_iff`: The list in terms of all pairs of sections.
* `allHold_sectionChecks_extents_iff`: The same for the extents in a buffer.
-/

namespace SymbolLocator

/-- The data of a section, if it has any, lies within a file of `fileSize`
    bytes that had `stripped` bytes more in front. -/
def Extent.InFile (extent : Extent) (stripped fileSize : Nat) : Prop :=
  0 < extent.rawSize →
    stripped ≤ extent.rawPointer ∧ extent.rawPointer - stripped + extent.rawSize ≤ fileSize

instance (extent : Extent) (stripped fileSize : Nat) :
    Decidable (extent.InFile stripped fileSize) :=
  inferInstanceAs (Decidable (_ → _))

/-- What sections are checked against, in numbers. -/
structure Limits where
  sizeOfImage : Nat
  stripped : Nat
  fileSize : Nat

/-- The bounds of a check in numbers. -/
def SectionBounds.limits (bounds : SectionBounds) : Limits where
  sizeOfImage := bounds.sizeOfImage.toNat
  stripped := bounds.strippedOffset.toNat
  fileSize := bounds.fileSize

/-- The checks of the section at `index`, with the end of the section in front
    of it. -/
def Extent.checks (extent : Extent) (limits : Limits) (index previousTop : Nat) :
    List (Check LoadError) := [
  ⟨extent.top ≤ limits.sizeOfImage, .sectionOutsideImage index⟩,
  ⟨previousTop ≤ extent.address, .sectionOutOfOrder index⟩,
  ⟨extent.InFile limits.stripped limits.fileSize, .sectionOutsideFile index⟩]

/-- The checks of sections in order, the first of them at `index` and behind
    `previousTop`. -/
def sectionChecks (limits : Limits) :
    (index : Nat) → (previousTop : Nat) → List Extent → List (Check LoadError)
  | _, _, [] => []
  | index, previousTop, extent :: rest =>
    extent.checks limits index previousTop ++ sectionChecks limits (index + 1) extent.top rest

/-- The end of the section that reaches furthest, or zero without sections. -/
def furthestTop (extents : List Extent) : Nat :=
  extents.foldl (fun top extent => max top extent.top) 0

/-- The checks that each section from `index` on ends at an address. -/
def topChecks : (index : Nat) → List Extent → List (Check LoadError)
  | _, [] => []
  | index, extent :: rest =>
    ⟨extent.top < UInt32.size, .sectionOutsideImage index⟩ :: topChecks (index + 1) rest

namespace Section

theorem end?_eq_some_iff {header : Section} {last : UInt32} :
    header.end? = some last ↔ last.toNat = header.extent.top :=
  VirtualRange.end?_eq_some_iff

theorem end?_eq_none_iff {header : Section} :
    header.end? = none ↔ UInt32.size ≤ header.extent.top :=
  VirtualRange.end?_eq_none_iff

/-- The file check of a section, without machine words. In a file that 32-bit
    offsets reach, an end that is no word is also behind the file. -/
theorem rawEnd?_iff {header : Section} {stripped : UInt32} {fileSize : Nat}
    (hsize : fileSize < UInt32.size) :
    (header.rawSize = 0 ∨ (header.rawEnd? stripped fileSize).isSome) ↔
      header.extent.InFile stripped.toNat fileSize := by
  have hzero : header.rawSize = 0 ↔ header.extent.rawSize = 0 := by
    rw [← UInt32.toNat_inj]
    rfl
  have hend : (header.rawEnd? stripped fileSize).isSome ↔
      stripped.toNat ≤ header.extent.rawPointer ∧
        header.extent.rawPointer - stripped.toNat + header.extent.rawSize ≤ fileSize := by
    have hpointer : header.extent.rawPointer = header.rawPointer.toNat := rfl
    have hraw : header.extent.rawSize = header.rawSize.toNat := rfl
    simp only [rawEnd?, Option.isSome_iff_exists, Option.bind_eq_some_iff,
      Word.sub?_eq_some_iff, Word.checkedEnd_eq_some_iff]
    constructor
    · intro h
      rcases h with ⟨last, start, hstart, hlast, hle⟩
      omega
    · intro h
      rcases h with ⟨hle, hfit⟩
      -- Both the start of the data and its end are words: one is below the pointer, the
      -- other within the file.
      rcases Word.exists_toNat_eq
        (Nat.lt_of_le_of_lt (Nat.sub_le _ stripped.toNat) header.rawPointer.toNat_lt) with
        ⟨start, hstart⟩
      rcases Word.exists_toNat_eq (Nat.lt_of_le_of_lt hfit hsize) with ⟨last, hlast⟩
      exact ⟨last, start, by omega, by omega, by omega⟩
  rw [hzero, hend, Extent.InFile]
  omega

end Section

namespace SectionBounds

theorem check_follows {bounds : SectionBounds} (hsize : bounds.fileSize < UInt32.size)
    (index : Nat) (previousEnd : UInt32) (header : Section) :
    Follows (bounds.check index previousEnd header)
      (header.extent.checks bounds.limits index previousEnd.toNat)
      (fun last => last.toNat = header.extent.top) := by
  have hend : header.end?.filter (fun last => last ≤ bounds.sizeOfImage) ≠ none ↔
      header.extent.top ≤ bounds.sizeOfImage.toNat := by
    have hword := bounds.sizeOfImage.toNat_lt
    rw [ne_eq, Option.filter_eq_none_iff]
    -- An end that is no word is behind any image.
    rcases hlast : header.end? with _ | last
    · rw [Section.end?_eq_none_iff] at hlast
      have hbound : UInt32.size = 4294967296 := rfl
      simp only [reduceCtorEq, false_implies, implies_true, not_true_eq_false, false_iff]
      omega
    · rw [Section.end?_eq_some_iff] at hlast
      simp only [Option.some.injEq, forall_eq', decide_eq_true_eq, Decidable.not_not,
        UInt32.le_iff_toNat_le, hlast]
  refine follows_require_bind hend fun last hlast _ => ?_
  refine follows_ensure_bind UInt32.le_iff_toNat_le fun _ => ?_
  refine follows_ensure_bind (Section.rawEnd?_iff hsize) fun _ => ?_
  rw [Option.filter_eq_some_iff, Section.end?_eq_some_iff] at hlast
  exact follows_ok hlast.1

theorem checkFrom_cons (bounds : SectionBounds) (index : Nat) (previousEnd : UInt32)
    (header : Section) (rest : List Section) :
    bounds.checkFrom index previousEnd (header :: rest) =
      bounds.check index previousEnd header >>= fun last =>
        bounds.checkFrom (index + 1) last rest := by
  rw [checkFrom]
  cases bounds.check index previousEnd header <;> rfl

/-- The loop over the sections decides as the list of their checks says. -/
theorem checkFrom_follows {bounds : SectionBounds} (hsize : bounds.fileSize < UInt32.size)
    (headers : List Section) (index : Nat) (previousEnd : UInt32) :
    Follows (bounds.checkFrom index previousEnd headers)
      (sectionChecks bounds.limits index previousEnd.toNat (headers.map Section.extent))
      (fun _ => True) := by
  -- The end of the section in front changes at every step, so it is generalized.
  induction headers generalizing index previousEnd with
  | nil => exact follows_ok trivial
  | cons header rest ih =>
      rw [checkFrom_cons, List.map_cons, sectionChecks]
      refine follows_bind (check_follows hsize index previousEnd header) fun last hlast => ?_
      rw [← hlast]
      exact ih (index + 1) last

end SectionBounds

theorem highestEndFrom_cons (index : Nat) (highest : UInt32) (header : Section)
    (rest : List Section) :
    highestEndFrom index highest (header :: rest) =
      require (.sectionOutsideImage index) header.end? >>= fun last =>
        highestEndFrom (index + 1) (max highest last) rest := by
  rw [highestEndFrom]
  cases header.end? <;> rfl

/-- The search for the furthest end needs all ends to be addresses, and gives
    the greatest. -/
theorem highestEndFrom_follows (headers : List Section) (index : Nat) (highest : UInt32) :
    Follows (highestEndFrom index highest headers)
      (topChecks index (headers.map Section.extent))
      (fun last => last.toNat =
        (headers.map Section.extent).foldl (fun top extent => max top extent.top)
          highest.toNat) := by
  induction headers generalizing index highest with
  | nil => exact follows_ok rfl
  | cons header rest ih =>
      -- One step raises the highest end so far, as one step of the fold does.
      have hend : header.end? ≠ none ↔ header.extent.top < UInt32.size := by
        rw [ne_eq, Section.end?_eq_none_iff, Nat.not_le]
      rw [highestEndFrom_cons, List.map_cons, topChecks, List.foldl_cons]
      refine follows_require_bind hend fun last hlast _ => ?_
      have hmax : (max highest last).toNat = max highest.toNat header.extent.top := by
        rw [← Section.end?_eq_some_iff.mp hlast, Word.toNat_max]
      rw [← hmax]
      exact ih (index + 1) (max highest last)

/-! ### All pairs -/

/-- The sections of an image: each ends within the image and before every
    later one begins, and its data is in the file. -/
structure SectionsFit (extents : Nat → Extent) (count : Nat) (limits : Limits) : Prop where
  inImage : ∀ i < count, (extents i).top ≤ limits.sizeOfImage
  inOrder : ∀ i j, i < j → j < count → (extents i).top ≤ (extents j).address
  inFile : ∀ i < count, (extents i).InFile limits.stripped limits.fileSize

instance (extents : Nat → Extent) (count : Nat) (limits : Limits) :
    Decidable (SectionsFit extents count limits) :=
  decidable_of_iff
    ((∀ i < count, (extents i).top ≤ limits.sizeOfImage) ∧
      (∀ j < count, ∀ i < j, (extents i).top ≤ (extents j).address) ∧
      ∀ i < count, (extents i).InFile limits.stripped limits.fileSize)
    ⟨fun h => ⟨h.1, fun i j hij hj => h.2.1 j hj i hij, h.2.2⟩,
      fun h => ⟨h.inImage, fun j hj i hij => h.inOrder i j hij hj, h.inFile⟩⟩

-- The end of the section in front, which a check looks at, stands for the ends of all of
-- them: a section behind it begins at that end or later, and ends no earlier than it begins.
-- The induction is along the table, with that end generalized.
theorem allHold_sectionChecks_iff {limits : Limits} (extents : List Extent)
    (index previousTop : Nat) :
    AllHold (sectionChecks limits index previousTop extents) ↔
      (∀ extent ∈ extents, extent.top ≤ limits.sizeOfImage ∧ previousTop ≤ extent.address ∧
        extent.InFile limits.stripped limits.fileSize) ∧
      extents.Pairwise (fun earlier later => earlier.top ≤ later.address) := by
  induction extents generalizing index previousTop with
  | nil => simp [sectionChecks]
  | cons extent rest ih =>
      rw [sectionChecks, allHold_append, ih, Extent.checks, allHold_cons, allHold_cons,
        allHold_cons, List.pairwise_cons]
      constructor
      · intro h
        rcases h with ⟨⟨himage, horder, hfile, -⟩, hrest, hpairs⟩
        refine ⟨fun other hmem => ?_, fun later hmem => (hrest later hmem).2.1, hpairs⟩
        rcases List.mem_cons.mp hmem with rfl | hmem
        · exact ⟨himage, horder, hfile⟩
        · rcases hrest other hmem with ⟨himage', hbehind, hfile'⟩
          -- `previousTop` bounds this section's start, hence its end, hence the next start.
          have hgrow : extent.address ≤ extent.top := Nat.le_add_right _ _
          exact ⟨himage', by omega, hfile'⟩
      · intro h
        rcases h with ⟨hall, hbehind, hpairs⟩
        rcases hall extent List.mem_cons_self with ⟨himage, horder, hfile⟩
        refine ⟨⟨himage, horder, hfile, allHold_nil⟩, fun other hmem => ?_, hpairs⟩
        rcases hall other (List.mem_cons_of_mem _ hmem) with ⟨himage', -, hfile'⟩
        exact ⟨himage', hbehind other hmem, hfile'⟩

theorem allHold_topChecks_iff (extents : List Extent) (index : Nat) :
    AllHold (topChecks index extents) ↔ ∀ extent ∈ extents, extent.top < UInt32.size := by
  induction extents generalizing index with
  | nil => simp [topChecks]
  | cons extent rest ih => rw [topChecks, allHold_cons, ih, List.forall_mem_cons]

/-- The extents of a table with `count` headers. -/
def Buffer.extents (buffer : Buffer) (table count : Nat) : List Extent :=
  (List.range count).map (buffer.extentAt table)

theorem map_extent_toList {buffer : Buffer} {offset : Nat} {count : UInt16} {table : SectionTable}
    (h : SectionTable.ofBuffer? buffer offset count = some table) :
    table.toList.map Section.extent = buffer.extents offset count.toNat := by
  have hlength := SectionTable.length_toList h
  -- Both lists have one extent for each index of the table.
  apply List.ext_getElem
  · rw [List.length_map, hlength, Buffer.extents, List.length_map, List.length_range]
  · intro i hi hi'
    rw [List.length_map] at hi
    simp only [List.getElem_map, Buffer.extents, List.getElem_range]
    exact SectionTable.extent_getElem h hi

/-- The list of checks for the headers in a buffer says that the sections
    there fit. -/
theorem allHold_sectionChecks_extents_iff {limits : Limits} {buffer : Buffer}
    {offset count : Nat} :
    AllHold (sectionChecks limits 0 0 (buffer.extents offset count)) ↔
      SectionsFit (buffer.extentAt offset) count limits := by
  rw [allHold_sectionChecks_iff, Buffer.extents, List.pairwise_map, List.forall_mem_map]
  simp only [List.mem_range, Nat.zero_le, true_and]
  constructor
  · intro h
    rcases h with ⟨hall, hpairs⟩
    refine ⟨fun i hi => (hall i hi).1, fun i j hij hj => ?_, fun i hi => (hall i hi).2⟩
    have hrange := List.pairwise_iff_getElem.mp hpairs i j
      (by rw [List.length_range]; omega) (by rw [List.length_range]; exact hj) hij
    rw [List.getElem_range, List.getElem_range] at hrange
    exact hrange
  · intro h
    refine ⟨fun i hi => ⟨h.inImage i hi, h.inFile i hi⟩, List.pairwise_iff_getElem.mpr ?_⟩
    intro i j hi hj hij
    rw [List.length_range] at hj
    rw [List.getElem_range, List.getElem_range]
    exact h.inOrder i j hij hj

end SymbolLocator
