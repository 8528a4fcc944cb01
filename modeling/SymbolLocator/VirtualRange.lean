import SymbolLocator.Word

/-!
# Virtual Ranges

Runs of addresses in a loaded image.

An image describes its parts by a virtual address and a size, both 32-bit
words. The end of such a range may not fit in a word. A range of that kind
lies within nothing, and nothing lies within it.

## Main definitions

* `VirtualRange`: An address and a size.
* `VirtualRange.end?`: The first address behind a range.
* `VirtualRange.within`: Whether a range lies within another.

## Theorems

* `VirtualRange.within_iff`: Lying within, over the natural numbers.
-/

namespace SymbolLocator

/-- A run of `size` addresses from `address` on. -/
structure VirtualRange where
  address : UInt32
  size : UInt32
deriving DecidableEq, Repr

namespace VirtualRange

/-- The first address behind the range, if it is a 32-bit word. -/
def end? (range : VirtualRange) : Option UInt32 := Word.add? range.address range.size

/-- Whether `inner` lies within `outer`. A range whose end is no 32-bit word
    neither lies within another nor holds one. -/
def within (inner outer : VirtualRange) : Bool :=
  match inner.end?, outer.end? with
  | some innerEnd, some outerEnd => outer.address ≤ inner.address && innerEnd ≤ outerEnd
  | _, _ => false

theorem end?_eq_some_iff {range : VirtualRange} {last : UInt32} :
    range.end? = some last ↔ last.toNat = range.address.toNat + range.size.toNat :=
  Word.add?_eq_some_iff

theorem end?_eq_none_iff {range : VirtualRange} :
    range.end? = none ↔ UInt32.size ≤ range.address.toNat + range.size.toNat :=
  Word.add?_eq_none_iff

theorem within_iff {inner outer : VirtualRange} :
    inner.within outer = true ↔
      outer.address.toNat ≤ inner.address.toNat ∧
        inner.address.toNat + inner.size.toNat ≤ outer.address.toNat + outer.size.toNat ∧
        outer.address.toNat + outer.size.toNat < UInt32.size := by
  unfold within
  split
  case h_1 innerEnd outerEnd hinner houter =>
    rw [end?_eq_some_iff] at hinner houter
    have hword := outerEnd.toNat_lt
    have hsize : UInt32.size = 4294967296 := rfl
    simp only [Bool.and_eq_true, decide_eq_true_eq, UInt32.le_iff_toNat_le]
    omega
  case h_2 hnone =>
    simp only [Bool.false_eq_true, false_iff]
    intro ⟨_, hends, hword⟩
    cases hinner : inner.end? with
    | none => have := end?_eq_none_iff.mp hinner; omega
    | some innerEnd =>
        cases houter : outer.end? with
        | none => have := end?_eq_none_iff.mp houter; omega
        | some outerEnd => exact hnone innerEnd outerEnd hinner houter

end VirtualRange

end SymbolLocator
