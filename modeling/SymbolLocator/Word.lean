/-!
# Checked Words

Arithmetic on the 32-bit words of an image that refuses to wrap.

Addresses, sizes and offsets in an image are 32-bit, and they come from a file
that may lie. A sum that does not fit in 32 bits is therefore never a number
here but `none`, and each caller says what the missing number means. Sizes and
offsets that are put together of several words are 64-bit, and a sum that does
not fit there is `none`, too.

## Main definitions

* `Word.add?`, `Word.sub?`: A sum or difference that fits in a word.
* `Word.checkedEnd`: The end of a run of bytes that fits in a buffer.
* `Word.isAligned`: Whether a word is a multiple of a power of two.
* `size64?`: A size that fits in 64 bits.

## Theorems

* `Word.add?_eq_some_iff`, `Word.sub?_eq_some_iff`: The results are those of
  the natural numbers.
* `Word.checkedEnd_eq_some_iff`: An end exists iff it fits word and buffer.
-/

namespace SymbolLocator

/-- A size, if it is a 64-bit number. -/
def size64? (size : Nat) : Option Nat := if size < UInt64.size then some size else none

theorem size64?_of_lt {size : Nat} (h : size < UInt64.size) : size64? size = some size :=
  if_pos h

namespace Word

/-- The sum of two words, if it fits in a word. -/
def add? (a b : UInt32) : Option UInt32 :=
  if a.toNat + b.toNat < UInt32.size then some (a + b) else none

/-- The difference of two words, if it is not negative. -/
def sub? (a b : UInt32) : Option UInt32 :=
  if b ≤ a then some (a - b) else none

/-- The end of a run of `size` bytes at `offset`, if it fits in a word and
    lies within `length` bytes. -/
def checkedEnd (offset size : UInt32) (length : Nat) : Option UInt32 :=
  (add? offset size).filter fun last => last.toNat ≤ length

/-- Whether the bits of `value` below the power of two `alignment` are all
    clear. -/
def isAligned (value alignment : UInt32) : Bool :=
  value &&& (alignment - 1) == 0

theorem add?_eq_some_iff {a b c : UInt32} :
    add? a b = some c ↔ c.toNat = a.toNat + b.toNat := by
  have hc := c.toNat_lt
  unfold add?
  split
  case isTrue h =>
    rw [Option.some.injEq, ← UInt32.toNat_inj, UInt32.toNat_add, Nat.mod_eq_of_lt h]
    exact eq_comm
  case isFalse h =>
    have hsize : UInt32.size = 4294967296 := rfl
    simp only [reduceCtorEq, false_iff]
    omega

theorem add?_eq_none_iff {a b : UInt32} :
    add? a b = none ↔ UInt32.size ≤ a.toNat + b.toNat := by
  unfold add?
  split <;> simp <;> omega

theorem sub?_eq_some_iff {a b c : UInt32} :
    sub? a b = some c ↔ b.toNat + c.toNat = a.toNat := by
  unfold sub?
  split
  case isTrue h =>
    have hle := UInt32.le_iff_toNat_le.mp h
    rw [Option.some.injEq, ← UInt32.toNat_inj, UInt32.toNat_sub_of_le a b h]
    omega
  case isFalse h =>
    rw [UInt32.le_iff_toNat_le] at h
    simp
    omega

theorem sub?_eq_none_iff {a b : UInt32} : sub? a b = none ↔ a.toNat < b.toNat := by
  unfold sub?
  split
  case isTrue h => simp [UInt32.le_iff_toNat_le.mp h]
  case isFalse h =>
    rw [UInt32.le_iff_toNat_le] at h
    simp
    omega

theorem checkedEnd_eq_some_iff {offset size last : UInt32} {length : Nat} :
    checkedEnd offset size length = some last ↔
      last.toNat = offset.toNat + size.toNat ∧ last.toNat ≤ length := by
  simp [checkedEnd, Option.filter_eq_some_iff, add?_eq_some_iff]

end Word

end SymbolLocator
