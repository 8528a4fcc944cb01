import SymbolLocator.Word

/-!
# Words as Numbers

Facts about 32-bit words that are used where a statement over the natural
numbers is carried over to machine arithmetic, or back.

The alignment test is the only one that looks at bits. Clearing all but the
low bits of a word leaves its remainder by a power of two, so the test for
those bits to be zero is divisibility.

## Theorems

* `Word.exists_toNat_eq`: Every number below the word size is a word.
* `Word.toNat_max`: The greater of two words is the greater number.
* `Word.any_add?_le_iff`: A bound on a sum that may not fit in a word.
* `Word.isAligned_iff`: Alignment to a power of two is divisibility by it.
* `Word.isAligned_four_iff`: The same for four.
-/

namespace SymbolLocator

namespace Word

theorem exists_toNat_eq {number : Nat} (h : number < UInt32.size) :
    ∃ word : UInt32, word.toNat = number :=
  ⟨UInt32.ofNat number, UInt32.toNat_ofNat_of_lt h⟩

theorem toNat_max (a b : UInt32) : (max a b).toNat = max a.toNat b.toNat := by
  show (if a ≤ b then b else a).toNat = _
  by_cases h : a ≤ b
  · rw [if_pos h, Nat.max_eq_right (UInt32.le_iff_toNat_le.mp h)]
  · rw [if_neg h]
    rw [UInt32.le_iff_toNat_le] at h
    omega

-- A sum that must not exceed a word may be compared as a number: one that does not fit in a
-- word exceeds them all.
theorem any_add?_le_iff {a b limit : UInt32} :
    (add? a b).any (fun last => last ≤ limit) = true ↔ a.toNat + b.toNat ≤ limit.toNat := by
  have hlimit := limit.toNat_lt
  have hsize : UInt32.size = 4294967296 := rfl
  rcases hsum : add? a b with _ | last
  · rw [add?_eq_none_iff] at hsum
    simp only [Option.any_none, Bool.false_eq_true, false_iff]
    omega
  · rw [add?_eq_some_iff] at hsum
    rw [Option.any_some, decide_eq_true_eq, UInt32.le_iff_toNat_le, hsum]

theorem isAligned_iff {value alignment : UInt32} {exponent : Nat}
    (halignment : alignment.toNat = Nat.pow 2 exponent) :
    isAligned value alignment = true ↔ alignment.toNat ∣ value.toNat := by
  have hone : (1 : UInt32) ≤ alignment := by
    rw [UInt32.le_iff_toNat_le, halignment]
    exact Nat.one_le_two_pow
  -- The bits below the alignment are the remainder by it.
  have hbits : (value &&& (alignment - 1)).toNat = value.toNat % alignment.toNat := by
    rw [UInt32.toNat_and, UInt32.toNat_sub_of_le _ _ hone, halignment]
    exact Nat.and_two_pow_sub_one_eq_mod _ _
  rw [isAligned, beq_iff_eq, ← UInt32.toNat_inj, hbits, Nat.dvd_iff_mod_eq_zero]
  rfl

theorem isAligned_four_iff {value : UInt32} : isAligned value 4 = true ↔ 4 ∣ value.toNat :=
  isAligned_iff (show (4 : UInt32).toNat = Nat.pow 2 2 from rfl)

end Word

end SymbolLocator
