/-!
# Little-Endian Numbers

Numbers as lists of bytes, least significant byte first.

Every word of an image file is stored this way. Reading and writing are kept
width-generic: a 16-bit and a 32-bit field differ only in how many bytes are
taken, so one pair of functions and one pair of round trips serves both.

## Main definitions

* `ofLittleEndian`: The number a list of bytes stands for.
* `toLittleEndian`: The lowest bytes of a number, at a given width.

## Theorems

* `length_toLittleEndian`: A number is written in exactly the given width.
* `ofLittleEndian_lt`: A list of `n` bytes stands for a number below 256 to
  the `n`.
* `ofLittleEndian_toLittleEndian`: What is written reads back, up to the width.
* `toLittleEndian_ofLittleEndian`: What is read writes back unchanged.
-/

namespace SymbolLocator

/-- The number whose base 256 digits, least significant first, are `bytes`. -/
def ofLittleEndian : List UInt8 → Nat
  | [] => 0
  | byte :: rest => byte.toNat + 256 * ofLittleEndian rest

/-- The `width` lowest base 256 digits of `value`, least significant first. -/
def toLittleEndian : (width : Nat) → (value : Nat) → List UInt8
  | 0, _ => []
  | width + 1, value => UInt8.ofNat value :: toLittleEndian width (value / 256)

@[simp] theorem length_toLittleEndian (width value : Nat) :
    (toLittleEndian width value).length = width := by
  induction width generalizing value with
  | zero => rfl
  | succ width ih => simp [toLittleEndian, ih]

theorem ofLittleEndian_lt (bytes : List UInt8) :
    ofLittleEndian bytes < Nat.pow 256 bytes.length := by
  induction bytes with
  | nil => exact Nat.one_pos
  | cons byte rest ih =>
      have hbyte := byte.toNat_lt
      have hpow : Nat.pow 256 (rest.length + 1) = Nat.pow 256 rest.length * 256 := rfl
      rw [ofLittleEndian, List.length_cons, hpow]
      omega

theorem ofLittleEndian_toLittleEndian (width value : Nat) :
    ofLittleEndian (toLittleEndian width value) = value % Nat.pow 256 width := by
  induction width generalizing value with
  | zero => exact (Nat.mod_one value).symm
  | succ width ih =>
      have hpow : Nat.pow 256 (width + 1) = 256 * Nat.pow 256 width := Nat.mul_comm _ _
      rw [toLittleEndian, ofLittleEndian, ih, hpow, Nat.mod_mul, UInt8.toNat_ofNat']

theorem toLittleEndian_ofLittleEndian (bytes : List UInt8) :
    toLittleEndian bytes.length (ofLittleEndian bytes) = bytes := by
  induction bytes with
  | nil => rfl
  | cons byte rest ih =>
      have hbyte := byte.toNat_lt
      have hdiv : (byte.toNat + 256 * ofLittleEndian rest) / 256 = ofLittleEndian rest := by omega
      have hlow : UInt8.ofNat (byte.toNat + 256 * ofLittleEndian rest) = byte := by
        apply UInt8.toNat_inj.mp
        rw [UInt8.toNat_ofNat']
        omega
      rw [List.length_cons, ofLittleEndian, toLittleEndian, hdiv, hlow, ih]

end SymbolLocator
