import SymbolLocator.Text.Utf8

/-!
# Scalar Values in Bytes

What the table of first bytes has to do with characters.

Text is cut into pieces by a table. For each byte it says whether a character
can begin with it, which bits it holds, and within what bounds the following
bytes must lie. The table was not derived from anything. Here it is compared
with the encoding of characters, `String.utf8EncodeChar`, which knows of no
bounds: it splits the number of a character into groups of bits. The two agree.
The bytes that encode a character are a first byte of the table with bytes
within its bounds behind it, and any such bytes encode a character.

The rest follows without looking at bytes again. A piece is a character iff the
bytes begin with its encoding. A piece that the end cuts off is the front of
some encoding, because bytes that fit the remaining bounds would complete it.
And a malformed piece is as long as it can be: one byte more, and no encoding
begins with it.

## Main definitions

* `Utf8.Fits`: Bytes lie within bounds, one by one.
* `Utf8.continued`: The value that bytes continue.
* `Utf8.Incomplete`: Bytes that begin a character and do not end it.
* `Utf8.BeginsNone`: Bytes that begin no character.
* `Utf8.MalformedPart`: A malformed part that is as long as it can be.
* `Utf8.Begins`: What the piece at the front of some bytes says of them.

## Theorems

* `Utf8.exists_lead_of_char`: The bytes of a character are in the table.
* `Utf8.exists_char_of_lead`: Bytes as the table has them are a character.
* `Utf8.follow_found`: What is found behind a first byte.
* `Utf8.firstPiece_of_encoding`: The piece at an encoding is the character.
* `Utf8.firstPiece_begins`: What the first piece says is so.
-/

namespace SymbolLocator

namespace Utf8

/-- The bytes lie within the bounds, one by one. -/
def Fits : List Bounds → List UInt8 → Prop
  | [], [] => True
  | (low, high) :: bounds, byte :: bytes =>
    (low.toNat ≤ byte.toNat ∧ byte.toNat ≤ high.toNat) ∧ Fits bounds bytes
  | _, _ => False

/-- The value that the bits of `bytes` continue. -/
def continued (value : Nat) (bytes : List UInt8) : Nat :=
  bytes.foldl (fun value byte => value * 64 + byte.toNat % 64) value

/-- The bytes begin a character and do not end it. -/
def Incomplete (bytes : List UInt8) : Prop :=
  bytes ≠ [] ∧ ∃ char missing, missing ≠ [] ∧ bytes ++ missing = String.utf8EncodeChar char

/-- The bytes begin no character. -/
def BeginsNone (bytes : List UInt8) : Prop :=
  ∀ char missing, bytes ++ missing ≠ String.utf8EncodeChar char

/-! ### The table -/

-- The table in natural numbers, for comparison with the groups of bits of an encoding.
theorem lead?_eq (byte : UInt8) :
    lead? byte =
      if byte.toNat < 0x80 then some ⟨byte.toNat, []⟩
      else if byte.toNat < 0xC2 then none
      else if byte.toNat < 0xE0 then some ⟨byte.toNat % 32, [continuation]⟩
      else if byte.toNat = 0xE0 then some ⟨0x0, [(0xA0, 0xBF), continuation]⟩
      else if byte.toNat = 0xED then some ⟨0xD, [(0x80, 0x9F), continuation]⟩
      else if byte.toNat < 0xF0 then some ⟨byte.toNat % 16, [continuation, continuation]⟩
      else if byte.toNat = 0xF0 then some ⟨0x0, [(0x90, 0xBF), continuation, continuation]⟩
      else if byte.toNat < 0xF4 then
        some ⟨byte.toNat % 8, [continuation, continuation, continuation]⟩
      else if byte.toNat = 0xF4 then some ⟨0x4, [(0x80, 0x8F), continuation, continuation]⟩
      else none := by
  simp only [lead?, UInt8.lt_iff_toNat_lt, ← UInt8.toNat_inj]
  rfl

theorem eq_nil_of_fits {bytes : List UInt8} (h : Fits [] bytes) : bytes = [] := by
  cases bytes with
  | nil => rfl
  | cons byte rest => exact absurd h (by simp only [Fits, not_false_eq_true])

theorem exists_cons_of_fits {low high : UInt8} {bounds : List Bounds} {bytes : List UInt8}
    (h : Fits ((low, high) :: bounds) bytes) :
    ∃ byte rest, bytes = byte :: rest ∧ (low.toNat ≤ byte.toNat ∧ byte.toNat ≤ high.toNat) ∧
      Fits bounds rest := by
  cases bytes with
  | nil => exact absurd h (by simp only [Fits, not_false_eq_true])
  | cons byte rest => exact ⟨byte, rest, rfl, h⟩

theorem exists_byte {number : Nat} (h : number < 256) : ∃ byte : UInt8, byte.toNat = number :=
  ⟨UInt8.ofNat number, UInt8.toNat_ofNat_of_lt h⟩

/-! ### Encodings

The bytes of a character in numbers, one statement for each length. -/

section Encodings

variable {char : Char} {a b c d : UInt8}

theorem byte_eq_ofNat {number : Nat} (h : a.toNat = number) : UInt8.ofNat number = a := by
  rw [← h, UInt8.ofNat_toNat]

theorem encoding_one (h : char.toNat < 0x80) (ha : a.toNat = char.toNat) :
    String.utf8EncodeChar char = [a] := by
  have hval : char.val.toNat = char.toNat := rfl
  simp only [String.utf8EncodeChar, hval]
  rw [if_pos (by omega), byte_eq_ofNat ha]

theorem encoding_two (h : 0x80 ≤ char.toNat) (h' : char.toNat < 0x800)
    (ha : a.toNat = 0xC0 + char.toNat / 64) (hb : b.toNat = 0x80 + char.toNat % 64) :
    String.utf8EncodeChar char = [a, b] := by
  have hval : char.val.toNat = char.toNat := rfl
  simp only [String.utf8EncodeChar, hval]
  rw [if_neg (by omega), if_pos (by omega), byte_eq_ofNat (a := a) (by omega),
    byte_eq_ofNat (a := b) (by omega)]

theorem encoding_three (h : 0x800 ≤ char.toNat) (h' : char.toNat < 0x10000)
    (ha : a.toNat = 0xE0 + char.toNat / 4096) (hb : b.toNat = 0x80 + char.toNat / 64 % 64)
    (hc : c.toNat = 0x80 + char.toNat % 64) : String.utf8EncodeChar char = [a, b, c] := by
  have hval : char.val.toNat = char.toNat := rfl
  simp only [String.utf8EncodeChar, hval]
  rw [if_neg (by omega), if_neg (by omega), if_pos (by omega), byte_eq_ofNat (a := a) (by omega),
    byte_eq_ofNat (a := b) (by omega), byte_eq_ofNat (a := c) (by omega)]

theorem encoding_four (h : 0x10000 ≤ char.toNat) (ha : a.toNat = 0xF0 + char.toNat / 262144)
    (hb : b.toNat = 0x80 + char.toNat / 4096 % 64) (hc : c.toNat = 0x80 + char.toNat / 64 % 64)
    (hd : d.toNat = 0x80 + char.toNat % 64) : String.utf8EncodeChar char = [a, b, c, d] := by
  have hval : char.val.toNat = char.toNat := rfl
  have hvalid : char.toNat < 0xD800 ∨ 0xDFFF < char.toNat ∧ char.toNat < 0x110000 := char.valid
  simp only [String.utf8EncodeChar, hval]
  rw [if_neg (by omega), if_neg (by omega), if_neg (by omega), byte_eq_ofNat (a := a) (by omega),
    byte_eq_ofNat (a := b) (by omega), byte_eq_ofNat (a := c) (by omega),
    byte_eq_ofNat (a := d) (by omega)]

end Encodings

section Leads

variable {char : Char} {a b : UInt8}

/-- The first of three bytes is in the table, with bounds that the second lies
    within, also where shorter forms and surrogates are excluded. -/
theorem lead?_three (h : 0x800 ≤ char.toNat) (h' : char.toNat < 0x10000)
    (ha : a.toNat = 0xE0 + char.toNat / 4096) (hb : b.toNat = 0x80 + char.toNat / 64 % 64) :
    ∃ low high, lead? a = some ⟨char.toNat / 4096, [(low, high), continuation]⟩ ∧
      low.toNat ≤ b.toNat ∧ b.toNat ≤ high.toNat := by
  have hvalid : char.toNat < 0xD800 ∨ 0xDFFF < char.toNat ∧ char.toNat < 0x110000 := char.valid
  rw [lead?_eq, if_neg (by omega), if_neg (by omega), if_neg (by omega)]
  by_cases hshort : a.toNat = 0xE0
  · have hvalue : char.toNat / 4096 = 0x0 := by omega
    rw [if_pos hshort, hvalue]
    exact ⟨0xA0, 0xBF, rfl, by simp only [UInt8.reduceToNat]; omega⟩
  rw [if_neg hshort]
  by_cases hsurrogate : a.toNat = 0xED
  · have hvalue : char.toNat / 4096 = 0xD := by omega
    rw [if_pos hsurrogate, hvalue]
    exact ⟨0x80, 0x9F, rfl, by simp only [UInt8.reduceToNat]; omega⟩
  · have hvalue : char.toNat / 4096 = a.toNat % 16 := by omega
    rw [if_neg hsurrogate, if_pos (by omega), hvalue]
    exact ⟨0x80, 0xBF, rfl, by simp only [UInt8.reduceToNat]; omega⟩

/-- The first of four bytes is in the table, with bounds that the second lies
    within, also where shorter forms and values past the last character are
    excluded. -/
theorem lead?_four (h : 0x10000 ≤ char.toNat) (ha : a.toNat = 0xF0 + char.toNat / 262144)
    (hb : b.toNat = 0x80 + char.toNat / 4096 % 64) :
    ∃ low high,
      lead? a = some ⟨char.toNat / 262144, [(low, high), continuation, continuation]⟩ ∧
        low.toNat ≤ b.toNat ∧ b.toNat ≤ high.toNat := by
  have hvalid : char.toNat < 0xD800 ∨ 0xDFFF < char.toNat ∧ char.toNat < 0x110000 := char.valid
  rw [lead?_eq, if_neg (by omega), if_neg (by omega), if_neg (by omega), if_neg (by omega),
    if_neg (by omega), if_neg (by omega)]
  by_cases hshort : a.toNat = 0xF0
  · have hvalue : char.toNat / 262144 = 0x0 := by omega
    rw [if_pos hshort, hvalue]
    exact ⟨0x90, 0xBF, rfl, by simp only [UInt8.reduceToNat]; omega⟩
  rw [if_neg hshort]
  by_cases hmiddle : a.toNat < 0xF4
  · have hvalue : char.toNat / 262144 = a.toNat % 8 := by omega
    rw [if_pos hmiddle, hvalue]
    exact ⟨0x80, 0xBF, rfl, by simp only [UInt8.reduceToNat]; omega⟩
  · have hvalue : char.toNat / 262144 = 0x4 := by omega
    rw [if_neg hmiddle, if_pos (by omega), hvalue]
    exact ⟨0x80, 0x8F, rfl, by simp only [UInt8.reduceToNat]; omega⟩

end Leads

theorem within_continuation {byte : UInt8} {number : Nat} (h : byte.toNat = 0x80 + number % 64) :
    (0x80 : UInt8).toNat ≤ byte.toNat ∧ byte.toNat ≤ (0xBF : UInt8).toNat := by
  simp only [UInt8.reduceToNat]
  omega

/-- The bytes that encode a character are as the table has them, and hold the
    bits of the character. -/
theorem exists_lead_of_char (char : Char) :
    ∃ byte trail lead, String.utf8EncodeChar char = byte :: trail ∧ lead? byte = some lead ∧
      Fits lead.trail trail ∧ continued lead.value trail = char.toNat := by
  have hvalid : char.toNat < 0xD800 ∨ 0xDFFF < char.toNat ∧ char.toNat < 0x110000 := char.valid
  rcases exists_byte (by omega : 0x80 + char.toNat % 64 < 256) with ⟨d, hd⟩
  rcases exists_byte (by omega : 0x80 + char.toNat / 64 % 64 < 256) with ⟨c, hc⟩
  have hdFits := within_continuation hd
  have hcFits := within_continuation hc
  rcases Nat.lt_or_ge char.toNat 0x80 with hone | hone
  · rcases exists_byte (by omega : char.toNat < 256) with ⟨a, ha⟩
    refine ⟨a, [], ⟨a.toNat, []⟩, encoding_one hone ha, ?_, trivial, ha⟩
    rw [lead?_eq, if_pos (by omega)]
  rcases Nat.lt_or_ge char.toNat 0x800 with htwo | htwo
  · rcases exists_byte (by omega : 0xC0 + char.toNat / 64 < 256) with ⟨a, ha⟩
    have hnumber : a.toNat % 32 * 64 + d.toNat % 64 = char.toNat := by omega
    refine ⟨a, [d], ⟨a.toNat % 32, [continuation]⟩, encoding_two hone htwo ha hd, ?_,
      ⟨hdFits, trivial⟩, hnumber⟩
    rw [lead?_eq, if_neg (by omega), if_neg (by omega), if_pos (by omega)]
  rcases Nat.lt_or_ge char.toNat 0x10000 with hthree | hthree
  · rcases exists_byte (by omega : 0xE0 + char.toNat / 4096 < 256) with ⟨a, ha⟩
    rcases lead?_three htwo hthree ha hc with ⟨low, high, hlead, hcBounds⟩
    have hnumber : (char.toNat / 4096 * 64 + c.toNat % 64) * 64 + d.toNat % 64 = char.toNat := by
      omega
    exact ⟨a, [c, d], _, encoding_three htwo hthree ha hc hd, hlead,
      ⟨hcBounds, hdFits, trivial⟩, hnumber⟩
  · rcases exists_byte (by omega : 0xF0 + char.toNat / 262144 < 256) with ⟨a, ha⟩
    rcases exists_byte (by omega : 0x80 + char.toNat / 4096 % 64 < 256) with ⟨b, hb⟩
    rcases lead?_four hthree ha hb with ⟨low, high, hlead, hbBounds⟩
    have hnumber : ((char.toNat / 262144 * 64 + b.toNat % 64) * 64 + c.toNat % 64) * 64 +
        d.toNat % 64 = char.toNat := by
      omega
    exact ⟨a, [b, c, d], _, encoding_four hthree ha hb hc hd, hlead,
      ⟨hbBounds, hcFits, hdFits, trivial⟩, hnumber⟩

/-! ### Characters of the table -/

section Characters

variable {a low high : UInt8} {value : Nat} {trail : List UInt8}

theorem exists_char {number : Nat} (h : number.isValidChar) : ∃ char : Char, char.toNat = number :=
  ⟨Char.ofNat number, by rw [Char.ofNat, dif_pos h]; rfl⟩

theorem exists_char_two (ha : a.toNat = 0xC0 + value) (hvalue : 2 ≤ value) (hvalue' : value < 32)
    (h : Fits [continuation] trail) :
    ∃ char, String.utf8EncodeChar char = a :: trail ∧ char.toNat = continued value trail := by
  rcases exists_cons_of_fits h with ⟨b, rest, rfl, hb, hrest⟩
  rw [eq_nil_of_fits hrest]
  simp only [UInt8.reduceToNat] at hb
  have hnumber : continued value [b] = value * 64 + b.toNat % 64 := rfl
  rcases exists_char (Or.inl (by omega) : (continued value [b]).isValidChar) with ⟨char, hchar⟩
  exact ⟨char, encoding_two (by omega) (by omega) (by omega) (by omega), hchar⟩

/-- Three bytes are a character, if the bounds of the second exclude shorter forms
    and surrogates. -/
theorem exists_char_three (ha : a.toNat = 0xE0 + value) (hvalue : value < 16)
    (hlow : 0x80 ≤ low.toNat) (hhigh : high.toNat ≤ 0xBF)
    (hshort : value = 0 → 0xA0 ≤ low.toNat) (hsurrogate : value = 0xD → high.toNat ≤ 0x9F)
    (h : Fits [(low, high), continuation] trail) :
    ∃ char, String.utf8EncodeChar char = a :: trail ∧ char.toNat = continued value trail := by
  rcases exists_cons_of_fits h with ⟨b, rest, rfl, hb, hrest⟩
  rcases exists_cons_of_fits hrest with ⟨c, last, rfl, hc, hlast⟩
  rw [eq_nil_of_fits hlast]
  simp only [UInt8.reduceToNat] at hc
  have hnumber : continued value [b, c] = (value * 64 + b.toNat % 64) * 64 + c.toNat % 64 := rfl
  have hvalid : (continued value [b, c]).isValidChar := by
    rcases Nat.lt_or_ge value 0xE with hbelow | habove
    · exact Or.inl (by omega)
    · exact Or.inr ⟨by omega, by omega⟩
  rcases exists_char hvalid with ⟨char, hchar⟩
  exact ⟨char, encoding_three (by omega) (by omega) (by omega) (by omega) (by omega), hchar⟩

/-- Four bytes are a character, if the bounds of the second exclude shorter forms
    and values past the last character. -/
theorem exists_char_four (ha : a.toNat = 0xF0 + value) (hvalue : value < 5)
    (hlow : 0x80 ≤ low.toNat) (hhigh : high.toNat ≤ 0xBF)
    (hshort : value = 0 → 0x90 ≤ low.toNat) (hlast : value = 4 → high.toNat ≤ 0x8F)
    (h : Fits [(low, high), continuation, continuation] trail) :
    ∃ char, String.utf8EncodeChar char = a :: trail ∧ char.toNat = continued value trail := by
  rcases exists_cons_of_fits h with ⟨b, rest, rfl, hb, hrest⟩
  rcases exists_cons_of_fits hrest with ⟨c, rest, rfl, hc, hrest⟩
  rcases exists_cons_of_fits hrest with ⟨d, rest, rfl, hd, hrest⟩
  rw [eq_nil_of_fits hrest]
  simp only [UInt8.reduceToNat] at hc hd
  have hnumber : continued value [b, c, d] =
      ((value * 64 + b.toNat % 64) * 64 + c.toNat % 64) * 64 + d.toNat % 64 := rfl
  have hvalid : (continued value [b, c, d]).isValidChar := Or.inr ⟨by omega, by omega⟩
  rcases exists_char hvalid with ⟨char, hchar⟩
  exact ⟨char, encoding_four (by omega) (by omega) (by omega) (by omega) (by omega), hchar⟩

end Characters

/-- Bytes as the table has them encode a character, the one whose bits they
    hold. -/
theorem exists_char_of_lead {byte : UInt8} {lead : Lead} {trail : List UInt8}
    (hlead : lead? byte = some lead) (hfits : Fits lead.trail trail) :
    ∃ char, String.utf8EncodeChar char = byte :: trail ∧
      char.toNat = continued lead.value trail := by
  rw [lead?_eq] at hlead
  by_cases hone : byte.toNat < 0x80
  · rw [if_pos hone, Option.some.injEq] at hlead
    subst hlead
    rw [eq_nil_of_fits hfits]
    rcases exists_char (Or.inl (by omega) : byte.toNat.isValidChar) with ⟨char, hchar⟩
    exact ⟨char, encoding_one (by omega) hchar.symm, hchar⟩
  rw [if_neg hone] at hlead
  by_cases hnone : byte.toNat < 0xC2
  · rw [if_pos hnone] at hlead
    exact absurd hlead (Option.some_ne_none lead).symm
  rw [if_neg hnone] at hlead
  by_cases htwo : byte.toNat < 0xE0
  · rw [if_pos htwo, Option.some.injEq] at hlead
    subst hlead
    dsimp only at hfits ⊢
    exact exists_char_two (by omega) (by omega) (by omega) hfits
  rw [if_neg htwo] at hlead
  by_cases hshort : byte.toNat = 0xE0
  · rw [if_pos hshort, Option.some.injEq] at hlead
    subst hlead
    exact exists_char_three hshort (by decide) (by decide) (by decide) (by decide) (by decide) hfits
  rw [if_neg hshort] at hlead
  by_cases hsurrogate : byte.toNat = 0xED
  · rw [if_pos hsurrogate, Option.some.injEq] at hlead
    subst hlead
    exact exists_char_three hsurrogate (by decide) (by decide) (by decide) (by decide) (by decide)
      hfits
  rw [if_neg hsurrogate] at hlead
  by_cases hthree : byte.toNat < 0xF0
  · rw [if_pos hthree, Option.some.injEq] at hlead
    subst hlead
    dsimp only at hfits ⊢
    exact exists_char_three (by omega) (by omega) (by decide) (by decide)
      (fun h => absurd h (by omega)) (fun h => absurd h (by omega)) hfits
  rw [if_neg hthree] at hlead
  by_cases hshort' : byte.toNat = 0xF0
  · rw [if_pos hshort', Option.some.injEq] at hlead
    subst hlead
    exact exists_char_four hshort' (by decide) (by decide) (by decide) (by decide) (by decide) hfits
  rw [if_neg hshort'] at hlead
  by_cases hfour : byte.toNat < 0xF4
  · rw [if_pos hfour, Option.some.injEq] at hlead
    subst hlead
    dsimp only at hfits ⊢
    exact exists_char_four (by omega) (by omega) (by decide) (by decide)
      (fun h => absurd h (by omega)) (fun h => absurd h (by omega)) hfits
  rw [if_neg hfour] at hlead
  by_cases hlast : byte.toNat = 0xF4
  · rw [if_pos hlast, Option.some.injEq] at hlead
    subst hlead
    exact exists_char_four hlast (by decide) (by decide) (by decide) (by decide) (by decide) hfits
  rw [if_neg hlast] at hlead
  exact absurd hlead (Option.some_ne_none lead).symm

-- The lowest bytes fit, if no bounds exclude everything.
theorem fits_map_fst {bounds : List Bounds} (h : ∀ bound ∈ bounds, bound.1 ≤ bound.2) :
    Fits bounds (bounds.map Prod.fst) := by
  induction bounds with
  | nil => trivial
  | cons bound bounds ih =>
      have hbound := UInt8.le_iff_toNat_le.mp (h bound List.mem_cons_self)
      exact ⟨⟨Nat.le_refl _, hbound⟩,
        ih fun other hother => h other (List.mem_cons_of_mem bound hother)⟩

/-- No row of the table is without bytes that fit it. -/
theorem exists_fits_of_lead {byte : UInt8} {lead : Lead} (hlead : lead? byte = some lead) :
    ∃ trail, Fits lead.trail trail := by
  have hrows : (List.range 256).all (fun number => (lead? (UInt8.ofNat number)).all fun lead =>
      lead.trail.all fun bound => bound.1 ≤ bound.2) = true := by
    decide +kernel
  have hrow := List.all_eq_true.mp hrows byte.toNat (List.mem_range.mpr byte.toNat_lt)
  rw [UInt8.ofNat_toNat, hlead, Option.all_some, List.all_eq_true] at hrow
  exact ⟨lead.trail.map Prod.fst,
    fits_map_fst fun bound hmem => decide_eq_true_iff.mp (hrow bound hmem)⟩

/-! ### Following bytes -/

theorem follow_of_fits {bounds : List Bounds} {trail : List UInt8} (h : Fits bounds trail)
    (value taken : Nat) (rest : List UInt8) :
    follow value taken bounds (trail ++ rest) = .scalar (Char.ofNat (continued value trail)) := by
  induction bounds generalizing trail value taken with
  | nil =>
      rw [eq_nil_of_fits h]
      rfl
  | cons bound bounds ih =>
      rcases exists_cons_of_fits h with ⟨byte, trail, rfl, ⟨hlow, hhigh⟩, hfits⟩
      rw [List.cons_append, follow,
        if_pos ⟨UInt8.le_iff_toNat_le.mpr hlow, UInt8.le_iff_toNat_le.mpr hhigh⟩]
      exact ih hfits _ _

/-- What is found behind a first byte, if the bytes behind it must fit the bounds:
    they do, or they end too early, or one of them does not fit. -/
inductive Found (value taken : Nat) (bounds : List Bounds) : List UInt8 → Piece → Prop
  | scalar (trail rest : List UInt8) (fits : Fits bounds trail) :
    Found value taken bounds (trail ++ rest) (.scalar (Char.ofNat (continued value trail)))
  | cut {bytes missing : List UInt8} (some_missing : missing ≠ [])
    (fits : Fits bounds (bytes ++ missing)) :
    Found value taken bounds bytes (.cut (taken + bytes.length))
  | malformed {missing : List UInt8} (trail : List UInt8) (byte : UInt8) (rest : List UInt8)
    (some_missing : missing ≠ []) (fits : Fits bounds (trail ++ missing))
    (ends : ∀ other, ¬ Fits bounds (trail ++ byte :: other)) :
    Found value taken bounds (trail ++ byte :: rest) (.malformed (taken + trail.length))

-- The induction is on the bounds. A byte that fits moves everything on by one, and the first that
-- does not, or the end, decides. That some bytes fit is needed for those that are missing.
theorem follow_found {bounds : List Bounds} (hfull : ∃ trail, Fits bounds trail)
    (value taken : Nat) (bytes : List UInt8) :
    Found value taken bounds bytes (follow value taken bounds bytes) := by
  induction bounds generalizing value taken bytes with
  | nil => exact .scalar [] bytes (show Fits [] [] from trivial)
  | cons bound bounds ih =>
      rcases bound with ⟨low, high⟩
      rcases hfull with ⟨full, hfull⟩
      rcases exists_cons_of_fits hfull with ⟨first, others, rfl, hfirst, hothers⟩
      cases bytes with
      | nil => exact .cut (List.cons_ne_nil first others) hfull
      | cons byte bytes =>
          by_cases hwithin : low ≤ byte ∧ byte ≤ high
          · rw [follow, if_pos hwithin]
            rw [UInt8.le_iff_toNat_le, UInt8.le_iff_toNat_le] at hwithin
            have hrest := ih ⟨others, hothers⟩ (value * 64 + byte.toNat % 64) (taken + 1) bytes
            generalize follow _ _ bounds bytes = piece at hrest ⊢
            cases hrest with
            | scalar trail rest fits => exact .scalar (byte :: trail) rest ⟨hwithin, fits⟩
            | cut some_missing fits =>
                rw [Nat.add_assoc, Nat.add_comm 1]
                exact .cut some_missing ⟨hwithin, fits⟩
            | malformed trail other rest some_missing fits ends =>
                rw [Nat.add_assoc, Nat.add_comm 1]
                exact .malformed (byte :: trail) other rest some_missing ⟨hwithin, fits⟩
                  fun more hmore => ends more hmore.2
          · rw [follow, if_neg hwithin]
            rw [UInt8.le_iff_toNat_le, UInt8.le_iff_toNat_le] at hwithin
            exact .malformed [] byte bytes (List.cons_ne_nil first others) hfull
              fun more hmore => hwithin hmore.1

/-! ### First pieces -/

/-- The first `width` bytes are a malformed part that is as long as it can be. It
    is the front of a character, or a single byte that begins none, and no
    character begins with it and the byte behind it. -/
structure MalformedPart (bytes : List UInt8) (width : Nat) : Prop where
  positive : 1 ≤ width
  inBytes : width ≤ bytes.length
  begun : Incomplete (bytes.take width) ∨ width = 1 ∧ BeginsNone (bytes.take 1)
  ends : BeginsNone (bytes.take (width + 1))

/-- What the piece at the front of some bytes says of them. -/
inductive Begins : List UInt8 → Piece → Prop
  | scalar (char : Char) (rest : List UInt8) :
    Begins (String.utf8EncodeChar char ++ rest) (.scalar char)
  | cut {bytes : List UInt8} (incomplete : Incomplete bytes) : Begins bytes (.cut bytes.length)
  | malformed {bytes : List UInt8} {width : Nat} (part : MalformedPart bytes width) :
    Begins bytes (.malformed width)

/-- The piece at an encoding is the character. -/
theorem firstPiece_of_encoding {char : Char} {byte : UInt8} {trail : List UInt8}
    (h : String.utf8EncodeChar char = byte :: trail) (rest : List UInt8) :
    firstPiece byte (trail ++ rest) = .scalar char := by
  rcases exists_lead_of_char char with ⟨first, others, lead, hencoding, hlead, hfits, hvalue⟩
  rw [h, List.cons.injEq] at hencoding
  rcases hencoding with ⟨rfl, rfl⟩
  unfold firstPiece
  rw [hlead]
  dsimp only
  rw [follow_of_fits hfits, hvalue, Char.ofNat_toNat]

-- Bytes that begin a character have a row in the table, and the others fit it.
theorem fits_of_encoding {char : Char} {byte : UInt8} {lead : Lead} {trail : List UInt8}
    (hlead : lead? byte = some lead) (h : String.utf8EncodeChar char = byte :: trail) :
    Fits lead.trail trail := by
  rcases exists_lead_of_char char with ⟨first, others, lead', hencoding, hlead', hfits, -⟩
  rw [h, List.cons.injEq] at hencoding
  rcases hencoding with ⟨rfl, rfl⟩
  rw [hlead, Option.some.injEq] at hlead'
  rw [hlead']
  exact hfits

theorem beginsNone_of_lead? {byte : UInt8} (hlead : lead? byte = none) (bytes : List UInt8) :
    BeginsNone (byte :: bytes) := by
  intro char missing h
  rcases exists_lead_of_char char with ⟨first, others, lead, hencoding, hlead', -, -⟩
  rw [hencoding, List.cons_append, List.cons.injEq] at h
  rw [h.1, hlead'] at hlead
  exact absurd hlead (Option.some_ne_none lead)

theorem incomplete_of_fits {byte : UInt8} {lead : Lead} {trail missing : List UInt8}
    (hlead : lead? byte = some lead) (hmissing : missing ≠ [])
    (hfits : Fits lead.trail (trail ++ missing)) : Incomplete (byte :: trail) := by
  rcases exists_char_of_lead hlead hfits with ⟨char, hencoding, -⟩
  exact ⟨List.cons_ne_nil _ _, char, missing, hmissing, hencoding.symm⟩

theorem firstPiece_begins (byte : UInt8) (bytes : List UInt8) :
    Begins (byte :: bytes) (firstPiece byte bytes) := by
  unfold firstPiece
  rcases hlead : lead? byte with _ | lead
  · refine .malformed ⟨Nat.le_refl 1, ?_, Or.inr ⟨rfl, ?_⟩, ?_⟩
    · rw [List.length_cons]
      omega
    · exact beginsNone_of_lead? hlead (bytes.take 0)
    · exact beginsNone_of_lead? hlead (bytes.take 1)
  · have hfound := follow_found (exists_fits_of_lead hlead) lead.value 1 bytes
    dsimp only
    generalize follow lead.value 1 lead.trail bytes = piece at hfound ⊢
    cases hfound with
    | scalar trail rest fits =>
        rcases exists_char_of_lead hlead fits with ⟨char, hencoding, hvalue⟩
        rw [← hvalue, Char.ofNat_toNat, ← List.cons_append, ← hencoding]
        exact .scalar char rest
    | cut some_missing fits =>
        rw [Nat.add_comm, ← List.length_cons]
        exact .cut (incomplete_of_fits hlead some_missing fits)
    | malformed trail other rest some_missing fits ends =>
        have hfront : (byte :: (trail ++ other :: rest)).take (1 + trail.length) =
            byte :: trail := by
          rw [Nat.add_comm, List.take_succ_cons, List.take_left]
        refine .malformed ⟨Nat.le_add_right 1 _, ?_, Or.inl ?_, ?_⟩
        · rw [List.length_cons, List.length_append]
          omega
        · rw [hfront]
          exact incomplete_of_fits hlead some_missing fits
        · have hlonger : (byte :: (trail ++ other :: rest)).take (1 + trail.length + 1) =
              byte :: (trail ++ [other]) := by
            rw [Nat.add_comm 1, List.take_succ_cons, List.take_append, Nat.add_sub_cancel_left,
              List.take_of_length_le (Nat.le_succ _)]
            rfl
          rw [hlonger]
          intro char missing h
          rw [List.cons_append, List.append_assoc] at h
          exact ends _ (fits_of_encoding hlead h.symm)

theorem length_lt_of_incomplete {bytes : List UInt8} (h : Incomplete bytes) : bytes.length < 4 := by
  rcases h with ⟨-, char, missing, hmissing, hencoding⟩
  have hlength := congrArg List.length hencoding
  have hsome := List.length_pos_iff.mpr hmissing
  have hsize := char.utf8Size_le_four
  rw [List.length_append, String.length_utf8EncodeChar] at hlength
  omega

theorem MalformedPart.le_three {bytes : List UInt8} {width : Nat} (h : MalformedPart bytes width) :
    width ≤ 3 := by
  rcases h.begun with hincomplete | ⟨hone, -⟩
  · have hlength := length_lt_of_incomplete hincomplete
    rw [List.length_take, Nat.min_eq_left h.inBytes] at hlength
    omega
  · omega

/-- A part that a byte ends is not one that the end of the bytes cuts off. -/
theorem MalformedPart.not_incomplete {bytes : List UInt8} {width : Nat}
    (h : MalformedPart bytes width) : ¬ Incomplete bytes := by
  intro hincomplete
  rcases hincomplete with ⟨-, char, missing, -, hencoding⟩
  refine h.ends char (bytes.drop (width + 1) ++ missing) ?_
  rw [← List.append_assoc, List.take_append_drop, hencoding]

end Utf8

end SymbolLocator
