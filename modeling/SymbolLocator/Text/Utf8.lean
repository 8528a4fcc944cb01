/-!
# UTF-8 Text

Two readings of a run of bytes as text: one that refuses ill-formed bytes and
says where they are, and one that replaces them.

Both readings are views of the same list. `pieces` cuts a run of bytes into
Unicode scalar values and ill-formed parts. A part is maximal: it is the
longest run that could still have begun a scalar value, or a single byte where
none could. The strict reading stops at the first part that is not a scalar
value; the lossy reading shows every such part as one replacement character.

The shape of a scalar value's bytes is one table, `lead?`. It gives the range
each following byte must lie in, and it is there that overlong forms,
surrogates and values past the last scalar value are excluded.

## Main definitions

* `Utf8.lead?`: What the first byte of a scalar value says about the rest.
* `Utf8.Piece`: A scalar value, or a part that is none.
* `Utf8.pieces`: The pieces of a run of bytes, in order.
* `Utf8.check`: The text of well-formed bytes, or where they go wrong.
* `Utf8.lossy`: The text of any bytes, with replacement characters.

## Theorems

* `Utf8.piecesFrom_eq_drop`: Skipping bytes is reading from further on.
* `Utf8.pieces_cons`: The first piece, and then the pieces of what follows it.
-/

namespace SymbolLocator

namespace Utf8

/-- Inclusive bounds of a byte. -/
abbrev Bounds := UInt8 × UInt8

/-- The bounds of a continuation byte with nothing excluded. -/
def continuation : Bounds := (0x80, 0xBF)

/-- What the first byte of a scalar value says about the rest of it. -/
structure Lead where
  /-- The bits of the scalar value that the first byte holds. -/
  value : Nat
  /-- The bounds of each byte that follows, in order. -/
  trail : List Bounds

/-- The table of first bytes, or `none` for a byte that begins no scalar
    value. The second byte is bounded more tightly after `E0` and `F0`, where
    a shorter form exists, after `ED`, where the surrogates lie, and after
    `F4`, where the scalar values end. -/
def lead? (byte : UInt8) : Option Lead :=
  if byte < 0x80 then some ⟨byte.toNat, []⟩
  else if byte < 0xC2 then none
  else if byte < 0xE0 then some ⟨byte.toNat % 32, [continuation]⟩
  else if byte = 0xE0 then some ⟨0x0, [(0xA0, 0xBF), continuation]⟩
  else if byte = 0xED then some ⟨0xD, [(0x80, 0x9F), continuation]⟩
  else if byte < 0xF0 then some ⟨byte.toNat % 16, [continuation, continuation]⟩
  else if byte = 0xF0 then some ⟨0x0, [(0x90, 0xBF), continuation, continuation]⟩
  else if byte < 0xF4 then some ⟨byte.toNat % 8, [continuation, continuation, continuation]⟩
  else if byte = 0xF4 then some ⟨0x4, [(0x80, 0x8F), continuation, continuation]⟩
  else none

/-- A part of a run of bytes. -/
inductive Piece where
  /-- The bytes of one scalar value. -/
  | scalar (char : Char)
  /-- A maximal ill-formed part, of `width` bytes, that another byte ends. -/
  | malformed (width : Nat)
  /-- The first `width` bytes of a scalar value, ended by the end of input. -/
  | cut (width : Nat)
deriving DecidableEq, Repr

/-- The number of bytes a piece covers. -/
def Piece.width : Piece → Nat
  | scalar char => char.utf8Size
  | malformed width => width
  | cut width => width

/-- The character that stands for ill-formed bytes. -/
def replacement : Char := '\uFFFD'

/-- The character a piece is shown as in lossy text. -/
def Piece.shown : Piece → Char
  | scalar char => char
  | malformed _ => replacement
  | cut _ => replacement

/-- The piece that begins with `taken` bytes holding `value`, if `bounds` must
    hold of the bytes that follow and `bytes` are those that do follow. -/
def follow (value taken : Nat) : (bounds : List Bounds) → (bytes : List UInt8) → Piece
  | [], _ => .scalar (Char.ofNat value)
  | _ :: _, [] => .cut taken
  | (low, high) :: bounds, byte :: bytes =>
    if low ≤ byte ∧ byte ≤ high then
      follow (value * 64 + byte.toNat % 64) (taken + 1) bounds bytes
    else .malformed taken

/-- The piece at the front of the bytes `byte :: bytes`. -/
def firstPiece (byte : UInt8) (bytes : List UInt8) : Piece :=
  match lead? byte with
  | none => .malformed 1
  | some lead => follow lead.value 1 lead.trail bytes

/-- The pieces of the bytes that are left after `skip` of them, put onto the
    pieces already found, last first. -/
def piecesOnto (found : List Piece) : (skip : Nat) → List UInt8 → List Piece
  | _, [] => found
  | skip + 1, _ :: bytes => piecesOnto found skip bytes
  | 0, byte :: bytes =>
    let piece := firstPiece byte bytes
    piecesOnto (piece :: found) (piece.width - 1) bytes

/-- The pieces of the bytes that are left after `skip` of them. -/
def piecesFrom (skip : Nat) (bytes : List UInt8) : List Piece :=
  (piecesOnto [] skip bytes).reverse

/-- The pieces of a run of bytes, in order. -/
def pieces (bytes : List UInt8) : List Piece := piecesFrom 0 bytes

/-- Where and how a run of bytes stops being well-formed. -/
structure Fault where
  /-- The length of the longest well-formed part at the front. -/
  validUpTo : Nat
  /-- The length of the ill-formed part behind it, or `none` if the bytes end
      inside a scalar value. -/
  errorLength : Option Nat
deriving DecidableEq, Repr

/-- Read pieces as text, behind `text`, which `validUpTo` bytes gave. -/
def checkPieces (text : String) (validUpTo : Nat) : List Piece → Except Fault String
  | [] => .ok text
  | .scalar char :: rest => checkPieces (text.push char) (validUpTo + char.utf8Size) rest
  | .malformed width :: _ => .error ⟨validUpTo, some width⟩
  | .cut _ :: _ => .error ⟨validUpTo, none⟩

/-- The text of a run of bytes, if all of it is well-formed. -/
def check (bytes : List UInt8) : Except Fault String := checkPieces "" 0 (pieces bytes)

/-- The text of a run of bytes, with a replacement character for every
    ill-formed part. -/
def lossy (bytes : List UInt8) : String := String.ofList ((pieces bytes).map Piece.shown)

theorem piecesOnto_eq (found : List Piece) (skip : Nat) (bytes : List UInt8) :
    piecesOnto found skip bytes = (piecesFrom skip bytes).reverse ++ found := by
  induction bytes generalizing found skip with
  | nil => simp [piecesFrom, piecesOnto]
  | cons byte bytes ih =>
      cases skip with
      | zero =>
          simp only [piecesFrom, piecesOnto, List.reverse_reverse]
          rw [ih, ih [firstPiece byte bytes]]
          simp
      | succ skip =>
          simp only [piecesFrom, piecesOnto, List.reverse_reverse]
          rw [ih, ih []]
          simp

theorem piecesFrom_eq_drop (skip : Nat) (bytes : List UInt8) :
    piecesFrom skip bytes = pieces (bytes.drop skip) := by
  induction bytes generalizing skip with
  | nil => simp [pieces, piecesFrom, piecesOnto]
  | cons byte bytes ih =>
      cases skip with
      | zero => rfl
      | succ skip => rw [List.drop_succ_cons, ← ih, piecesFrom, piecesOnto, piecesFrom]

@[simp] theorem pieces_nil : pieces [] = [] := rfl

theorem pieces_cons (byte : UInt8) (bytes : List UInt8) :
    pieces (byte :: bytes) =
      firstPiece byte bytes :: pieces (bytes.drop ((firstPiece byte bytes).width - 1)) := by
  rw [← piecesFrom_eq_drop, pieces, piecesFrom, piecesOnto]
  simp [piecesOnto_eq]

end Utf8

end SymbolLocator
