import SymbolLocator.CodeView.Path
import SymbolLocator.Proofs.PathWindow
import SymbolLocator.Proofs.ScalarValues

/-!
# Strict and Lossy Text

How the two readings of the same bytes as text are related.

Bytes are well-formed if they are those of some text. Then the strict reading is
that text, and the lossy reading is the same. Otherwise the strict reading says
where the longest well-formed front ends. The lossy reading shows the text up to
there and one replacement character. If the bytes end inside a character, that
is all. If not, the strict reading also says how long the malformed part is, and
the lossy reading goes on behind it, as if the bytes began there.

The law is about any bytes. It holds of the name in a path and of the name of a
section because both are shown by the same two readings, each of the bytes in
front of the first NUL. They differ where there is no NUL. The name of a section
is then all of its bytes, but a path that does not end has no name.

Any bytes are the encoding of some characters with a rest behind it that begins
with none (`Utf8.reading`). The pieces of the bytes are then those characters
and the pieces of the rest, and both readings go through the pieces from front
to back. That the front is the longest needs more than the cut: another
well-formed front would have pieces too, and they would be the same ones.

## Main definitions

* `Utf8.textBytes`, `Utf8.WellFormed`: The bytes of a text, and bytes of some.
* `Utf8.Reading`: Bytes as characters, and what stands behind them.
* `Utf8.FaultIn`: A fault says where and how bytes stop being well-formed.
* `Utf8.ViewsAgree`: A strict and a lossy reading of the same bytes agree.
* `UpToNul`: The bytes in front of the first NUL, or all of them.
* `CutAtNulIfAny`: The bytes in front of the first NUL, or none of them.

## Theorems

* `Utf8.pieces_encode_append`: The pieces of characters and of what follows.
* `Utf8.check_encode_append`, `Utf8.lossy_encode_append`: The two readings of
  characters and of what follows.
* `Utf8.length_le_of_wellFormed`: No well-formed front is longer.
* `Utf8.viewsAgree`: The readings of any bytes agree.
* `text_views_agree`: Those of paths and of section names.
-/

namespace SymbolLocator

namespace Utf8

/-- The bytes of a text. -/
def textBytes (text : String) : List UInt8 := text.toByteArray.data.toList

/-- The bytes are those of some text. -/
def WellFormed (bytes : List UInt8) : Prop := ∃ text, textBytes text = bytes

/-- The bytes of characters, one after the other. -/
def encode (chars : List Char) : List UInt8 := chars.flatMap String.utf8EncodeChar

theorem textBytes_ofList (chars : List Char) : textBytes (String.ofList chars) = encode chars := by
  rw [textBytes, String.toByteArray_ofList, List.utf8Encode, List.data_toByteArray, encode]

theorem textBytes_eq (text : String) : textBytes text = encode text.toList := by
  rw [← textBytes_ofList, String.ofList_toList]

theorem wellFormed_encode (chars : List Char) : WellFormed (encode chars) :=
  ⟨String.ofList chars, textBytes_ofList chars⟩

/-! ### Pieces -/

theorem pieces_encode_append (chars : List Char) (rest : List UInt8) :
    pieces (encode chars ++ rest) = chars.map .scalar ++ pieces rest := by
  induction chars with
  | nil => rfl
  | cons char chars ih =>
      rcases exists_lead_of_char char with ⟨byte, trail, -, hencoding, -⟩
      have hwidth : trail.length + 1 = char.utf8Size := by
        rw [← String.length_utf8EncodeChar, hencoding, List.length_cons]
      rw [encode, List.flatMap_cons, hencoding, ← encode, List.cons_append, List.cons_append,
        List.append_assoc, pieces_cons, firstPiece_of_encoding hencoding, Piece.width, ← hwidth,
        Nat.add_sub_cancel, List.drop_left, ih]
      rfl

/-- Bytes as the encoding of characters, with nothing behind it, or the front of
    another character, or a malformed part. -/
inductive Reading : List UInt8 → Prop
  | whole (chars : List Char) : Reading (encode chars)
  | cut (chars : List Char) {rest : List UInt8} (incomplete : Incomplete rest)
    (left : pieces rest = [.cut rest.length]) : Reading (encode chars ++ rest)
  | malformed (chars : List Char) {rest : List UInt8} {width : Nat}
    (part : MalformedPart rest width)
    (left : pieces rest = .malformed width :: pieces (rest.drop width)) :
    Reading (encode chars ++ rest)

theorem Reading.cons {bytes : List UInt8} (h : Reading bytes) (char : Char) :
    Reading (String.utf8EncodeChar char ++ bytes) := by
  cases h with
  | whole chars => exact .whole (char :: chars)
  | cut chars incomplete left =>
      rw [← List.append_assoc]
      exact .cut (char :: chars) incomplete left
  | malformed chars part left =>
      rw [← List.append_assoc]
      exact .malformed (char :: chars) part left

-- A piece that is no character has at least one byte, so skipping one less behind the first byte
-- is skipping the piece.
theorem pieces_eq_cons {byte : UInt8} {bytes : List UInt8}
    (hpos : 1 ≤ (firstPiece byte bytes).width) :
    pieces (byte :: bytes) = firstPiece byte bytes ::
      pieces ((byte :: bytes).drop (firstPiece byte bytes).width) := by
  rcases Nat.exists_eq_succ_of_ne_zero (Nat.ne_of_gt hpos) with ⟨width, hwidth⟩
  rw [pieces_cons, hwidth, Nat.succ_sub_one, List.drop_succ_cons]

/-- Any bytes can be read so. The induction is on their number, and a character
    at the front leaves fewer. -/
theorem reading (bytes : List UInt8) : Reading bytes := by
  induction hlength : bytes.length using Nat.strong_induction_on generalizing bytes with
  | _ length ih =>
      subst hlength
      cases bytes with
      | nil => exact .whole []
      | cons byte bytes =>
          have hbegins := firstPiece_begins byte bytes
          have hpieces := @pieces_eq_cons byte bytes
          generalize firstPiece byte bytes = piece at hbegins hpieces
          generalize byte :: bytes = whole at hbegins hpieces ih ⊢
          cases hbegins with
          | scalar char rest =>
              refine (ih rest.length ?_ rest rfl).cons char
              have hsize := char.utf8Size_pos
              rw [List.length_append, String.length_utf8EncodeChar]
              omega
          | cut incomplete =>
              refine .cut [] incomplete ?_
              rw [hpieces (List.length_pos_iff.mpr incomplete.1), Piece.width,
                List.drop_length, pieces_nil]
          | malformed part => exact .malformed [] part (hpieces part.positive)

/-! ### Longest fronts -/

-- Both lists begin with characters, and in one of them something else follows. The induction is
-- on the characters of the other.
theorem isPrefix_of_map_scalar {others chars : List Char} {piece : Piece} {left right : List Piece}
    (hpiece : ∀ char, piece ≠ .scalar char)
    (h : others.map Piece.scalar ++ left = chars.map Piece.scalar ++ piece :: right) :
    others <+: chars := by
  induction others generalizing chars with
  | nil => exact List.nil_prefix
  | cons other others ih =>
      cases chars with
      | nil =>
          rw [List.map_nil, List.nil_append, List.map_cons, List.cons_append, List.cons.injEq] at h
          exact absurd h.1.symm (hpiece other)
      | cons char chars =>
          rw [List.map_cons, List.map_cons, List.cons_append, List.cons_append, List.cons.injEq,
            Piece.scalar.injEq] at h
          rw [h.1]
          exact (List.prefix_cons_inj char).mpr (ih h.2)

/-- No well-formed front of the bytes is longer than the characters in front of
    the first piece that is none. -/
theorem length_le_of_wellFormed {chars : List Char} {rest : List UInt8} {piece : Piece}
    {right : List Piece} (hpieces : pieces rest = piece :: right)
    (hpiece : ∀ char, piece ≠ .scalar char) {length : Nat}
    (hle : length ≤ (encode chars ++ rest).length)
    (h : WellFormed ((encode chars ++ rest).take length)) : length ≤ (encode chars).length := by
  rcases h with ⟨text, htext⟩
  rw [textBytes_eq] at htext
  have hwhole : encode text.toList ++ (encode chars ++ rest).drop length =
      encode chars ++ rest := by
    rw [htext, List.take_append_drop]
  have hboth := congrArg pieces hwhole
  rw [pieces_encode_append, pieces_encode_append, hpieces] at hboth
  -- The characters of the other front are among those of this one, and so are their bytes.
  rcases isPrefix_of_map_scalar hpiece hboth with ⟨more, hmore⟩
  have hlength := congrArg List.length htext
  rw [List.length_take, Nat.min_eq_left hle] at hlength
  rw [← hlength, ← hmore, encode, encode, List.flatMap_append, List.length_append]
  exact Nat.le_add_right _ _

/-! ### The two readings -/

theorem checkPieces_append (chars : List Char) (text : String) (validUpTo : Nat)
    (rest : List Piece) :
    checkPieces text validUpTo (chars.map .scalar ++ rest) =
      checkPieces (text ++ String.ofList chars) (validUpTo + (encode chars).length) rest := by
  induction chars generalizing text validUpTo with
  | nil =>
      have htext : text ++ String.ofList [] = text := by
        rw [← String.toList_inj]
        simp
      rw [htext]
      rfl
  | cons char chars ih =>
      have hlength : (encode (char :: chars)).length = char.utf8Size + (encode chars).length := by
        rw [encode, List.flatMap_cons, List.length_append, String.length_utf8EncodeChar, encode]
      have htext : text.push char ++ String.ofList chars =
          text ++ String.ofList (char :: chars) := by
        rw [← String.toList_inj]
        simp
      rw [List.map_cons, List.cons_append, checkPieces, ih, htext, hlength, Nat.add_assoc]

theorem check_encode_append (chars : List Char) (rest : List UInt8) :
    check (encode chars ++ rest) =
      checkPieces (String.ofList chars) (encode chars).length (pieces rest) := by
  rw [check, pieces_encode_append, checkPieces_append, Nat.zero_add]
  congr 1

theorem check_encode (chars : List Char) : check (encode chars) = .ok (String.ofList chars) := by
  have h := check_encode_append chars []
  rw [List.append_nil] at h
  exact h

theorem lossy_encode_append (chars : List Char) (rest : List UInt8) :
    lossy (encode chars ++ rest) = String.ofList chars ++ lossy rest := by
  have hshown : (chars.map Piece.scalar).map Piece.shown = chars := by
    rw [List.map_map]
    exact List.map_id chars
  rw [lossy, pieces_encode_append, List.map_append, hshown, String.ofList_append, lossy]

theorem lossy_encode (chars : List Char) : lossy (encode chars) = String.ofList chars := by
  have h := lossy_encode_append chars []
  rw [List.append_nil] at h
  rw [h, ← String.toList_inj, String.toList_append]
  simp [lossy]

/-! ### Agreement -/

/-- The fault says where the longest well-formed front of the bytes ends, and what
    stands there: the front of a character that the end cuts off, or a malformed
    part. -/
structure FaultIn (bytes : List UInt8) (fault : Fault) : Prop where
  illFormed : ¬ WellFormed bytes
  inBytes : fault.validUpTo < bytes.length
  front : WellFormed (bytes.take fault.validUpTo)
  longest : ∀ length ≤ bytes.length, WellFormed (bytes.take length) → length ≤ fault.validUpTo
  cut_iff : fault.errorLength = none ↔ Incomplete (bytes.drop fault.validUpTo)
  part : ∀ width, fault.errorLength = some width →
    MalformedPart (bytes.drop fault.validUpTo) width
  width : ∀ width, fault.errorLength = some width →
    1 ≤ width ∧ width ≤ 3 ∧ fault.validUpTo + width ≤ bytes.length

/-- What is shown behind the replacement character for a fault. -/
def shownBehind (bytes : List UInt8) (fault : Fault) : String :=
  match fault.errorLength with
  | none => ""
  | some width => lossy (bytes.drop (fault.validUpTo + width))

/-- A strict reading of the bytes and what is shown of them agree. -/
structure ViewsAgree (bytes : List UInt8) (strict : Except Fault String) (shown : String) :
    Prop where
  exists_ok_iff : (∃ text, strict = .ok text) ↔ WellFormed bytes
  ok_iff : ∀ text, strict = .ok text ↔ textBytes text = bytes
  shown_of_ok : ∀ text, strict = .ok text → shown = text
  fault : ∀ fault, strict = .error fault → FaultIn bytes fault
  shown_of_fault : ∀ fault, strict = .error fault →
    ∃ front, textBytes front = bytes.take fault.validUpTo ∧
      shown = front ++ String.singleton replacement ++ shownBehind bytes fault

/-- The fault is at the first piece that is no character, and says what that
    piece is. -/
theorem faultIn_of_pieces (chars : List Char) {rest : List UInt8} {piece : Piece}
    {right : List Piece} {errorLength : Option Nat} (hpieces : pieces rest = piece :: right)
    (hpiece : ∀ char, piece ≠ .scalar char) (hrest : 1 ≤ rest.length)
    (hcut : errorLength = none ↔ Incomplete rest)
    (hpart : ∀ width, errorLength = some width → MalformedPart rest width) :
    FaultIn (encode chars ++ rest) ⟨(encode chars).length, errorLength⟩ where
  illFormed := by
    intro h
    have hle := length_le_of_wellFormed hpieces hpiece (Nat.le_refl _)
      (by rw [List.take_length]; exact h)
    rw [List.length_append] at hle
    omega
  inBytes := by
    dsimp only
    rw [List.length_append]
    omega
  front := by
    rw [List.take_left]
    exact wellFormed_encode chars
  longest := fun _ hle h => length_le_of_wellFormed hpieces hpiece hle h
  cut_iff := by
    rw [List.drop_left]
    exact hcut
  part := by
    rw [List.drop_left]
    exact hpart
  width := by
    intro width hwidth
    have h := hpart width hwidth
    have hin := h.inBytes
    dsimp only
    rw [List.length_append]
    exact ⟨h.positive, h.le_three, by omega⟩

theorem viewsAgree_of_wellFormed (chars : List Char) :
    ViewsAgree (encode chars) (.ok (String.ofList chars)) (String.ofList chars) where
  exists_ok_iff := iff_of_true ⟨_, rfl⟩ (wellFormed_encode chars)
  ok_iff := by
    intro text
    rw [Except.ok.injEq]
    constructor
    · rintro rfl
      exact textBytes_ofList chars
    · -- Two texts with the same bytes have the same characters.
      intro h
      rw [← textBytes_ofList, textBytes, textBytes, Array.toList_inj, ByteArray.ext_iff.symm,
        String.toByteArray_inj] at h
      exact h.symm
  shown_of_ok := fun _ h => Except.ok.inj h
  fault := fun _ h => nomatch h
  shown_of_fault := fun _ h => nomatch h

theorem viewsAgree_of_fault {bytes : List UInt8} {fault : Fault} {shown : String}
    (hfault : FaultIn bytes fault)
    (hshown : ∃ front, textBytes front = bytes.take fault.validUpTo ∧
      shown = front ++ String.singleton replacement ++ shownBehind bytes fault) :
    ViewsAgree bytes (.error fault) shown where
  exists_ok_iff := iff_of_false (fun ⟨_, h⟩ => nomatch h) hfault.illFormed
  ok_iff := fun text => iff_of_false (fun h => nomatch h) fun h => hfault.illFormed ⟨text, h⟩
  shown_of_ok := fun _ h => nomatch h
  fault := fun _ h => Except.error.inj h ▸ hfault
  shown_of_fault := fun _ h => Except.error.inj h ▸ hshown

theorem lossy_eq_of_pieces {rest behind : List UInt8} {piece : Piece}
    (hpieces : pieces rest = piece :: pieces behind) (hshown : piece.shown = replacement) :
    lossy rest = String.singleton replacement ++ lossy behind := by
  rw [lossy, hpieces, List.map_cons, hshown, String.ofList_cons, lossy]

/-- The two readings of any bytes agree. -/
theorem viewsAgree (bytes : List UInt8) : ViewsAgree bytes (check bytes) (lossy bytes) := by
  cases reading bytes with
  | whole chars =>
      rw [check_encode, lossy_encode]
      exact viewsAgree_of_wellFormed chars
  | @cut chars rest incomplete left =>
      have hlossy : lossy rest = String.singleton replacement ++ "" :=
        @lossy_eq_of_pieces rest [] _ left rfl
      rw [check_encode_append, lossy_encode_append, left, hlossy, checkPieces]
      refine viewsAgree_of_fault
        (faultIn_of_pieces chars left (fun _ h => nomatch h) (List.length_pos_iff.mpr incomplete.1)
          (iff_of_true rfl incomplete) (fun _ h => nomatch h)) ⟨String.ofList chars, ?_, ?_⟩
      · rw [List.take_left]
        exact textBytes_ofList chars
      · rw [shownBehind, String.append_assoc]
  | @malformed chars rest width part left =>
      have hlossy := lossy_eq_of_pieces left rfl
      rw [check_encode_append, lossy_encode_append, left, hlossy, checkPieces]
      refine viewsAgree_of_fault
        (faultIn_of_pieces chars left (fun _ h => nomatch h)
          (Nat.le_trans part.positive part.inBytes)
          (iff_of_false (Option.some_ne_none width) part.not_incomplete)
          (fun _ h => Option.some.inj h ▸ part)) ⟨String.ofList chars, ?_, ?_⟩
      · rw [List.take_left]
        exact textBytes_ofList chars
      · rw [shownBehind, String.append_assoc]
        dsimp only
        rw [List.drop_length_add_append]

end Utf8

/-! ### Names -/

/-- The name is what stands in front of the first NUL byte, or all of the bytes if
    there is none. -/
structure UpToNul (name content : List UInt8) : Prop where
  front : name <+: content
  noNul : 0 ∉ name
  whole : 0 ∉ content → name = content
  terminated : 0 ∈ content → name ++ [0] <+: content

theorem upToNul_takeWhile (content : List UInt8) :
    UpToNul (content.takeWhile fun byte => byte != 0) content where
  front := List.takeWhile_prefix _
  noNul := fun h => absurd (List.mem_takeWhile_imp h) (by decide)
  whole := by
    intro h
    rw [List.takeWhile_eq_self_iff]
    intro byte hbyte
    exact bne_iff_ne.mpr fun hzero => h (hzero ▸ hbyte)
  terminated := fun h => takeWhile_append_nul_isPrefix h

/-- The name is what stands in front of the first NUL byte, or nothing if there is
    none. -/
structure CutAtNulIfAny (name content : List UInt8) : Prop where
  cut : 0 ∈ content → CutAtNul name content
  empty : 0 ∉ content → name = []

theorem SymbolPath.cutAtNulIfAny_name (path : SymbolPath) :
    CutAtNulIfAny path.name path.bytes.bytes where
  cut := fun h => cutAtNul_name h
  empty := by
    intro h
    have hnone : ¬ path.bytes.bytes.contains 0 = true := mt List.contains_iff_mem.mp h
    rw [name, if_neg hnone]

/-- The name in any path is cut at the first NUL, and its two readings agree. What
    is shown of the name of any section agrees with a strict reading of the bytes
    in front of its first NUL, or of all eight. -/
theorem text_views_agree :
    (∀ path : SymbolPath, CutAtNulIfAny path.name path.bytes.bytes ∧
      Utf8.ViewsAgree path.name path.text path.display) ∧
      ∀ header : Section, ∃ name, UpToNul name header.name.toList ∧
        Utf8.ViewsAgree name (Utf8.check name) header.label :=
  ⟨fun path => ⟨path.cutAtNulIfAny_name, Utf8.viewsAgree path.name⟩, fun header =>
    ⟨_, upToNul_takeWhile header.name.toList, Utf8.viewsAgree _⟩⟩

end SymbolLocator
