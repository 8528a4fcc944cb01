import SymbolLocator.Text.Utf16

/-!
# JSON Tokens

The lexemes of a JSON text.

The text is cut into tokens, and blanks between tokens are dropped. A string
is kept as the code units it denotes, because an escape may denote a surrogate
that stands alone; a number is kept as it is written. No two tokens of a JSON
value stand next to each other without a mark between them, so nothing has to
be checked about where a token ends.

## Main definitions

* `Json.Token`: The lexemes.
* `Json.readString?`, `Json.readNumber?`: The lexemes of variable length.
* `Json.token?`: The first token of a text that does not begin with a blank.
* `Json.tokens?`: All tokens of a text.

## Theorems

* `Json.length_token_lt`: Reading a token leaves less to read.
-/

namespace SymbolLocator

namespace Json

/-- A lexeme of a JSON text. -/
inductive Token where
  | openObject
  | closeObject
  | openArray
  | closeArray
  | colon
  | comma
  | null
  | bool (value : Bool)
  /-- A number, as it is written. -/
  | number (literal : List Char)
  /-- A string, as the code units it denotes. -/
  | string (units : List UInt16)
deriving DecidableEq, Repr

/-- Whether a character may stand between tokens. -/
def isBlank (char : Char) : Bool :=
  char == ' ' || char == '\t' || char == '\n' || char == '\r'

/-- The value of a hexadecimal digit of either case. -/
def hexDigit? (char : Char) : Option Nat :=
  if '0' ≤ char ∧ char ≤ '9' then some (char.toNat - '0'.toNat)
  else if 'a' ≤ char ∧ char ≤ 'f' then some (char.toNat - 'a'.toNat + 10)
  else if 'A' ≤ char ∧ char ≤ 'F' then some (char.toNat - 'A'.toNat + 10)
  else none

/-- The code unit with the four hexadecimal digits `a`, `b`, `c`, `d`. -/
def hexUnit? (a b c d : Char) : Option UInt16 := do
  let a ← hexDigit? a
  let b ← hexDigit? b
  let c ← hexDigit? c
  let d ← hexDigit? d
  return UInt16.ofNat (((a * 16 + b) * 16 + c) * 16 + d)

/-- The character that a backslash and `char` denote. -/
def escaped? (char : Char) : Option Char :=
  match char with
  | '"' => some '"'
  | '\\' => some '\\'
  | '/' => some '/'
  | 'b' => some '\x08'
  | 'f' => some '\x0C'
  | 'n' => some '\n'
  | 'r' => some '\r'
  | 't' => some '\t'
  | _ => none

/-- Read the rest of a string behind its opening quote, and the closing quote.
    The units in front of it are given last first. Control characters must be
    escaped. -/
def readString? (before : List UInt16) : List Char → Option (List UInt16 × List Char)
  | [] => none
  | '"' :: rest => some (before.reverse, rest)
  | '\\' :: 'u' :: a :: b :: c :: d :: rest =>
    match hexUnit? a b c d with
    | none => none
    | some unit => readString? (unit :: before) rest
  | '\\' :: char :: rest =>
    match escaped? char with
    | none => none
    | some denoted => readString? ((Utf16.encode denoted).reverse ++ before) rest
  | char :: rest =>
    if char.toNat < 0x20 ∨ char = '\\' then none
    else readString? ((Utf16.encode char).reverse ++ before) rest

/-- The digits at the front of a text, at least one of them, and the rest. -/
def readDigits? (text : List Char) : Option (List Char × List Char) :=
  match text.takeWhile Char.isDigit with
  | [] => none
  | digits => some (digits, text.dropWhile Char.isDigit)

/-- The sign at the front of a text, if there is one, and the rest. -/
def readMinus : List Char → List Char × List Char
  | '-' :: rest => (['-'], rest)
  | text => ([], text)

/-- The whole part of a number: a zero, or digits that do not begin with
    one. -/
def readWhole? : List Char → Option (List Char × List Char)
  | '0' :: rest => some (['0'], rest)
  | text => readDigits? text

/-- The fraction of a number, which may be missing. -/
def readFraction? : List Char → Option (List Char × List Char)
  | '.' :: rest => (readDigits? rest).map fun (digits, rest) => ('.' :: digits, rest)
  | text => some ([], text)

/-- The sign of an exponent, which may be missing. -/
def readSign : List Char → List Char × List Char
  | '+' :: rest => (['+'], rest)
  | text => readMinus text

/-- The exponent of a number, which may be missing. -/
def readExponent? : List Char → Option (List Char × List Char)
  | [] => some ([], [])
  | mark :: rest =>
    if mark = 'e' ∨ mark = 'E' then
      let (sign, rest) := readSign rest
      (readDigits? rest).map fun (digits, rest) => (mark :: sign ++ digits, rest)
    else some ([], mark :: rest)

/-- The number at the front of a text, as it is written, and the rest. -/
def readNumber? (text : List Char) : Option (List Char × List Char) := do
  let (minus, text) := readMinus text
  let (whole, text) ← readWhole? text
  let (fraction, text) ← readFraction? text
  let (exponent, text) ← readExponent? text
  return (minus ++ whole ++ fraction ++ exponent, text)

/-- The token at the front of a text, and the rest. -/
def token? : List Char → Option (Token × List Char)
  | '{' :: rest => some (.openObject, rest)
  | '}' :: rest => some (.closeObject, rest)
  | '[' :: rest => some (.openArray, rest)
  | ']' :: rest => some (.closeArray, rest)
  | ':' :: rest => some (.colon, rest)
  | ',' :: rest => some (.comma, rest)
  | 'n' :: 'u' :: 'l' :: 'l' :: rest => some (.null, rest)
  | 't' :: 'r' :: 'u' :: 'e' :: rest => some (.bool true, rest)
  | 'f' :: 'a' :: 'l' :: 's' :: 'e' :: rest => some (.bool false, rest)
  | '"' :: rest => (readString? [] rest).map fun (units, rest) => (.string units, rest)
  | text => (readNumber? text).map fun (literal, rest) => (.number literal, rest)

theorem length_readString_lt {before units : List UInt16} {text rest : List Char}
    (h : readString? before text = some (units, rest)) : rest.length < text.length := by
  fun_induction readString? before text with
  | case1 => simp at h
  | case2 before tail =>
      simp only [Option.some.injEq, Prod.mk.injEq] at h
      simp [h.2]
  | case3 => simp at h
  | case4 before a b c d tail unit hunit ih =>
      have := ih h
      simp only [List.length_cons]
      omega
  | case5 => simp at h
  | case6 before char tail hpart denoted hdenoted ih =>
      have := ih h
      simp only [List.length_cons]
      omega
  | case7 => simp at h
  | case8 before char tail hquote hunit hescape hplain ih =>
      have := ih h
      simp only [List.length_cons]
      omega

theorem length_readDigits_lt {text digits rest : List Char}
    (h : readDigits? text = some (digits, rest)) : rest.length < text.length := by
  unfold readDigits? at h
  split at h
  case h_1 => simp at h
  case h_2 hdigits =>
    simp only [Option.some.injEq, Prod.mk.injEq] at h
    have hsplit := congrArg List.length
      (List.takeWhile_append_dropWhile : text.takeWhile Char.isDigit ++ _ = text)
    have hpos := List.length_pos_iff.mpr hdigits
    rw [List.length_append] at hsplit
    rw [← h.2]
    omega

theorem length_readMinus_le (text : List Char) : (readMinus text).2.length ≤ text.length := by
  unfold readMinus
  split <;> simp

theorem length_readWhole_lt {text whole rest : List Char}
    (h : readWhole? text = some (whole, rest)) : rest.length < text.length := by
  unfold readWhole? at h
  split at h
  case h_1 =>
    simp only [Option.some.injEq, Prod.mk.injEq] at h
    simp [h.2]
  case h_2 => exact length_readDigits_lt h

theorem length_readFraction_le {text fraction rest : List Char}
    (h : readFraction? text = some (fraction, rest)) : rest.length ≤ text.length := by
  unfold readFraction? at h
  split at h
  case h_1 =>
    simp only [Option.map_eq_some_iff, Prod.mk.injEq, Prod.exists] at h
    obtain ⟨digits, tail, hdigits, -, rfl⟩ := h
    have := length_readDigits_lt hdigits
    simp only [List.length_cons]
    omega
  case h_2 =>
    simp only [Option.some.injEq, Prod.mk.injEq] at h
    simp [h.2]

theorem length_readSign_le (text : List Char) : (readSign text).2.length ≤ text.length := by
  unfold readSign
  split
  case h_1 => simp
  case h_2 => exact length_readMinus_le _

theorem length_readExponent_le {text exponent rest : List Char}
    (h : readExponent? text = some (exponent, rest)) : rest.length ≤ text.length := by
  unfold readExponent? at h
  split at h
  case h_1 =>
    simp only [Option.some.injEq, Prod.mk.injEq] at h
    simp [← h.2]
  case h_2 mark tail =>
    split at h
    case isTrue =>
      simp only [Option.map_eq_some_iff, Prod.mk.injEq, Prod.exists] at h
      obtain ⟨digits, last, hdigits, -, rfl⟩ := h
      have := length_readDigits_lt hdigits
      have := length_readSign_le tail
      simp only [List.length_cons]
      omega
    case isFalse =>
      simp only [Option.some.injEq, Prod.mk.injEq] at h
      simp [← h.2]

theorem length_readNumber_lt {text literal rest : List Char}
    (h : readNumber? text = some (literal, rest)) : rest.length < text.length := by
  simp only [readNumber?, bind, Option.bind_eq_some_iff, Prod.exists, pure, Option.some.injEq,
    Prod.mk.injEq] at h
  obtain ⟨whole, afterWhole, hwhole, fraction, afterFraction, hfraction, exponent,
    afterExponent, hexponent, -, rfl⟩ := h
  have := length_readMinus_le text
  have := length_readWhole_lt hwhole
  have := length_readFraction_le hfraction
  have := length_readExponent_le hexponent
  omega

/-- Reading a token leaves less to read. -/
theorem length_token_lt {text rest : List Char} {token : Token}
    (h : token? text = some (token, rest)) : rest.length < text.length := by
  unfold token? at h
  split at h
  case h_10 =>
    simp only [Option.map_eq_some_iff, Prod.mk.injEq, Prod.exists] at h
    obtain ⟨units, tail, hstring, -, rfl⟩ := h
    have := length_readString_lt hstring
    simp only [List.length_cons]
    omega
  case h_11 =>
    simp only [Option.map_eq_some_iff, Prod.mk.injEq, Prod.exists] at h
    obtain ⟨literal, tail, hnumber, -, rfl⟩ := h
    exact length_readNumber_lt hnumber
  all_goals
    simp only [Option.some.injEq, Prod.mk.injEq] at h
    simp only [List.length_cons, h.2]
    omega

theorem length_skipBlanks_le (text : List Char) :
    (text.dropWhile isBlank).length ≤ text.length :=
  (List.dropWhile_sublist isBlank).length_le

/-- The tokens of a text, behind those already found, which are given last
    first. -/
def tokensOnto (found : List Token) (text : List Char) : Option (List Token) :=
  match hskip : text.dropWhile isBlank with
  | [] => some found.reverse
  | char :: rest =>
    match htoken : token? (char :: rest) with
    | none => none
    | some (token, tail) =>
      have : tail.length < text.length :=
        Nat.lt_of_lt_of_le (length_token_lt htoken) (hskip ▸ length_skipBlanks_le text)
      tokensOnto (token :: found) tail
termination_by text.length

/-- All tokens of a text. -/
def tokens? (text : List Char) : Option (List Token) := tokensOnto [] text

end Json

end SymbolLocator
