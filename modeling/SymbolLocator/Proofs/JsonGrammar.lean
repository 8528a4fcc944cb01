import SymbolLocator.Json.Value

/-!
# The Grammar of JSON

The texts that a value has, and that the reader reads them all.

The grammar says nothing of tokens or of a machine. It builds texts: a value in
a text may have blanks around it, a character of a string may be written in
several ways, and an array or an object may be written with any number of items
or members, of values of any depth. So a value has many texts, and none of them
has a second value, as the reader reads one value from it.

The reader works in two steps, and neither is a recursion over values. That it
reads a part of a text is therefore said of both at once. There are tokens such
that cutting off the part leaves them and what stands behind it, and such that
they take the machine past the part, from any stack to the same stack. The
second is what makes a value one step of what holds it: whatever is nested in
the value is gone from the stack when its last token is read.

A number is the only token that has no end of its own. It ends because of what
stands behind it, and only there the text behind a part matters.

## Main definitions

* `Json.NumberText`, `Json.StringText`: The texts of a number, and of a string
  without its quotes.
* `Json.Phrase`: What a part of a text may be.
* `Json.Written`: The grammar.
* `Json.IsText`: A text of a value.
* `Json.Cut`: Cutting off a part of a text leaves tokens.
* `Json.Takes`: Tokens take the machine from one state to another.

## Theorems

* `Json.readNumber?_append`, `Json.readString?_append`: The tokens of variable
  length are read as they are written.
* `Json.Written.read`: Every phrase is read.
* `Json.IsText.parse?_eq`: So is every text.
* `Json.IsText.unique`: A text has no second value.
-/

namespace SymbolLocator

namespace Json

/-! ### The grammar -/

/-- Characters that may stand between tokens. -/
def Blanks (text : List Char) : Prop :=
  ∀ char ∈ text, char = ' ' ∨ char = '\t' ∨ char = '\n' ∨ char = '\r'

/-- At least one digit, and nothing else. -/
def Digits (text : List Char) : Prop := text ≠ [] ∧ ∀ char ∈ text, '0' ≤ char ∧ char ≤ '9'

/-- The whole part of a number, without needless zeros. -/
inductive WholeText : List Char → Prop
  | zero : WholeText ['0']
  | digits {first : Char} {rest : List Char} (digits : Digits (first :: rest))
    (nonzero : first ≠ '0') : WholeText (first :: rest)

/-- The fraction of a number, if it has one. -/
inductive FractionText : List Char → Prop
  | none : FractionText []
  | some {digits : List Char} (h : Digits digits) : FractionText ('.' :: digits)

/-- The exponent of a number, if it has one. -/
inductive ExponentText : List Char → Prop
  | none : ExponentText []
  | some {mark : Char} {sign digits : List Char} (hmark : mark = 'e' ∨ mark = 'E')
    (hsign : sign = [] ∨ sign = ['+'] ∨ sign = ['-']) (h : Digits digits) :
    ExponentText (mark :: (sign ++ digits))

/-- A number. -/
inductive NumberText : List Char → Prop
  | intro {minus whole fraction exponent : List Char} (hminus : minus = [] ∨ minus = ['-'])
    (hwhole : WholeText whole) (hfraction : FractionText fraction)
    (hexponent : ExponentText exponent) :
    NumberText (minus ++ whole ++ fraction ++ exponent)

/-- The character is the hexadecimal digit of the value, in either case. -/
def HexDigit (char : Char) (value : Nat) : Prop :=
  (char, value) ∈ "0123456789abcdef".toList.zipIdx ++ "0123456789ABCDEF".toList.zipIdx

instance (char : Char) (value : Nat) : Decidable (HexDigit char value) :=
  inferInstanceAs (Decidable (_ ∈ _))

/-- The characters that may stand behind a backslash, with what they denote
    there. -/
def shortEscapes : List (Char × Char) :=
  [('"', '"'), ('\\', '\\'), ('/', '/'), ('b', Char.ofNat 0x8), ('f', Char.ofNat 0xC),
    ('n', Char.ofNat 0xA), ('r', Char.ofNat 0xD), ('t', Char.ofNat 0x9)]

/-- What stands between the quotes of a string, with the code units it denotes. -/
inductive StringText : List UInt16 → List Char → Prop
  | nil : StringText [] []
  | plain {char : Char} {units : List UInt16} {text : List Char} (hcontrol : 0x20 ≤ char.toNat)
    (hquote : char ≠ '"') (hescape : char ≠ '\\') (h : StringText units text) :
    StringText (Utf16.encode char ++ units) (char :: text)
  | short {char denoted : Char} {units : List UInt16} {text : List Char}
    (hshort : (char, denoted) ∈ shortEscapes) (h : StringText units text) :
    StringText (Utf16.encode denoted ++ units) ('\\' :: char :: text)
  | unit {a b c d : Char} {w x y z : Nat} {units : List UInt16} {text : List Char}
    (ha : HexDigit a w) (hb : HexDigit b x) (hc : HexDigit c y) (hd : HexDigit d z)
    (h : StringText units text) :
    StringText (UInt16.ofNat (w * 0x1000 + x * 0x100 + y * 0x10 + z) :: units)
      ('\\' :: 'u' :: a :: b :: c :: d :: text)

/-- What a part of a text may be. -/
inductive Phrase where
  /-- A value, without blanks around it. -/
  | bare (value : Value)
  /-- A value with blanks around it. -/
  | padded (value : Value)
  /-- Items of an array, at least one of them. -/
  | items (items : List Value)
  /-- A member of an object. -/
  | member (key : List UInt16) (value : Value)
  /-- Members of an object, at least one of them. -/
  | members (members : List (List UInt16 × Value))

/-- The texts of a phrase. -/
inductive Written : Phrase → List Char → Prop
  | nullName : Written (.bare .null) ['n', 'u', 'l', 'l']
  | trueName : Written (.bare (.bool true)) ['t', 'r', 'u', 'e']
  | falseName : Written (.bare (.bool false)) ['f', 'a', 'l', 's', 'e']
  | number {literal : List Char} (h : NumberText literal) :
    Written (.bare (.number literal)) literal
  | string {units : List UInt16} {text : List Char} (h : StringText units text) :
    Written (.bare (.string units)) ('"' :: (text ++ ['"']))
  | emptyArray {blanks : List Char} (h : Blanks blanks) :
    Written (.bare (.array [])) ('[' :: (blanks ++ [']']))
  | array {items : List Value} {text : List Char} (h : Written (.items items) text) :
    Written (.bare (.array items)) ('[' :: (text ++ [']']))
  | emptyObject {blanks : List Char} (h : Blanks blanks) :
    Written (.bare (.object [])) ('\x7b' :: (blanks ++ ['\x7d']))
  | object {members : List (List UInt16 × Value)} {text : List Char}
    (h : Written (.members members) text) :
    Written (.bare (.object members)) ('\x7b' :: (text ++ ['\x7d']))
  | padded {value : Value} {before text after : List Char} (hbefore : Blanks before)
    (h : Written (.bare value) text) (hafter : Blanks after) :
    Written (.padded value) (before ++ (text ++ after))
  | item {value : Value} {text : List Char} (h : Written (.padded value) text) :
    Written (.items [value]) text
  | items {value : Value} {items : List Value} {text rest : List Char}
    (h : Written (.padded value) text) (hrest : Written (.items items) rest) :
    Written (.items (value :: items)) (text ++ ',' :: rest)
  | pair {key : List UInt16} {value : Value} {before name between text : List Char}
    (hbefore : Blanks before) (hname : StringText key name) (hbetween : Blanks between)
    (h : Written (.padded value) text) :
    Written (.member key value) (before ++ '"' :: (name ++ '"' :: (between ++ ':' :: text)))
  | member {key : List UInt16} {value : Value} {text : List Char}
    (h : Written (.member key value) text) : Written (.members [(key, value)]) text
  | members {key : List UInt16} {value : Value} {members : List (List UInt16 × Value)}
    {text rest : List Char} (h : Written (.member key value) text)
    (hrest : Written (.members members) rest) :
    Written (.members ((key, value) :: members)) (text ++ ',' :: rest)

theorem blanks_nil : Blanks [] := fun _ hmem => absurd hmem List.not_mem_nil

theorem Written.padded_of_bare {value : Value} {text : List Char} (h : Written (.bare value) text) :
    Written (.padded value) text := by
  have hpadded := padded blanks_nil h blanks_nil
  rwa [List.nil_append, List.append_nil] at hpadded

/-- A text of a value. -/
def IsText (text : String) (value : Value) : Prop := Written (.padded value) text.toList

/-! ### Numbers -/

/-- Whether a character can make a number in front of it longer. -/
def continues (char : Char) : Bool :=
  char.isDigit || char == '.' || char == 'e' || char == 'E'

/-- The text cannot make a number in front of it longer. -/
def Ends (text : List Char) : Prop := ∀ char ∈ text.head?, continues char = false

theorem continues_eq_false_iff {char : Char} :
    continues char = false ↔
      char.isDigit = false ∧ char ≠ '.' ∧ char ≠ 'e' ∧ char ≠ 'E' := by
  simp [continues, and_assoc]

theorem ends_nil : Ends [] := fun _ h => nomatch h

theorem isDigit_iff {char : Char} : char.isDigit = true ↔ '0' ≤ char ∧ char ≤ '9' := by
  rw [Char.isDigit, Bool.and_eq_true, decide_eq_true_iff, decide_eq_true_iff]
  exact Iff.rfl

theorem isDigit_of_digits {text : List Char} (h : Digits text) :
    ∀ char ∈ text, char.isDigit = true :=
  fun char hchar => isDigit_iff.mpr (h.2 char hchar)

theorem readDigits?_append {digits rest : List Char} (h : Digits digits)
    (hrest : ∀ char ∈ rest.head?, char.isDigit = false) :
    readDigits? (digits ++ rest) = some (digits, rest) := by
  have hall := isDigit_of_digits h
  have hstop : rest.takeWhile Char.isDigit = [] ∧ rest.dropWhile Char.isDigit = rest := by
    cases rest with
    | nil => exact ⟨rfl, rfl⟩
    | cons char rest => simp [hrest char rfl]
  have htake : (digits ++ rest).takeWhile Char.isDigit = digits := by
    rw [List.takeWhile_append_of_pos hall, hstop.1, List.append_nil]
  unfold readDigits?
  rw [htake, List.dropWhile_append_of_pos hall, hstop.2]
  cases digits with
  | nil => exact absurd rfl h.1
  | cons digit digits => rfl

theorem isDigit_head_of_digits {digits : List Char} (h : Digits digits) :
    ∃ first rest, digits = first :: rest ∧ first.isDigit = true := by
  cases digits with
  | nil => exact absurd rfl h.1
  | cons first rest => exact ⟨first, rest, rfl, isDigit_of_digits h first List.mem_cons_self⟩

theorem ne_of_isDigit {char other : Char} (h : char.isDigit = true)
    (hother : other.isDigit = false) : char ≠ other := by
  rintro rfl
  rw [h] at hother
  exact absurd hother (by decide)

theorem readMinus_eq {text : List Char} (h : ∀ rest, text ≠ '-' :: rest) :
    readMinus text = ([], text) := by
  unfold readMinus
  split
  · next rest => exact absurd rfl (h rest)
  · rfl

theorem readSign_append {sign digits rest : List Char}
    (hsign : sign = [] ∨ sign = ['+'] ∨ sign = ['-']) (h : Digits digits) :
    readSign (sign ++ (digits ++ rest)) = (sign, digits ++ rest) := by
  rcases hsign with rfl | rfl | rfl
  · rcases isDigit_head_of_digits h with ⟨first, others, rfl, hfirst⟩
    have hplus : first ≠ '+' := ne_of_isDigit hfirst rfl
    have hminus : first ≠ '-' := ne_of_isDigit hfirst rfl
    simp [readSign, readMinus, hplus, hminus]
  · rfl
  · rfl

theorem readExponent?_append {exponent rest : List Char} (h : ExponentText exponent)
    (hrest : Ends rest) : readExponent? (exponent ++ rest) = some (exponent, rest) := by
  cases h with
  | none =>
      cases rest with
      | nil => rfl
      | cons char rest =>
          rcases continues_eq_false_iff.mp (hrest char rfl) with ⟨-, -, hlower, hupper⟩
          rw [List.nil_append, readExponent?, if_neg (not_or.mpr ⟨hlower, hupper⟩)]
  | @some mark sign digits hmark hsign h =>
      rw [List.cons_append, List.append_assoc, readExponent?, if_pos hmark,
        readSign_append hsign h]
      dsimp only
      rw [readDigits?_append h fun char hchar => (continues_eq_false_iff.mp (hrest char hchar)).1]
      rfl

theorem readFraction?_append {fraction rest : List Char} (h : FractionText fraction)
    (hrest : ∀ char ∈ rest.head?, char.isDigit = false ∧ char ≠ '.') :
    readFraction? (fraction ++ rest) = some (fraction, rest) := by
  cases h with
  | none =>
      cases rest with
      | nil => rfl
      | cons char rest => simp [readFraction?, (hrest char rfl).2]
  | some h =>
      rw [List.cons_append, readFraction?,
        readDigits?_append h fun char hchar => (hrest char hchar).1]
      rfl

theorem readWhole?_append {whole rest : List Char} (h : WholeText whole)
    (hrest : ∀ char ∈ rest.head?, char.isDigit = false) :
    readWhole? (whole ++ rest) = some (whole, rest) := by
  cases h with
  | zero => rfl
  | @digits first others digits nonzero =>
      rw [← readDigits?_append digits hrest]
      simp [readWhole?, nonzero]

/-- What stands behind an exponent that may be missing does not continue what
    stands in front of it. -/
theorem head_exponent {exponent rest : List Char} (h : ExponentText exponent)
    (hrest : Ends rest) : ∀ char ∈ (exponent ++ rest).head?, char.isDigit = false ∧ char ≠ '.' := by
  cases h with
  | none =>
      intro char hchar
      rcases continues_eq_false_iff.mp (hrest char hchar) with ⟨hdigit, hpoint, -⟩
      exact ⟨hdigit, hpoint⟩
  | some hmark hsign h =>
      rintro char ⟨⟩
      rcases hmark with rfl | rfl <;> decide

theorem head_fraction {fraction rest : List Char} (h : FractionText fraction)
    (hrest : ∀ char ∈ rest.head?, char.isDigit = false) :
    ∀ char ∈ (fraction ++ rest).head?, char.isDigit = false := by
  cases h with
  | none => exact hrest
  | some h =>
      rintro char ⟨⟩
      decide

theorem isDigit_head_of_wholeText {whole : List Char} (h : WholeText whole) :
    ∃ first rest, whole = first :: rest ∧ first.isDigit = true := by
  cases h with
  | zero => exact ⟨'0', [], rfl, rfl⟩
  | digits digits nonzero => exact isDigit_head_of_digits digits

/-- A number is read as it is written, in front of what cannot make it longer. -/
theorem readNumber?_append {literal rest : List Char} (h : NumberText literal)
    (hrest : Ends rest) : readNumber? (literal ++ rest) = some (literal, rest) := by
  cases h with
  | @intro minus whole fraction exponent hminus hwhole hfraction hexponent =>
      have hend := head_exponent hexponent hrest
      have hdigit := head_fraction hfraction fun char hchar => (hend char hchar).1
      have hsign : readMinus (minus ++ (whole ++ (fraction ++ (exponent ++ rest)))) =
          (minus, whole ++ (fraction ++ (exponent ++ rest))) := by
        rcases hminus with rfl | rfl
        · rcases isDigit_head_of_wholeText hwhole with ⟨first, others, rfl, hfirst⟩
          refine readMinus_eq fun _ heq => ?_
          rw [List.nil_append, List.cons_append, List.cons.injEq] at heq
          exact absurd heq.1 (ne_of_isDigit hfirst rfl)
        · rfl
      rw [List.append_assoc, List.append_assoc, List.append_assoc, readNumber?, hsign]
      dsimp only
      rw [readWhole?_append hwhole hdigit, Option.bind_eq_bind, Option.bind_some]
      dsimp only
      rw [readFraction?_append hfraction hend, Option.bind_some]
      dsimp only
      rw [readExponent?_append hexponent hrest]
      rfl

/-! ### Strings -/

theorem hexDigit?_eq {char : Char} {value : Nat} (h : HexDigit char value) :
    hexDigit? char = some value := by
  have hall : ∀ digit ∈ "0123456789abcdef".toList.zipIdx ++ "0123456789ABCDEF".toList.zipIdx,
      hexDigit? digit.1 = some digit.2 := by decide
  exact hall _ h

theorem escaped?_eq {char denoted : Char} (h : (char, denoted) ∈ shortEscapes) :
    escaped? char = some denoted := by
  have hall : ∀ escape ∈ shortEscapes, escaped? escape.1 = some escape.2 := by decide
  exact hall _ h

theorem ne_u_of_shortEscapes {char denoted : Char} (h : (char, denoted) ∈ shortEscapes) :
    char ≠ 'u' := by
  have hall : ∀ escape ∈ shortEscapes, escape.1 ≠ 'u' := by decide
  exact hall _ h

theorem hexUnit?_eq {a b c d : Char} {w x y z : Nat} (ha : HexDigit a w) (hb : HexDigit b x)
    (hc : HexDigit c y) (hd : HexDigit d z) :
    hexUnit? a b c d = some (UInt16.ofNat (w * 0x1000 + x * 0x100 + y * 0x10 + z)) := by
  have hvalue : ((w * 16 + x) * 16 + y) * 16 + z = w * 0x1000 + x * 0x100 + y * 0x10 + z := by
    omega
  simp only [hexUnit?, hexDigit?_eq ha, hexDigit?_eq hb, hexDigit?_eq hc, hexDigit?_eq hd,
    Option.bind_eq_bind, Option.bind_some, hvalue, pure]

/-- A string is read up to its quote, as the units it denotes. -/
theorem readString?_append {units : List UInt16} {text : List Char} (h : StringText units text)
    (before : List UInt16) (rest : List Char) :
    readString? before (text ++ '"' :: rest) = some (before.reverse ++ units, rest) := by
  induction h generalizing before with
  | nil => rw [List.nil_append, readString?, List.append_nil]
  | @plain char units text hcontrol hquote hescape h ih =>
      rw [List.cons_append, readString?, if_neg (not_or.mpr ⟨Nat.not_lt.mpr hcontrol, hescape⟩), ih,
        List.reverse_append, List.reverse_reverse, List.append_assoc]
      -- A quote and a backslash would have been read otherwise.
      · exact hquote
      · exact fun _ _ _ _ _ h => absurd h hescape
      · exact fun _ _ h => absurd h hescape
  | @short char denoted units text hshort h ih =>
      rw [List.cons_append, List.cons_append, readString?, escaped?_eq hshort]
      dsimp only
      rw [ih, List.reverse_append, List.reverse_reverse, List.append_assoc]
      exact fun _ _ _ _ _ h => absurd h (ne_u_of_shortEscapes hshort)
  | @unit a b c d w x y z units text ha hb hc hd h ih =>
      simp only [List.cons_append]
      rw [readString?, hexUnit?_eq ha hb hc hd]
      dsimp only
      rw [ih, List.reverse_cons, List.append_assoc]
      rfl

/-! ### Cutting -/

theorem token?_string {units : List UInt16} {text : List Char} (h : StringText units text)
    (rest : List Char) : token? ('"' :: (text ++ '"' :: rest)) = some (.string units, rest) := by
  rw [token?, readString?_append h]
  rfl

/-- A number begins like no other token. -/
theorem token?_eq_number {first : Char} {text : List Char}
    (h : first = '-' ∨ first.isDigit = true) :
    token? (first :: text) =
      (readNumber? (first :: text)).map fun (literal, rest) => (.number literal, rest) := by
  have hne : ∀ mark, mark.isDigit = false → mark ≠ '-' → first ≠ mark := by
    rintro mark hmark hminus rfl
    rcases h with rfl | hdigit
    · exact hminus rfl
    · exact absurd hdigit (Bool.eq_false_iff.mp hmark)
  unfold token?
  split
  all_goals
    first
    | rfl
    | next heq => exact absurd (List.cons.inj heq).1 (hne _ (by decide) (by decide))

theorem head_of_numberText {literal : List Char} (h : NumberText literal) :
    ∃ first rest, literal = first :: rest ∧ (first = '-' ∨ first.isDigit = true) := by
  cases h with
  | intro hminus hwhole hfraction hexponent =>
      rcases hminus with rfl | rfl
      · rcases isDigit_head_of_wholeText hwhole with ⟨first, rest, rfl, hfirst⟩
        exact ⟨first, _, rfl, Or.inr hfirst⟩
      · exact ⟨'-', _, rfl, Or.inl rfl⟩

theorem tokensOnto_eq (found : List Token) (text : List Char) :
    tokensOnto found text =
      match text.dropWhile isBlank with
      | [] => some found.reverse
      | char :: rest => (token? (char :: rest)).bind fun (token, tail) =>
        tokensOnto (token :: found) tail := by
  rw [tokensOnto]
  split
  · next hskip => simp only [hskip]
  · next char rest hskip =>
    split
    · next htoken => simp only [hskip, htoken, Option.bind_none]
    · next htoken => simp only [hskip, htoken, Option.bind_some]

theorem tokensOnto_blank {char : Char} (h : isBlank char = true) (found : List Token)
    (text : List Char) : tokensOnto found (char :: text) = tokensOnto found text := by
  rw [tokensOnto_eq, tokensOnto_eq found text, List.dropWhile_cons_of_pos h]

theorem tokensOnto_token {char : Char} {text rest : List Char} {token : Token}
    (hblank : isBlank char = false) (h : token? (char :: text) = some (token, rest))
    (found : List Token) : tokensOnto found (char :: text) = tokensOnto (token :: found) rest := by
  rw [tokensOnto_eq, List.dropWhile_cons_of_neg (Bool.eq_false_iff.mp hblank)]
  dsimp only
  rw [h, Option.bind_some]

/-- Cutting off the text leaves the tokens, and what stands behind it. -/
def Cut (text : List Char) (tokens : List Token) : Prop :=
  ∀ found rest, Ends rest →
    tokensOnto found (text ++ rest) = tokensOnto (tokens.reverse ++ found) rest

theorem isBlank_iff {char : Char} :
    isBlank char = true ↔ char = ' ' ∨ char = '\t' ∨ char = '\n' ∨ char = '\r' := by
  simp [isBlank, or_assoc]

theorem Ends.cons {char : Char} (h : continues char = false) (text : List Char) :
    Ends (char :: text) := by
  rintro other ⟨⟩
  exact h

theorem Ends.blanks_append {blanks text : List Char} (hblanks : Blanks blanks) (h : Ends text) :
    Ends (blanks ++ text) := by
  cases blanks with
  | nil => exact h
  | cons char blanks =>
      rcases hblanks char List.mem_cons_self with rfl | rfl | rfl | rfl <;> exact .cons rfl _

namespace Cut

variable {text : List Char} {tokens : List Token}

theorem nil : Cut [] [] := fun _ _ _ => rfl

/-- What stands behind a part is cut off next. -/
theorem append {front : List Char} {frontTokens : List Token} (hfront : Cut front frontTokens)
    (h : Cut text tokens) (hends : ∀ rest, Ends rest → Ends (text ++ rest)) :
    Cut (front ++ text) (frontTokens ++ tokens) := by
  intro found rest hrest
  rw [List.append_assoc, hfront found _ (hends rest hrest), h _ rest hrest, List.reverse_append,
    List.append_assoc]

-- A token that is recognised by what it is, whatever stands behind it.
theorem token {char : Char} {more : List Char} {token : Token} (hblank : isBlank char = false)
    (htoken : ∀ rest, token? (char :: (more ++ rest)) = some (token, rest))
    (h : Cut text tokens) : Cut (char :: (more ++ text)) (token :: tokens) := by
  intro found rest hrest
  rw [List.cons_append, List.append_assoc, tokensOnto_token hblank (htoken _), h _ rest hrest,
    List.reverse_cons, List.append_assoc]
  rfl

theorem word {char : Char} {more : List Char} {token : Token} (hblank : isBlank char = false)
    (htoken : ∀ rest, token? (char :: (more ++ rest)) = some (token, rest)) :
    Cut (char :: more) [token] := by
  have h := Cut.token hblank htoken nil
  rwa [List.append_nil] at h

theorem mark {char : Char} {token : Token} (hblank : isBlank char = false)
    (htoken : ∀ rest, token? (char :: rest) = some (token, rest)) (h : Cut text tokens) :
    Cut (char :: text) (token :: tokens) :=
  @Cut.token text tokens char [] token hblank htoken h

theorem string {units : List UInt16} {name : List Char} (hname : StringText units name)
    (h : Cut text tokens) : Cut ('"' :: (name ++ '"' :: text)) (.string units :: tokens) := by
  have htoken : ∀ rest, token? ('"' :: ((name ++ ['"']) ++ rest)) = some (.string units, rest) := by
    intro rest
    rw [List.append_assoc]
    exact token?_string hname rest
  have hcut := token rfl htoken h
  rwa [List.append_assoc] at hcut

theorem number {literal : List Char} (h : NumberText literal) :
    Cut literal [.number literal] := by
  intro found rest hrest
  rcases head_of_numberText h with ⟨first, others, rfl, hfirst⟩
  refine tokensOnto_token ?_ ?_ found
  · rcases hfirst with rfl | hdigit
    · rfl
    · rw [Bool.eq_false_iff, ne_eq, isBlank_iff]
      rintro (rfl | rfl | rfl | rfl) <;> exact absurd hdigit (by decide)
  · have hread := readNumber?_append h hrest
    rw [List.cons_append] at hread
    show token? (first :: (others ++ rest)) = _
    rw [token?_eq_number hfirst, hread]
    rfl

theorem blanks {blanks : List Char} (hblanks : Blanks blanks) (h : Cut text tokens) :
    Cut (blanks ++ text) tokens := by
  induction blanks with
  | nil => exact h
  | cons char blanks ih =>
      have hothers : Blanks blanks :=
        fun other hother => hblanks other (List.mem_cons_of_mem char hother)
      intro found rest hrest
      rw [List.cons_append, List.cons_append,
        tokensOnto_blank (isBlank_iff.mpr (hblanks char List.mem_cons_self))]
      exact ih hothers found rest hrest

/-- Behind a part there may be blanks. -/
theorem append_blanks {blanks : List Char} (hblanks : Blanks blanks) (h : Cut text tokens) :
    Cut (text ++ blanks) tokens := by
  have hnone : Cut blanks [] := by
    have h := nil.blanks hblanks
    rwa [List.append_nil] at h
  have happend := h.append hnone fun rest hrest => hrest.blanks_append hblanks
  rwa [List.append_nil] at happend

end Cut

/-! ### Reading -/

/-- The tokens take the machine from one state to another. -/
def Takes (start : State) (tokens : List Token) (last : State) : Prop :=
  tokens.foldlM State.step start = some last

namespace Takes

variable {start next last : State} {token : Token} {tokens more : List Token} {stack : List Frame}

theorem nil (state : State) : Takes state [] state := rfl

theorem cons (hstep : start.step token = some next) (h : Takes next tokens last) :
    Takes start (token :: tokens) last := by
  rw [Takes, List.foldlM_cons, hstep]
  exact h

theorem append (h : Takes start tokens next) (hmore : Takes next more last) :
    Takes start (tokens ++ more) last := by
  rw [Takes, List.foldlM_append, h]
  exact hmore

-- The only token that the machine treats differently is the one that closes the array, and no
-- item begins with it.
theorem firstItem {value : Value} {others : List Frame}
    (h : Takes (.awaitsValue (.item [] :: stack)) tokens (.complete value others)) :
    Takes (.awaitsFirstItem stack) tokens (.complete value others) := by
  cases tokens with
  | nil => exact nomatch h
  | cons token tokens =>
      cases token with
      | closeArray => exact nomatch h
      | _ => exact h

-- Where a key is read, only a string gets the machine any further.
theorem firstKey {value : Value} {others : List Frame}
    (h : Takes (.awaitsKey [] stack) tokens (.complete value others)) :
    Takes (.awaitsFirstKey stack) tokens (.complete value others) := by
  cases tokens with
  | nil => exact nomatch h
  | cons token tokens =>
      cases token with
      | string key => exact h
      | _ => exact nomatch h

end Takes

/-- What the tokens of a phrase do to the machine, which has more open around the
    phrase. Items and members are read up to the end of what they are in. -/
def Phrase.ReadAs : Phrase → List Token → Prop
  | .bare value, tokens => ∀ stack, Takes (.awaitsValue stack) tokens (.complete value stack)
  | .padded value, tokens => ∀ stack, Takes (.awaitsValue stack) tokens (.complete value stack)
  | .items values, tokens => ∀ before stack,
    Takes (.awaitsValue (.item before :: stack)) (tokens ++ [.closeArray])
      (.complete (.array (before.reverse ++ values)) stack)
  | .member key value, tokens => ∀ before stack,
    Takes (.awaitsKey before stack) tokens (.complete value (.member before key :: stack))
  | .members pairs, tokens => ∀ before stack,
    Takes (.awaitsKey before stack) (tokens ++ [.closeObject])
      (.complete (.object (before.reverse ++ pairs)) stack)

theorem cut_comma {text : List Char} {tokens : List Token} (h : Cut text tokens) :
    Cut (',' :: text) (.comma :: tokens) := .mark rfl (fun _ => rfl) h

theorem cut_closeArray : Cut [']'] [.closeArray] := .mark rfl (fun _ => rfl) .nil

theorem cut_closeObject : Cut ['\x7d'] [.closeObject] := .mark rfl (fun _ => rfl) .nil

/-- Every phrase is read. The induction is on the grammar, and a value that is
    read inside another leaves the stack as it was. -/
theorem Written.read {phrase : Phrase} {text : List Char} (h : Written phrase text) :
    ∃ tokens, Cut text tokens ∧ phrase.ReadAs tokens := by
  induction h with
  | nullName => exact ⟨[.null], .word rfl (fun _ => rfl), fun _ => rfl⟩
  | trueName => exact ⟨[.bool true], .word rfl (fun _ => rfl), fun _ => rfl⟩
  | falseName => exact ⟨[.bool false], .word rfl (fun _ => rfl), fun _ => rfl⟩
  | @number literal h => exact ⟨[.number literal], .number h, fun _ => rfl⟩
  | @string units text h => exact ⟨[.string units], .string h .nil, fun _ => rfl⟩
  | emptyArray h =>
      exact ⟨[.openArray, .closeArray], .mark rfl (fun _ => rfl) (.blanks h cut_closeArray),
        fun _ => rfl⟩
  | emptyObject h =>
      exact ⟨[.openObject, .closeObject], .mark rfl (fun _ => rfl) (.blanks h cut_closeObject),
        fun _ => rfl⟩
  | array h ih =>
      rcases ih with ⟨tokens, hcut, hread⟩
      refine ⟨.openArray :: (tokens ++ [.closeArray]), .mark rfl (fun _ => rfl) ?_, ?_⟩
      · exact hcut.append cut_closeArray fun _ _ => .cons rfl _
      · intro stack
        exact .cons rfl (hread [] stack).firstItem
  | object h ih =>
      rcases ih with ⟨tokens, hcut, hread⟩
      refine ⟨.openObject :: (tokens ++ [.closeObject]), .mark rfl (fun _ => rfl) ?_, ?_⟩
      · exact hcut.append cut_closeObject fun _ _ => .cons rfl _
      · intro stack
        exact .cons rfl (hread [] stack).firstKey
  | padded hbefore h hafter ih =>
      rcases ih with ⟨tokens, hcut, hread⟩
      exact ⟨tokens, .blanks hbefore (hcut.append_blanks hafter), hread⟩
  | item h ih =>
      rcases ih with ⟨tokens, hcut, hread⟩
      refine ⟨tokens, hcut, fun before stack => (hread _).append ?_⟩
      refine .cons ?_ (.nil _)
      rw [State.step, List.reverse_cons]
  | @items value items text rest h hrest ih ihrest =>
      rcases ih with ⟨tokens, hcut, hread⟩
      rcases ihrest with ⟨more, hcutMore, hreadMore⟩
      -- The comma ends the item, also if it is a number, and moves it to those that were read.
      refine ⟨tokens ++ .comma :: more,
        hcut.append (cut_comma hcutMore) fun _ _ => .cons rfl _, fun before stack => ?_⟩
      have hbehind := hreadMore (value :: before) stack
      rw [List.reverse_cons, List.append_assoc] at hbehind
      rw [List.append_assoc]
      exact (hread _).append (.cons rfl hbehind)
  | @pair key value before name between text hbefore hname hbetween h ih =>
      rcases ih with ⟨tokens, hcut, hread⟩
      refine ⟨.string key :: .colon :: tokens,
        .blanks hbefore (.string hname (.blanks hbetween (.mark rfl (fun _ => rfl) hcut))), ?_⟩
      intro others stack
      exact .cons rfl (.cons rfl (hread _))
  | member h ih =>
      rcases ih with ⟨tokens, hcut, hread⟩
      refine ⟨tokens, hcut, fun before stack => (hread before stack).append ?_⟩
      refine .cons ?_ (.nil _)
      rw [State.step, List.reverse_cons]
  | @members key value members text rest h hrest ih ihrest =>
      rcases ih with ⟨tokens, hcut, hread⟩
      rcases ihrest with ⟨more, hcutMore, hreadMore⟩
      refine ⟨tokens ++ .comma :: more,
        hcut.append (cut_comma hcutMore) fun _ _ => .cons rfl _, fun before stack => ?_⟩
      have hbehind := hreadMore ((key, value) :: before) stack
      rw [List.reverse_cons, List.append_assoc] at hbehind
      rw [List.append_assoc]
      exact (hread before stack).append (.cons rfl hbehind)

/-- Every text of a value is read as the value. -/
theorem IsText.parse?_eq {text : String} {value : Value} (h : IsText text value) :
    parse? text = some value := by
  rcases Written.read h with ⟨tokens, hcut, hread⟩
  have htokens : tokens? text.toList = some tokens := by
    have hall := hcut [] [] ends_nil
    rw [List.append_nil, List.append_nil, tokensOnto_eq tokens.reverse] at hall
    rw [tokens?, hall, List.dropWhile_nil]
    exact congrArg some (List.reverse_reverse tokens)
  have htakes := hread []
  rw [Takes] at htakes
  rw [parse?, htokens, Option.bind_eq_bind, Option.bind_some, ofTokens?, htakes]
  rfl

/-- A text has no second value. -/
theorem IsText.unique {text : String} {value other : Value} (h : IsText text value)
    (hother : IsText text other) : value = other := by
  have hvalue := h.parse?_eq
  rw [hother.parse?_eq, Option.some.injEq] at hvalue
  exact hvalue.symm

end Json

end SymbolLocator
