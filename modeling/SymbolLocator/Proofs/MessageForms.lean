import Mathlib.Data.List.Pairwise
import SymbolLocator.Text.Hex

/-!
# Forms of Messages

When a message can be traced back to what it tells.

A message is made of words that are always the same, and of numbers and texts
that are not. Whoever reads it later has no marks to go by: a number may be
followed by a word that looks like more digits, and two kinds of message may be
the same text for some contents. So two questions are asked of a list of kinds.
Can the contents be read off a message whose kind is known? And is a message
never of two kinds?

Both are answered without the contents. The outline of a kind of message has a
mark for every character of its words, and one mark for a number, whatever its
digits are. Two outlines are compared mark by mark up to the first place where
no text can follow both. That a number may be compared with a number there is
the one point that needs an argument: if both end where a character follows that
is no digit, they have the same digits, and the comparison goes on behind them.
With any text, which may only stand at the end, nothing can be compared.

Numbers are decimal or hexadecimal, with or without zeros in front. All digits
are among the hexadecimal ones, so one notion of a digit serves for both.

## Main definitions

* `ofDigits`: The number that digits stand for.
* `Numeral`: How a number is written.
* `Place`, `Contents`: The places of a message, and what stands in them.
* `write`, `text`: The message with some contents, as characters and as text.
* `Mark`, `outline`, `HasOutline`: What is seen of a message of some kind.
* `apart`: No text has both outlines.
* `readable`: The contents can be read off.
* `Wording`, `Tells`: A kind of message with what it tells.
* `Curried`, `uncurry`: What a kind of message tells, as a function of its
  contents one after the other.
* `Wording.Disjoint`: Kinds of messages with no text in common.
* `Unmistakable`: A list of kinds that are told apart and can be read.

## Theorems

* `toDigits_spec`: The digits of a number are digits, and stand for it.
* `not_hasOutline_of_apart`: Outlines that are apart have no text in common.
* `write_inj`: Readable messages have the same contents if they are the same.
* `Unmistakable.eq_of_tells`: Messages that are the same tell the same.
-/

namespace SymbolLocator

variable {α β : Type}

/-! ### Digits -/

/-- The digits of hexadecimal numbers. Those of decimal numbers are among
    them. -/
def digitChars : List Char :=
  ['0', '1', '2', '3', '4', '5', '6', '7', '8', '9', 'a', 'b', 'c', 'd', 'e', 'f']

/-- Whether a character may stand in a number. -/
def isDigitChar (char : Char) : Bool := digitChars.contains char

/-- The number that digits stand for. -/
def ofDigits (base : Nat) (digits : List Char) : Nat :=
  digits.foldl (fun number char => base * number + digitChars.idxOf char) 0

/-- At least one digit, and nothing else. -/
def IsRun (run : List Char) : Prop := run ≠ [] ∧ ∀ char ∈ run, isDigitChar char = true

theorem digitChar_below_sixteen : ∀ digit < 16,
    digitChars.idxOf digit.digitChar = digit ∧ isDigitChar digit.digitChar = true := by
  decide

theorem ofDigits_append_singleton (base : Nat) (digits : List Char) (char : Char) :
    ofDigits base (digits ++ [char]) = base * ofDigits base digits + digitChars.idxOf char := by
  simp [ofDigits, List.foldl_append]

/-- The digits of a number are digits, and stand for it. The induction is on the
    number, and the last digit is cut off. -/
theorem toDigits_spec {base : Nat} (hbase : 1 < base) (hle : base ≤ 16) (number : Nat) :
    IsRun (Nat.toDigits base number) ∧ ofDigits base (Nat.toDigits base number) = number := by
  induction number using Nat.strongRecOn with
  | ind number ih =>
      rw [Nat.toDigits_eq_if hbase]
      by_cases hdigit : number < base
      · have hlast := digitChar_below_sixteen number (by omega)
        rw [if_pos hdigit]
        simp [IsRun, ofDigits, hlast]
      · have hmod := Nat.mod_lt number (Nat.zero_lt_of_lt hbase)
        have hlast := digitChar_below_sixteen (number % base) (by omega)
        rcases ih (number / base) (Nat.div_lt_self (by omega) hbase) with ⟨hrun, hvalue⟩
        rw [if_neg hdigit]
        refine ⟨⟨by simp, fun char hmem => ?_⟩, ?_⟩
        · rcases List.mem_append.mp hmem with hmem | hmem
          · exact hrun.2 char hmem
          · rw [List.mem_singleton.mp hmem]
            exact hlast.2
        · rw [ofDigits_append_singleton, hvalue, hlast.1]
          exact Nat.div_add_mod number base

/-- Zeros in front of a number do not count. -/
theorem ofDigits_zeros_append (base count : Nat) (digits : List Char) :
    ofDigits base (List.replicate count '0' ++ digits) = ofDigits base digits := by
  have hzeros : ofDigits base (List.replicate count '0') = 0 := by
    induction count with
    | zero => rfl
    | succ count ih =>
        rw [List.replicate_succ', ofDigits_append_singleton, ih, Nat.mul_zero]
        rfl
  rw [ofDigits, List.foldl_append, ← ofDigits, hzeros, ofDigits]

/-! ### Numbers -/

/-- How a number is written. -/
inductive Numeral where
  | decimal
  /-- In hexadecimal, with at least `width` digits. -/
  | hexadecimal (width : Nat)

namespace Numeral

/-- The text of a number. -/
def text : Numeral → Nat → String
  | decimal, number => toString number
  | hexadecimal width, number => hex width number

/-- The digits of a number. -/
def digits : Numeral → Nat → List Char
  | decimal, number => Nat.toDigits 10 number
  | hexadecimal width, number => hexDigits width number

theorem toList_text (numeral : Numeral) (number : Nat) :
    (numeral.text number).toList = numeral.digits number := by
  cases numeral with
  | decimal =>
      show (toString number).toList = Nat.toDigits 10 number
      rw [Nat.toString_eq_ofList_toDigits, String.toList_ofList]
  | hexadecimal width => exact String.toList_ofList

theorem isRun_digits (numeral : Numeral) (number : Nat) : IsRun (numeral.digits number) := by
  cases numeral with
  | decimal => exact (toDigits_spec (by decide) (by decide) number).1
  | hexadecimal width =>
      rcases (toDigits_spec (by decide) (Nat.le_refl 16) number).1 with ⟨hne, hdigits⟩
      refine ⟨List.append_ne_nil_of_right_ne_nil _ hne, fun char hmem => ?_⟩
      rcases List.mem_append.mp hmem with hmem | hmem
      · rw [List.eq_of_mem_replicate hmem]
        decide
      · exact hdigits char hmem

/-- Numbers that are written alike are the same. -/
theorem digits_inj {numeral : Numeral} {a b : Nat} (h : numeral.digits a = numeral.digits b) :
    a = b := by
  cases numeral with
  | decimal =>
      rw [← (toDigits_spec (by decide) (by decide : 10 ≤ 16) a).2,
        ← (toDigits_spec (by decide) (by decide : 10 ≤ 16) b).2]
      exact congrArg (ofDigits 10) h
  | hexadecimal width =>
      have hvalue := congrArg (ofDigits 16) h
      simp only [digits, hexDigits, ofDigits_zeros_append] at hvalue
      rw [(toDigits_spec (by decide) (Nat.le_refl 16) a).2,
        (toDigits_spec (by decide) (Nat.le_refl 16) b).2] at hvalue
      exact hvalue

end Numeral

/-! ### Places -/

/-- Words of a message, with their characters. Outlines are compared by these,
    so that no text has to be taken apart for it. -/
structure Words where
  text : String
  chars : List Char
  spelled : String.ofList chars = text

/-- A place of a message. -/
inductive Place where
  /-- The same words in every message of the kind. -/
  | words (words : Words)
  | number (numeral : Numeral)
  /-- Any text. -/
  | anything

/-- A place for words. -/
def Place.say (text : String) {chars : List Char} (spelled : String.ofList chars = text := by rfl) :
    Place :=
  .words ⟨text, chars, spelled⟩

/-- What stands in the places that may differ from message to message. -/
def Contents : List Place → Type
  | [] => Unit
  | .words _ :: places => Contents places
  | .number _ :: places => Nat × Contents places
  | .anything :: places => String × Contents places

/-- The characters of the message with some contents. -/
def write : (places : List Place) → Contents places → List Char
  | [], _ => []
  | .words words :: places, contents => words.chars ++ write places contents
  | .number numeral :: places, contents => numeral.digits contents.1 ++ write places contents.2
  | .anything :: places, contents => contents.1.toList ++ write places contents.2

/-- A text that goes on with a message. -/
def textBehind (front : String) : (places : List Place) → Contents places → String
  | [], _ => front
  | .words words :: places, contents => textBehind (front ++ words.text) places contents
  | .number numeral :: places, contents =>
    textBehind (front ++ numeral.text contents.1) places contents.2
  | .anything :: places, contents => textBehind (front ++ contents.1) places contents.2

/-- The message with some contents, put together from left to right. -/
def text : (places : List Place) → Contents places → String
  | .words words :: places, contents => textBehind words.text places contents
  | places, contents => textBehind "" places contents

theorem Words.toList_text (words : Words) : words.text.toList = words.chars := by
  rw [← words.spelled, String.toList_ofList]

theorem toList_textBehind (front : String) (places : List Place) (contents : Contents places) :
    (textBehind front places contents).toList = front.toList ++ write places contents := by
  induction places generalizing front with
  | nil => exact (List.append_nil _).symm
  | cons place places ih =>
      cases place with
      | words words =>
          have hrest := ih (front ++ words.text) contents
          rw [String.toList_append, words.toList_text, List.append_assoc] at hrest
          exact hrest
      | number numeral =>
          have hrest := ih (front ++ numeral.text contents.1) contents.2
          rw [String.toList_append, numeral.toList_text, List.append_assoc] at hrest
          exact hrest
      | anything =>
          have hrest := ih (front ++ contents.1) contents.2
          rw [String.toList_append, List.append_assoc] at hrest
          exact hrest

theorem toList_text (places : List Place) (contents : Contents places) :
    (text places contents).toList = write places contents := by
  unfold text
  split
  · rename_i words places contents
    have hrest := toList_textBehind words.text places contents
    rw [words.toList_text] at hrest
    exact hrest
  · exact toList_textBehind "" _ _

/-! ### Outlines -/

/-- What is seen of a message of some kind, without its contents. -/
inductive Mark where
  | char (char : Char)
  | digits
  | anything

/-- The marks of a kind of message. Behind any text, nothing is seen. -/
def outline : List Place → List Mark
  | [] => []
  | .words words :: places => words.chars.map .char ++ outline places
  | .number _ :: places => .digits :: outline places
  | .anything :: _ => [.anything]

/-- The text has the outline. -/
def HasOutline : List Mark → List Char → Prop
  | [], text => text = []
  | .char char :: marks, text => ∃ rest, text = char :: rest ∧ HasOutline marks rest
  | .digits :: marks, text => ∃ run rest, text = run ++ rest ∧ IsRun run ∧ HasOutline marks rest
  | .anything :: _, _ => True

theorem hasOutline_map_char_append {marks : List Mark} {text : List Char}
    (h : HasOutline marks text) (chars : List Char) :
    HasOutline (chars.map .char ++ marks) (chars ++ text) := by
  induction chars with
  | nil => exact h
  | cons char chars ih => exact ⟨_, rfl, ih⟩

theorem hasOutline_write (places : List Place) (contents : Contents places) :
    HasOutline (outline places) (write places contents) := by
  induction places with
  | nil => rfl
  | cons place places ih =>
      cases place with
      | words words => exact hasOutline_map_char_append (ih contents) words.chars
      | number numeral => exact ⟨_, _, rfl, numeral.isRun_digits contents.1, ih contents.2⟩
      | anything => trivial

/-- Whether a number ends in front of the outline. -/
def endsRun : List Mark → Bool
  | [] => true
  | .char char :: _ => !isDigitChar char
  | _ => false

/-- Whether a text with the one outline never has the other. -/
def apart : List Mark → List Mark → Bool
  | .char char :: left, .char other :: right => char != other || apart left right
  | .char char :: _, .digits :: _ => !isDigitChar char
  | .digits :: _, .char char :: _ => !isDigitChar char
  | .digits :: left, .digits :: right => endsRun left && endsRun right && apart left right
  | .anything :: _, _ => false
  | _, .anything :: _ => false
  | [], right => !right.isEmpty
  | _ :: _, [] => true

theorem head_of_endsRun {marks : List Mark} {text : List Char} (hends : endsRun marks = true)
    (h : HasOutline marks text) : ∀ char ∈ text.head?, isDigitChar char = false := by
  cases marks with
  | nil =>
      rw [HasOutline] at h
      simp [h]
  | cons mark marks =>
      cases mark with
      | char char =>
          rcases h with ⟨rest, rfl, -⟩
          simpa [endsRun] using hends
      | digits => simp [endsRun] at hends
      | anything => simp [endsRun] at hends

/-- Digits in front of the same text are the same, if no digit follows on either
    side. The induction is on the digits of one side. -/
theorem run_unique {run other left right : List Char} (hrun : ∀ char ∈ run, isDigitChar char = true)
    (hother : ∀ char ∈ other, isDigitChar char = true)
    (hleft : ∀ char ∈ left.head?, isDigitChar char = false)
    (hright : ∀ char ∈ right.head?, isDigitChar char = false) (h : run ++ left = other ++ right) :
    run = other ∧ left = right := by
  induction run generalizing other with
  | nil =>
      cases other with
      | nil => exact ⟨rfl, h⟩
      | cons char other =>
          rw [List.nil_append] at h
          have hchar := hleft char (by simp [h])
          simp [hother char List.mem_cons_self] at hchar
  | cons char run ih =>
      cases other with
      | nil =>
          rw [List.nil_append] at h
          have hchar := hright char (by simp [← h])
          simp [hrun char List.mem_cons_self] at hchar
      | cons first other =>
          rw [List.cons_append, List.cons_append, List.cons.injEq] at h
          rcases ih (fun c hc => hrun c (List.mem_cons_of_mem _ hc))
            (fun c hc => hother c (List.mem_cons_of_mem _ hc)) h.2 with ⟨hrest, hbehind⟩
          rw [h.1, hrest]
          exact ⟨rfl, hbehind⟩

theorem eq_of_endsRun {run other left right : List Char} {marks others : List Mark}
    (hrun : IsRun run) (hother : IsRun other) (hends : endsRun marks = true)
    (hends' : endsRun others = true) (hleft : HasOutline marks left)
    (hright : HasOutline others right) (h : run ++ left = other ++ right) :
    run = other ∧ left = right :=
  run_unique hrun.2 hother.2 (head_of_endsRun hends hleft) (head_of_endsRun hends' hright) h

theorem ne_of_isRun {run rest text : List Char} {char : Char} (hrun : IsRun run)
    (hchar : isDigitChar char = false) : run ++ rest ≠ char :: text := by
  intro h
  cases run with
  | nil => exact hrun.1 rfl
  | cons first run =>
      rw [List.cons_append, List.cons.injEq] at h
      have hfirst := hrun.2 first List.mem_cons_self
      rw [h.1, hchar] at hfirst
      exact Bool.false_ne_true hfirst

/-- Only a place for any text can be empty. -/
theorem eq_anything_of_hasOutline_nil {mark : Mark} {marks : List Mark}
    (h : HasOutline (mark :: marks) []) : mark = .anything := by
  cases mark with
  | char char =>
      rcases h with ⟨rest, hrest, -⟩
      exact absurd hrest (List.cons_ne_nil _ _).symm
  | digits =>
      rcases h with ⟨run, rest, hrest, hrun, -⟩
      exact absurd (List.append_eq_nil_iff.mp hrest.symm).1 hrun.1
  | anything => rfl

/-- Outlines that are apart have no text in common. The cases are those of
    comparing them. -/
theorem not_hasOutline_of_apart {left right : List Mark} (hapart : apart left right = true)
    {text : List Char} (hleft : HasOutline left text) : ¬ HasOutline right text := by
  intro hright
  fun_induction apart left right generalizing text with
  | case1 char left other right ih =>
      rcases hleft with ⟨rest, rfl, hleft⟩
      rcases hright with ⟨rest', hrest, hright⟩
      rw [List.cons.injEq] at hrest
      rw [← hrest.2] at hright
      rw [hrest.1, bne_self_eq_false, Bool.false_or] at hapart
      exact ih hapart hleft hright
  | case2 char left right =>
      rcases hleft with ⟨rest, rfl, -⟩
      rcases hright with ⟨run, rest', hrest, hrun, -⟩
      exact ne_of_isRun hrun (Bool.not_eq_true' _ ▸ hapart) hrest.symm
  | case3 left char right =>
      rcases hleft with ⟨run, rest, rfl, hrun, -⟩
      rcases hright with ⟨rest', hrest, -⟩
      exact ne_of_isRun hrun (Bool.not_eq_true' _ ▸ hapart) hrest
  | case4 left right ih =>
      rcases hleft with ⟨run, rest, rfl, hrun, hleft⟩
      rcases hright with ⟨other, rest', hrest, hother, hright⟩
      rw [Bool.and_eq_true, Bool.and_eq_true] at hapart
      rcases eq_of_endsRun hrun hother hapart.1.1 hapart.1.2 hleft hright hrest with ⟨-, rfl⟩
      exact ih hapart.2 hleft hright
  | case5 => exact Bool.false_ne_true hapart
  | case6 => exact Bool.false_ne_true hapart
  | case7 right hanything =>
      rw [HasOutline] at hleft
      subst hleft
      cases right with
      | nil => exact Bool.false_ne_true hapart
      | cons mark marks =>
          rw [eq_anything_of_hasOutline_nil hright] at hanything
          exact hanything marks rfl
  | case8 mark marks hanything =>
      rw [HasOutline] at hright
      subst hright
      exact hanything (eq_anything_of_hasOutline_nil hleft)

/-- Whether the contents can be read off a message. -/
def readable : List Place → Bool
  | [] => true
  | .words _ :: places => readable places
  | .number _ :: places => endsRun (outline places) && readable places
  | .anything :: places => places.isEmpty

/-- Messages with the same places are different if their contents are. -/
theorem write_inj {places : List Place} (hreadable : readable places = true)
    {a b : Contents places} (h : write places a = write places b) : a = b := by
  induction places with
  | nil => rfl
  | cons place places ih =>
      cases place with
      | words words => exact ih hreadable (List.append_cancel_left h)
      | number numeral =>
          rw [readable, Bool.and_eq_true] at hreadable
          rcases eq_of_endsRun (numeral.isRun_digits a.1) (numeral.isRun_digits b.1)
            hreadable.1 hreadable.1 (hasOutline_write places a.2) (hasOutline_write places b.2) h
            with ⟨hnumber, hrest⟩
          exact Prod.ext (Numeral.digits_inj hnumber) (ih hreadable.2 hrest)
      | anything =>
          rw [readable, List.isEmpty_iff] at hreadable
          subst hreadable
          rw [write, write, write, write, List.append_nil, List.append_nil, String.toList_inj] at h
          exact Prod.ext h rfl

/-! ### Wordings -/

/-- A kind of message, with what it tells. -/
structure Wording (α : Type) where
  places : List Place
  tells : Contents places → α

/-- A function of the contents, one after the other. -/
def Curried (α : Type) : List Place → Type
  | [] => α
  | .words _ :: places => Curried α places
  | .number _ :: places => Nat → Curried α places
  | .anything :: places => String → Curried α places

/-- The value of the function at some contents. -/
def uncurry : (places : List Place) → Curried α places → Contents places → α
  | [], value, _ => value
  | .words _ :: places, f, contents => uncurry places f contents
  | .number _ :: places, f, contents => uncurry places (f contents.1) contents.2
  | .anything :: places, f, contents => uncurry places (f contents.1) contents.2

namespace Wording

/-- The messages with these places, as telling a value of their contents. -/
def of (places : List Place) (f : Curried α places) : Wording α := ⟨places, uncurry places f⟩

/-- The same messages, as telling something else. -/
def as (f : α → β) (wording : Wording α) : Wording β :=
  ⟨wording.places, fun contents => f (wording.tells contents)⟩

/-- The same messages behind more words, as telling something else. -/
def behind (front : Words) (f : α → β) (wording : Wording α) : Wording β :=
  ⟨.words front :: wording.places, fun contents => f (wording.tells contents)⟩

end Wording

/-- The message tells the value, in one of the wordings. -/
def Tells (wordings : List (Wording α)) (message : String) (value : α) : Prop :=
  ∃ wording ∈ wordings, ∃ contents : Contents wording.places,
    message = text wording.places contents ∧ wording.tells contents = value

namespace Tells

variable {wordings : List (Wording α)} {message : String} {value : α}

theorem of_getElem? {wording : Wording α} (i : Nat) (h : wordings[i]? = some wording)
    (contents : Contents wording.places) (hmessage : message = text wording.places contents)
    (hvalue : wording.tells contents = value) : Tells wordings message value :=
  ⟨wording, List.mem_of_getElem? h, contents, hmessage, hvalue⟩

theorem append_left (h : Tells wordings message value) (others : List (Wording α)) :
    Tells (wordings ++ others) message value := by
  rcases h with ⟨wording, hmem, hcontents⟩
  exact ⟨wording, List.mem_append_left _ hmem, hcontents⟩

theorem append_right (h : Tells wordings message value) (others : List (Wording α)) :
    Tells (others ++ wordings) message value := by
  rcases h with ⟨wording, hmem, hcontents⟩
  exact ⟨wording, List.mem_append_right _ hmem, hcontents⟩

theorem as (h : Tells wordings message value) (f : α → β) :
    Tells (wordings.map (.as f)) message (f value) := by
  rcases h with ⟨wording, hmem, contents, hmessage, rfl⟩
  exact ⟨wording.as f, List.mem_map_of_mem hmem, contents, hmessage, rfl⟩

theorem behind (h : Tells wordings message value) (front : Words) (f : α → β) :
    Tells (wordings.map (.behind front f)) (front.text ++ message) (f value) := by
  rcases h with ⟨wording, hmem, contents, rfl, rfl⟩
  refine ⟨wording.behind front f, List.mem_map_of_mem hmem, contents, ?_, rfl⟩
  have hmore : (text (.words front :: wording.places) contents).toList =
      front.chars ++ write wording.places contents :=
    toList_text (.words front :: wording.places) contents
  rw [← front.toList_text, ← toList_text wording.places, ← String.toList_append,
    String.toList_inj] at hmore
  exact hmore.symm

end Tells

/-- No message is in two of the wordings, and its contents can be read off. -/
structure Unmistakable (wordings : List (Wording α)) : Prop where
  readable : ∀ wording ∈ wordings, readable wording.places = true
  apart : wordings.Pairwise fun wording other =>
    apart (outline wording.places) (outline other.places) = true

/-- Two kinds of message have no text in common. -/
def Wording.Disjoint (wording other : Wording α) : Prop :=
  ∀ chars, HasOutline (outline wording.places) chars → ¬ HasOutline (outline other.places) chars

instance : Std.Symm (@Wording.Disjoint α) :=
  ⟨fun _ _ h chars hother hwording => h chars hwording hother⟩

/-- A message tells one value only. -/
theorem Unmistakable.eq_of_tells {wordings : List (Wording α)} (h : Unmistakable wordings)
    {message : String} {a b : α} (ha : Tells wordings message a) (hb : Tells wordings message b) :
    a = b := by
  rcases ha with ⟨wording, hmem, contents, rfl, rfl⟩
  rcases hb with ⟨other, hmem', contents', hmessage, rfl⟩
  have hwrite := congrArg String.toList hmessage
  rw [toList_text, toList_text] at hwrite
  have hdisjoint : wordings.Pairwise Wording.Disjoint :=
    h.apart.imp fun hapart chars hleft => not_hasOutline_of_apart hapart hleft
  by_cases hsame : wording = other
  · subst hsame
    rw [write_inj (h.readable wording hmem) hwrite]
  · have hother := hasOutline_write other.places contents'
    rw [← hwrite] at hother
    exact absurd hother
      (hdisjoint.forall hmem hmem' hsame _ (hasOutline_write wording.places contents))

end SymbolLocator
