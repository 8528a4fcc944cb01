import Mathlib.Data.List.TakeWhile
import SymbolLocator.Proofs.JsonGrammar

/-!
# What the JSON Reader Accepts

The reader reads every text of the grammar. It reads nothing else: whatever it
makes a value of is a text of that value.

The tokens of a text spell it, with blanks in front of each and behind the last.
That is a fact about each lexeme, and of cutting one after the other. What the
machine has read is said of its states. Every state stands for the texts that
lead to it, which are made of what the open containers hold already, and one
token more leads to a text of the next state. The items of a container are
collected from the front while the grammar has them from the back, so closing a
container is where the two are reconciled: whatever follows the items that were
read, all of them together are items.

## Main definitions

* `Json.Spelling`: The text of a token.
* `Json.Spelled`: A text of some tokens.
* `Json.Opened`: A text that ends where a value or a key is expected.
* `Json.State.Consumed`: A text that leads to a state.

## Theorems

* `Json.spelled_of_tokens?`: The tokens of a text spell it.
* `Json.Opened.closeArray`, `Json.Opened.closeObject`: What is read of a
  container, when it ends.
* `Json.State.consumed_step`: One token leads to a text of the next state.
* `Json.Takes.consumed`: And so do all of them.
* `Json.parse?_eq_some_iff`: The reader reads the grammar.
-/

namespace SymbolLocator

namespace Json

/-! ### Numbers -/

theorem digits_of_readDigits? {text digits rest : List Char}
    (h : readDigits? text = some (digits, rest)) : Digits digits ∧ text = digits ++ rest := by
  unfold readDigits? at h
  split at h
  · exact nomatch h
  · next hdigits =>
    simp only [Option.some.injEq, Prod.mk.injEq] at h
    rcases h with ⟨rfl, rfl⟩
    exact ⟨⟨hdigits, fun char hchar => isDigit_iff.mp (List.mem_takeWhile_imp hchar)⟩,
      List.takeWhile_append_dropWhile.symm⟩

theorem minus_of_readMinus (text : List Char) :
    ((readMinus text).1 = [] ∨ (readMinus text).1 = ['-']) ∧
      text = (readMinus text).1 ++ (readMinus text).2 := by
  unfold readMinus
  split
  · exact ⟨Or.inr rfl, rfl⟩
  · exact ⟨Or.inl rfl, rfl⟩

theorem sign_of_readSign (text : List Char) :
    ((readSign text).1 = [] ∨ (readSign text).1 = ['+'] ∨ (readSign text).1 = ['-']) ∧
      text = (readSign text).1 ++ (readSign text).2 := by
  unfold readSign
  split
  · exact ⟨Or.inr (Or.inl rfl), rfl⟩
  · rcases minus_of_readMinus text with ⟨hnone | hminus, happend⟩
    · exact ⟨Or.inl hnone, happend⟩
    · exact ⟨Or.inr (Or.inr hminus), happend⟩

theorem wholeText_of_readWhole? {text whole rest : List Char}
    (h : readWhole? text = some (whole, rest)) : WholeText whole ∧ text = whole ++ rest := by
  unfold readWhole? at h
  split at h
  · rcases h with ⟨⟩
    exact ⟨.zero, rfl⟩
  · next hzero =>
    rcases digits_of_readDigits? h with ⟨hdigits, rfl⟩
    refine ⟨?_, rfl⟩
    cases whole with
    | nil => exact absurd rfl hdigits.1
    | cons first others => exact .digits hdigits fun hfirst => hzero _ (by rw [hfirst]; rfl)

theorem fractionText_of_readFraction? {text fraction rest : List Char}
    (h : readFraction? text = some (fraction, rest)) :
    FractionText fraction ∧ text = fraction ++ rest := by
  unfold readFraction? at h
  split at h
  · rcases Option.map_eq_some_iff.mp h with ⟨⟨digits, tail⟩, hread, ⟨⟩⟩
    rcases digits_of_readDigits? hread with ⟨hdigits, rfl⟩
    exact ⟨.some hdigits, rfl⟩
  · rcases h with ⟨⟩
    exact ⟨.none, rfl⟩

theorem exponentText_of_readExponent? {text exponent rest : List Char}
    (h : readExponent? text = some (exponent, rest)) :
    ExponentText exponent ∧ text = exponent ++ rest := by
  unfold readExponent? at h
  split at h
  · rcases h with ⟨⟩
    exact ⟨.none, rfl⟩
  · next mark tail =>
    by_cases hmark : mark = 'e' ∨ mark = 'E'
    · rw [if_pos hmark] at h
      simp only [Option.map_eq_some_iff, Prod.mk.injEq, Prod.exists] at h
      rcases h with ⟨digits, last, hread, rfl, rfl⟩
      rcases digits_of_readDigits? hread with ⟨hdigits, hrest⟩
      rcases sign_of_readSign tail with ⟨hsign, htail⟩
      refine ⟨.some hmark hsign hdigits, ?_⟩
      rw [hrest] at htail
      rw [List.cons_append, List.cons_append, List.append_assoc, ← htail]
    · rw [if_neg hmark] at h
      rcases h with ⟨⟩
      exact ⟨.none, rfl⟩

theorem numberText_of_readNumber? {text literal rest : List Char}
    (h : readNumber? text = some (literal, rest)) :
    NumberText literal ∧ text = literal ++ rest := by
  simp only [readNumber?, bind, Option.bind_eq_some_iff, Prod.exists, pure, Option.some.injEq,
    Prod.mk.injEq] at h
  rcases h with ⟨whole, afterWhole, hreadWhole, fraction, afterFraction, hreadFraction, exponent,
    afterExponent, hreadExponent, rfl, rfl⟩
  rcases minus_of_readMinus text with ⟨hminus, htext⟩
  rcases wholeText_of_readWhole? hreadWhole with ⟨hwhole, hafter⟩
  rcases fractionText_of_readFraction? hreadFraction with ⟨hfraction, rfl⟩
  rcases exponentText_of_readExponent? hreadExponent with ⟨hexponent, rfl⟩
  refine ⟨.intro hminus hwhole hfraction hexponent, ?_⟩
  rw [hafter] at htext
  rw [List.append_assoc, List.append_assoc, List.append_assoc, ← htext]

/-! ### Strings -/

-- Every character that is read as a digit is among the first 128, and those are compared.
theorem hexDigit_of_hexDigit? {char : Char} {value : Nat} (h : hexDigit? char = some value) :
    HexDigit char value := by
  have hall : (List.range 0x80).all (fun number => (hexDigit? (Char.ofNat number)).all
      fun value => HexDigit (Char.ofNat number) value) = true := by
    decide +kernel
  have hlt : char.toNat < 0x80 := by
    by_contra hge
    have hnot : ∀ bound : Char, bound.toNat < 0x80 → ¬ char ≤ bound := by
      intro bound hbound hle
      have hnumber : char.toNat ≤ bound.toNat := hle
      exact hge (Nat.lt_of_le_of_lt hnumber hbound)
    rw [hexDigit?, if_neg fun hdigit => hnot '9' (by decide) hdigit.2,
      if_neg fun hdigit => hnot 'f' (by decide) hdigit.2,
      if_neg fun hdigit => hnot 'F' (by decide) hdigit.2] at h
    exact nomatch h
  have hchar := List.all_eq_true.mp hall char.toNat (List.mem_range.mpr hlt)
  rw [Char.ofNat_toNat, h, Option.all_some, decide_eq_true_iff] at hchar
  exact hchar

theorem mem_shortEscapes_of_escaped? {char denoted : Char} (h : escaped? char = some denoted) :
    (char, denoted) ∈ shortEscapes := by
  unfold escaped? at h
  split at h
  all_goals
    first
    | exact absurd h (Option.some_ne_none denoted).symm
    | rcases h with ⟨⟩
      decide

theorem hexDigits_of_hexUnit? {a b c d : Char} {unit : UInt16}
    (h : hexUnit? a b c d = some unit) :
    ∃ w x y z, HexDigit a w ∧ HexDigit b x ∧ HexDigit c y ∧ HexDigit d z ∧
      unit = UInt16.ofNat (w * 0x1000 + x * 0x100 + y * 0x10 + z) := by
  simp only [hexUnit?, bind, Option.bind_eq_some_iff, pure, Option.some.injEq] at h
  rcases h with ⟨w, ha, x, hb, y, hc, z, hd, rfl⟩
  refine ⟨w, x, y, z, hexDigit_of_hexDigit? ha, hexDigit_of_hexDigit? hb,
    hexDigit_of_hexDigit? hc, hexDigit_of_hexDigit? hd, congrArg UInt16.ofNat ?_⟩
  omega

theorem stringText_of_readString? {before units : List UInt16} {text rest : List Char}
    (h : readString? before text = some (units, rest)) :
    ∃ added body, StringText added body ∧ units = before.reverse ++ added ∧
      text = body ++ '"' :: rest := by
  fun_induction readString? before text with
  | case1 => exact absurd h (Option.some_ne_none _).symm
  | case2 before tail =>
      rcases h with ⟨⟩
      exact ⟨[], [], .nil, (List.append_nil _).symm, rfl⟩
  | case3 => exact absurd h (Option.some_ne_none _).symm
  | case4 before a b c d tail unit hunit ih =>
      rcases ih h with ⟨added, body, hbody, hunits, rfl⟩
      rcases hexDigits_of_hexUnit? hunit with ⟨w, x, y, z, ha, hb, hc, hd, rfl⟩
      refine ⟨_ :: added, _, .unit ha hb hc hd hbody, ?_, rfl⟩
      rw [hunits, List.reverse_cons, List.append_assoc, List.singleton_append]
  | case5 => exact absurd h (Option.some_ne_none _).symm
  | case6 before char tail hpart denoted hdenoted ih =>
      rcases ih h with ⟨added, body, hbody, hunits, rfl⟩
      refine ⟨_ ++ added, _, .short (mem_shortEscapes_of_escaped? hdenoted) hbody, ?_, rfl⟩
      rw [hunits, List.reverse_append, List.reverse_reverse, List.append_assoc]
  | case7 => exact absurd h (Option.some_ne_none _).symm
  | case8 before char tail hquote hunit hescape hplain ih =>
      rcases ih h with ⟨added, body, hbody, hunits, rfl⟩
      rcases not_or.mp hplain with ⟨hcontrol, hbackslash⟩
      refine ⟨_ ++ added, _, .plain (Nat.le_of_not_lt hcontrol) hquote hbackslash hbody, ?_, rfl⟩
      rw [hunits, List.reverse_append, List.reverse_reverse, List.append_assoc]

/-! ### Tokens -/

/-- The text of a token. -/
inductive Spelling : Token → List Char → Prop
  | openObject : Spelling .openObject ['\x7b']
  | closeObject : Spelling .closeObject ['\x7d']
  | openArray : Spelling .openArray ['[']
  | closeArray : Spelling .closeArray [']']
  | colon : Spelling .colon [':']
  | comma : Spelling .comma [',']
  | nullName : Spelling .null ['n', 'u', 'l', 'l']
  | trueName : Spelling (.bool true) ['t', 'r', 'u', 'e']
  | falseName : Spelling (.bool false) ['f', 'a', 'l', 's', 'e']
  | number {literal : List Char} (h : NumberText literal) : Spelling (.number literal) literal
  | string {units : List UInt16} {text : List Char} (h : StringText units text) :
    Spelling (.string units) ('"' :: (text ++ ['"']))

/-- A text of some tokens, with blanks in front of each and behind the last. -/
inductive Spelled : List Token → List Char → Prop
  | nil {blanks : List Char} (h : Blanks blanks) : Spelled [] blanks
  | cons {token : Token} {tokens : List Token} {blanks word text : List Char}
    (hblanks : Blanks blanks) (hword : Spelling token word) (h : Spelled tokens text) :
    Spelled (token :: tokens) (blanks ++ (word ++ text))

theorem spelling_of_token? {text rest : List Char} {token : Token}
    (h : token? text = some (token, rest)) : ∃ word, Spelling token word ∧ text = word ++ rest := by
  unfold token? at h
  split at h
  case h_10 =>
    rcases Option.map_eq_some_iff.mp h with ⟨⟨units, tail⟩, hread, ⟨⟩⟩
    rcases stringText_of_readString? hread with ⟨added, body, hbody, rfl, rfl⟩
    refine ⟨_, .string hbody, ?_⟩
    rw [List.cons_append, List.append_assoc, List.singleton_append]
  case h_11 =>
    rcases Option.map_eq_some_iff.mp h with ⟨⟨literal, tail⟩, hread, ⟨⟩⟩
    rcases numberText_of_readNumber? hread with ⟨hliteral, rfl⟩
    exact ⟨_, .number hliteral, rfl⟩
  all_goals
    rcases h with ⟨⟩
    exact ⟨_, by constructor, rfl⟩

theorem blanks_takeWhile (text : List Char) : Blanks (text.takeWhile isBlank) :=
  fun _ hmem => isBlank_iff.mp (List.mem_takeWhile_imp hmem)

/-- The tokens of a text spell it. The induction is on the text, and cutting off a
    token leaves less of it. -/
theorem spelled_of_tokensOnto {found tokens : List Token} {text : List Char}
    (h : tokensOnto found text = some tokens) :
    ∃ more, tokens = found.reverse ++ more ∧ Spelled more text := by
  induction hlength : text.length using Nat.strong_induction_on generalizing found text with
  | _ length ih =>
      subst hlength
      have htext := (List.takeWhile_append_dropWhile : text.takeWhile isBlank ++ _ = text)
      have hblanks := blanks_takeWhile text
      have hskip := length_skipBlanks_le text
      rw [tokensOnto_eq] at h
      cases hdrop : text.dropWhile isBlank with
      | nil =>
          rw [hdrop, Option.some.injEq] at h
          rw [hdrop, List.append_nil] at htext
          refine ⟨[], ?_, htext ▸ .nil hblanks⟩
          rw [← h, List.append_nil]
      | cons char rest =>
          rw [hdrop] at h htext hskip
          rcases Option.bind_eq_some_iff.mp h with ⟨⟨token, tail⟩, htoken, honto⟩
          have hless := length_token_lt htoken
          rcases ih tail.length (by omega) honto rfl with ⟨more, rfl, hmore⟩
          rcases spelling_of_token? htoken with ⟨word, hword, hrest⟩
          refine ⟨token :: more, ?_, ?_⟩
          · rw [List.reverse_cons, List.append_assoc, List.singleton_append]
          · rw [← htext, hrest]
            exact .cons hblanks hword hmore

theorem spelled_of_tokens? {text : List Char} {tokens : List Token}
    (h : tokens? text = some tokens) : Spelled tokens text := by
  rcases spelled_of_tokensOnto h with ⟨more, rfl, hmore⟩
  exact hmore

/-! ### Containers -/

/-- Where the machine is between the values and keys of a text. -/
inductive Place where
  /-- In front of a value. -/
  | value (stack : List Frame)
  /-- In front of a key. -/
  | key (before : List (List UInt16 × Value)) (stack : List Frame)

/-- A text that ends at a place. -/
inductive Opened : Place → List Char → Prop
  | nothing : Opened (.value []) []
  | array {stack : List Frame} {text blanks : List Char} (h : Opened (.value stack) text)
    (hblanks : Blanks blanks) : Opened (.value (.item [] :: stack)) (text ++ (blanks ++ ['[']))
  | item {before : List Value} {value : Value} {stack : List Frame} {text more : List Char}
    (h : Opened (.value (.item before :: stack)) text) (hmore : Written (.padded value) more) :
    Opened (.value (.item (value :: before) :: stack)) (text ++ (more ++ [',']))
  | object {stack : List Frame} {text blanks : List Char} (h : Opened (.value stack) text)
    (hblanks : Blanks blanks) : Opened (.key [] stack) (text ++ (blanks ++ ['\x7b']))
  | colon {before : List (List UInt16 × Value)} {key : List UInt16} {stack : List Frame}
    {text blanks name between : List Char} (h : Opened (.key before stack) text)
    (hblanks : Blanks blanks) (hname : StringText key name) (hbetween : Blanks between) :
    Opened (.value (.member before key :: stack))
      (text ++ (blanks ++ '"' :: (name ++ '"' :: (between ++ [':']))))
  | member {before : List (List UInt16 × Value)} {key : List UInt16} {value : Value}
    {stack : List Frame} {text more : List Char}
    (h : Opened (.value (.member before key :: stack)) text)
    (hmore : Written (.padded value) more) :
    Opened (.key ((key, value) :: before) stack) (text ++ (more ++ [',']))

/-- Whatever items follow those that were read of an array, all of them together are
    items. The induction is on those that were read. -/
theorem Opened.items {before values : List Value} {stack : List Frame} {text tail : List Char}
    (h : Opened (.value (.item before :: stack)) text) (htail : Written (.items values) tail) :
    ∃ outer blanks all, Opened (.value stack) outer ∧ Blanks blanks ∧
      Written (.items (before.reverse ++ values)) all ∧
      text ++ tail = outer ++ (blanks ++ '[' :: all) := by
  induction before generalizing values text tail with
  | nil =>
      cases h with
      | @array _ outer blanks houter hblanks =>
          refine ⟨outer, blanks, tail, houter, hblanks, htail, ?_⟩
          rw [List.append_assoc, List.append_assoc, List.singleton_append]
  | cons value before ih =>
      cases h with
      | item h hmore =>
          rcases ih h (.items hmore htail) with ⟨outer, blanks, all, houter, hblanks, hall, heq⟩
          refine ⟨outer, blanks, all, houter, hblanks, ?_, ?_⟩
          · rw [List.reverse_cons, List.append_assoc, List.singleton_append]
            exact hall
          · rw [← heq, List.append_assoc, List.append_assoc, List.singleton_append]

/-- Whatever members follow those that were read of an object, all of them together
    are members. The induction is on those that were read. -/
theorem Opened.members {before pairs : List (List UInt16 × Value)} {stack : List Frame}
    {text tail : List Char} (h : Opened (.key before stack) text)
    (htail : Written (.members pairs) tail) :
    ∃ outer blanks all, Opened (.value stack) outer ∧ Blanks blanks ∧
      Written (.members (before.reverse ++ pairs)) all ∧
      text ++ tail = outer ++ (blanks ++ '\x7b' :: all) := by
  induction before generalizing pairs text tail with
  | nil =>
      cases h with
      | @object _ outer blanks houter hblanks =>
          refine ⟨outer, blanks, tail, houter, hblanks, htail, ?_⟩
          rw [List.append_assoc, List.append_assoc, List.singleton_append]
  | cons pair before ih =>
      cases h with
      | member h hmore =>
          cases h with
          | colon h hblanks hname hbetween =>
              have hpair := Written.pair hblanks hname hbetween hmore
              rcases ih h (.members hpair htail) with
                ⟨outer, blanks, all, houter, hblanks, hall, heq⟩
              refine ⟨outer, blanks, all, houter, hblanks, ?_, ?_⟩
              · rw [List.reverse_cons, List.append_assoc, List.singleton_append]
                exact hall
              · rw [← heq]
                simp only [List.append_assoc, List.cons_append, List.nil_append]

/-! ### The machine -/

/-- A text that leads to the state. -/
def State.Consumed : State → List Char → Prop
  | .awaitsValue stack, text => Opened (.value stack) text
  | .awaitsFirstItem stack, text => Opened (.value (.item [] :: stack)) text
  | .awaitsFirstKey stack, text => Opened (.key [] stack) text
  | .awaitsKey before stack, text => Opened (.key before stack) text
  | .awaitsColon before key stack, text => ∃ outer blanks name, Opened (.key before stack) outer ∧
    Blanks blanks ∧ StringText key name ∧ text = outer ++ (blanks ++ '"' :: (name ++ ['"']))
  | .complete value stack, text => ∃ outer blanks word, Opened (.value stack) outer ∧
    Blanks blanks ∧ Written (.bare value) word ∧ text = outer ++ (blanks ++ word)

section Step

variable {next : State} {token : Token} {stack : List Frame} {text blanks word : List Char}

theorem consumed_begin (h : State.begin stack token = some next)
    (hopened : Opened (.value stack) text) (hblanks : Blanks blanks)
    (hword : Spelling token word) : next.Consumed (text ++ (blanks ++ word)) := by
  cases hword with
  | openObject =>
      rcases h with ⟨⟩
      exact .object hopened hblanks
  | openArray =>
      rcases h with ⟨⟩
      exact .array hopened hblanks
  | nullName =>
      rcases h with ⟨⟩
      exact ⟨text, blanks, _, hopened, hblanks, .nullName, rfl⟩
  | trueName =>
      rcases h with ⟨⟩
      exact ⟨text, blanks, _, hopened, hblanks, .trueName, rfl⟩
  | falseName =>
      rcases h with ⟨⟩
      exact ⟨text, blanks, _, hopened, hblanks, .falseName, rfl⟩
  | number hliteral =>
      rcases h with ⟨⟩
      exact ⟨text, blanks, _, hopened, hblanks, .number hliteral, rfl⟩
  | string hbody =>
      rcases h with ⟨⟩
      exact ⟨text, blanks, _, hopened, hblanks, .string hbody, rfl⟩
  | _ => exact nomatch h

theorem consumed_closeEmptyArray (h : Opened (.value (.item [] :: stack)) text)
    (hblanks : Blanks blanks) :
    (State.complete (.array []) stack).Consumed (text ++ (blanks ++ [']'])) := by
  cases h with
  | @array _ outer before houter hbefore =>
      refine ⟨outer, before, _, houter, hbefore, .emptyArray hblanks, ?_⟩
      rw [List.append_assoc, List.append_assoc, List.singleton_append]

theorem consumed_closeEmptyObject (h : Opened (.key [] stack) text) (hblanks : Blanks blanks) :
    (State.complete (.object []) stack).Consumed (text ++ (blanks ++ ['\x7d'])) := by
  cases h with
  | @object _ outer before houter hbefore =>
      refine ⟨outer, before, _, houter, hbefore, .emptyObject hblanks, ?_⟩
      rw [List.append_assoc, List.append_assoc, List.singleton_append]

/-- A value that is complete has its blanks behind it when the next token comes. -/
theorem exists_padded_of_consumed {value : Value}
    (h : (State.complete value stack).Consumed text) (hblanks : Blanks blanks) :
    ∃ outer padded, Opened (.value stack) outer ∧ Written (.padded value) padded ∧
      text ++ blanks = outer ++ padded := by
  rcases h with ⟨outer, before, word, houter, hbefore, hword, rfl⟩
  refine ⟨outer, _, houter, .padded hbefore hword hblanks, ?_⟩
  rw [List.append_assoc, List.append_assoc]

theorem consumed_comma_item {value : Value} {before : List Value}
    (h : (State.complete value (.item before :: stack)).Consumed text) (hblanks : Blanks blanks) :
    (State.awaitsValue (.item (value :: before) :: stack)).Consumed
      (text ++ (blanks ++ [','])) := by
  rcases exists_padded_of_consumed h hblanks with ⟨outer, padded, houter, hpadded, heq⟩
  rw [← List.append_assoc, heq, List.append_assoc]
  exact .item houter hpadded

theorem consumed_closeArray {value : Value} {before : List Value}
    (h : (State.complete value (.item before :: stack)).Consumed text) (hblanks : Blanks blanks) :
    (State.complete (.array (value :: before).reverse) stack).Consumed
      (text ++ (blanks ++ [']'])) := by
  rcases exists_padded_of_consumed h hblanks with ⟨outer, padded, houter, hpadded, heq⟩
  rcases houter.items (.item hpadded) with ⟨around, between, all, haround, hbetween, hall, hsplit⟩
  refine ⟨around, between, _, haround, hbetween, .array (List.reverse_cons ▸ hall), ?_⟩
  rw [← List.append_assoc, heq, hsplit]
  simp only [List.append_assoc, List.cons_append]

theorem consumed_comma_member {value : Value} {before : List (List UInt16 × Value)}
    {key : List UInt16} (h : (State.complete value (.member before key :: stack)).Consumed text)
    (hblanks : Blanks blanks) :
    (State.awaitsKey ((key, value) :: before) stack).Consumed (text ++ (blanks ++ [','])) := by
  rcases exists_padded_of_consumed h hblanks with ⟨outer, padded, houter, hpadded, heq⟩
  rw [← List.append_assoc, heq, List.append_assoc]
  exact .member houter hpadded

theorem consumed_closeObject {value : Value} {before : List (List UInt16 × Value)}
    {key : List UInt16} (h : (State.complete value (.member before key :: stack)).Consumed text)
    (hblanks : Blanks blanks) :
    (State.complete (.object ((key, value) :: before).reverse) stack).Consumed
      (text ++ (blanks ++ ['\x7d'])) := by
  rcases exists_padded_of_consumed h hblanks with ⟨outer, padded, houter, hpadded, heq⟩
  cases houter with
  | @colon _ _ _ front space name between hfront hspace hname hbetween =>
      have hpair := Written.pair hspace hname hbetween hpadded
      rcases hfront.members (.member hpair) with
        ⟨around, gap, all, haround, hgap, hall, hsplit⟩
      refine ⟨around, gap, _, haround, hgap, .object (List.reverse_cons ▸ hall), ?_⟩
      rw [← List.append_assoc, heq]
      have hclosed := congrArg (· ++ ['\x7d']) hsplit
      simpa only [List.append_assoc, List.cons_append, List.nil_append] using hclosed

theorem step_awaitsFirstItem (h : token ≠ .closeArray) :
    (State.awaitsFirstItem stack).step token = State.begin (.item [] :: stack) token := by
  cases token with
  | closeArray => exact absurd rfl h
  | _ => rfl

/-- One token leads from a text of a state to one of the next. -/
theorem State.consumed_step {state : State} (h : state.step token = some next)
    (hconsumed : state.Consumed text) (hblanks : Blanks blanks) (hword : Spelling token word) :
    next.Consumed (text ++ (blanks ++ word)) := by
  cases state with
  | awaitsValue stack => exact consumed_begin h hconsumed hblanks hword
  | awaitsFirstItem stack =>
      by_cases hclose : token = .closeArray
      · subst hclose
        rcases h with ⟨⟩
        cases hword
        exact consumed_closeEmptyArray hconsumed hblanks
      · rw [step_awaitsFirstItem hclose] at h
        exact consumed_begin h hconsumed hblanks hword
  | awaitsFirstKey stack =>
      cases hword with
      | closeObject =>
          rcases h with ⟨⟩
          exact consumed_closeEmptyObject hconsumed hblanks
      | string hname =>
          rcases h with ⟨⟩
          exact ⟨text, blanks, _, hconsumed, hblanks, hname, rfl⟩
      | _ => exact nomatch h
  | awaitsKey before stack =>
      cases hword with
      | string hname =>
          rcases h with ⟨⟩
          exact ⟨text, blanks, _, hconsumed, hblanks, hname, rfl⟩
      | _ => exact nomatch h
  | awaitsColon before key stack =>
      cases hword with
      | colon =>
          rcases h with ⟨⟩
          rcases hconsumed with ⟨outer, space, name, houter, hspace, hname, rfl⟩
          have hopened := Opened.colon houter hspace hname hblanks
          simpa only [State.Consumed, List.append_assoc, List.cons_append, List.nil_append]
            using hopened
      | _ => exact nomatch h
  | complete value stack =>
      cases stack with
      | nil => cases token <;> exact nomatch h
      | cons frame stack =>
          cases frame with
          | item before =>
              cases hword with
              | comma =>
                  rcases h with ⟨⟩
                  exact consumed_comma_item hconsumed hblanks
              | closeArray =>
                  rcases h with ⟨⟩
                  exact consumed_closeArray hconsumed hblanks
              | _ => exact nomatch h
          | member before key =>
              cases hword with
              | comma =>
                  rcases h with ⟨⟩
                  exact consumed_comma_member hconsumed hblanks
              | closeObject =>
                  rcases h with ⟨⟩
                  exact consumed_closeObject hconsumed hblanks
              | _ => exact nomatch h

end Step

/-- And so do all tokens of a text, up to the blanks behind the last. The induction
    is on the text they spell. -/
theorem Takes.consumed {state last : State} {tokens : List Token} {text more : List Char}
    (hspelled : Spelled tokens more) (h : Takes state tokens last)
    (hconsumed : state.Consumed text) :
    ∃ read blanks, more = read ++ blanks ∧ Blanks blanks ∧ last.Consumed (text ++ read) := by
  induction hspelled generalizing state text with
  | @nil blanks hblanks =>
      rcases h with ⟨⟩
      refine ⟨[], blanks, rfl, hblanks, ?_⟩
      rw [List.append_nil]
      exact hconsumed
  | @cons token tokens blanks word rest hblanks hword _ ih =>
      rw [Takes, List.foldlM_cons, Option.bind_eq_bind] at h
      rcases Option.bind_eq_some_iff.mp h with ⟨next, hstep, hrest⟩
      rcases ih hrest (State.consumed_step hstep hconsumed hblanks hword) with
        ⟨read, behind, rfl, hbehind, hlast⟩
      refine ⟨blanks ++ (word ++ read), behind, ?_, hbehind, ?_⟩
      · rw [List.append_assoc, List.append_assoc]
      · rw [List.append_assoc, List.append_assoc] at hlast
        exact hlast

theorem Opened.eq_nil {text : List Char} (h : Opened (.value []) text) : text = [] := by
  cases h with
  | nothing => rfl

theorem isText_of_parse? {text : String} {value : Value} (h : parse? text = some value) :
    IsText text value := by
  rw [parse?, Option.bind_eq_bind] at h
  rcases Option.bind_eq_some_iff.mp h with ⟨tokens, htokens, hvalue⟩
  rw [ofTokens?, Option.bind_eq_bind] at hvalue
  rcases Option.bind_eq_some_iff.mp hvalue with ⟨last, htakes, hresult⟩
  -- Only a complete value with nothing open around it is a result.
  have hlast : last = .complete value [] := by
    unfold State.result? at hresult
    split at hresult
    · rcases hresult with ⟨⟩
      rfl
    · exact absurd hresult (Option.some_ne_none value).symm
  subst hlast
  rcases Takes.consumed (spelled_of_tokens? htokens) htakes .nothing with
    ⟨read, behind, htext, hbehind, outer, blanks, word, houter, hblanks, hword, hread⟩
  rw [houter.eq_nil, List.nil_append, List.nil_append] at hread
  rw [IsText, htext, hread, List.append_assoc]
  exact .padded hblanks hword hbehind

/-- The reader reads the grammar: a text is read as a value iff it is a text of that
    value. -/
theorem parse?_eq_some_iff {text : String} {value : Value} :
    parse? text = some value ↔ IsText text value :=
  ⟨isText_of_parse?, IsText.parse?_eq⟩

end Json

end SymbolLocator
