import Mathlib.Data.List.Count
import Mathlib.Data.List.Perm.Basic
import Mathlib.Logic.Relation
import SymbolLocator.Options.Document
import SymbolLocator.Proofs.JsonReader

/-!
# Option Documents by Meaning

What the options in a document depend on.

A document has many texts, and the options must not depend on which one it is
given as. All that matters is the members of the object, with their keys as the
text they denote, and of those only the ones with a known key. So there are two
statements. One says what the options are: each of the two keys occurs at most
once and holds a boolean, and this is the option, or the key is missing and the
option is on. The other says what can be done to a text without changing the
outcome: it can be written differently, its members can be put in another order,
and members with other keys can be added, whatever they hold and however often
they occur. It is shown for one such change, and then for any number of them.

The grammar of JSON decides what is a document, and the reader is not mentioned
in it. That a member which is of no consequence is skipped as a whole, and the
next one is found behind it, is what the grammar and the reader agree on
(`Json.parse?_eq_some_iff`). So options are never read from anything that is not
JSON, either.

## Main definitions

* `Utf16.units`: The code units of a text.
* `Options.IsDocument`: A text of an object, whose keys are text.
* `Options.Admits`: The members with a key can be read as an option.
* `Options.TakenFrom`: The option that members hold, or the default.
* `Options.Rewrites`: One change that keeps the meaning of a document.
* `Options.Rewriting`: Any number of them.

## Theorems

* `Utf16.decode?_units`: A text is what its units denote.
* `Options.exists_field?_iff`, `Options.takenFrom_of_field?`: Whether members
  hold an option, and what it is.
* `Options.field?_congr`: Only the members with its key decide it.
* `Options.IsDocument.unique`: What members a text has.
* `Options.ofJson?_eq_some_iff_isText`: Options are read from JSON only.
* `Options.Rewrites.ofJson?_eq`: One change does not change the outcome.
* `Options.isDocument_toJson`: The document that options are written as.
* `options_read_by_meaning`: What a document holds, and what it does not depend
  on.
-/

namespace SymbolLocator

/-! ### Code units -/

namespace Utf16

/-- The code units of a text. -/
def units (text : String) : List UInt16 := text.toList.flatMap encode

theorem decode?_cons_of_single {unit : UInt16} (hhigh : isHigh unit = false)
    (hlow : isLow unit = false) (rest : List UInt16) :
    decode? (unit :: rest) = (decode? rest).map (Char.ofNat unit.toNat :: ·) := by
  cases rest with
  | nil => simp [decode?, hhigh, hlow]
  | cons next rest => simp [decode?, hhigh, hlow]

theorem decode?_cons_of_pair {high low : UInt16} (hhigh : isHigh high = true)
    (hlow : isLow low = true) (rest : List UInt16) :
    decode? (high :: low :: rest) = (decode? rest).map (pair high low :: ·) := by
  rw [decode?, if_pos hhigh, if_pos hlow]

theorem isHigh_eq (unit : UInt16) :
    isHigh unit = decide (0xD800 ≤ unit.toNat ∧ unit.toNat < 0xDC00) := by
  simp [isHigh, UInt16.le_iff_toNat_le, UInt16.lt_iff_toNat_lt]

theorem isLow_eq (unit : UInt16) :
    isLow unit = decide (0xDC00 ≤ unit.toNat ∧ unit.toNat < 0xE000) := by
  simp [isLow, UInt16.le_iff_toNat_le, UInt16.lt_iff_toNat_lt]

theorem decode?_encode_append (char : Char) (rest : List UInt16) :
    decode? (encode char ++ rest) = (decode? rest).map (char :: ·) := by
  have hvalid : char.toNat.isValidChar := char.valid
  have hbound : char.toNat < 0x110000 := by
    rcases hvalid with h | h <;> omega
  unfold encode
  dsimp only
  by_cases hbasic : char.toNat < 0x10000
  · have hunit : (UInt16.ofNat char.toNat).toNat = char.toNat := UInt16.toNat_ofNat_of_lt hbasic
    rw [if_pos hbasic, List.singleton_append, decode?_cons_of_single, hunit, Char.ofNat_toNat]
    · rw [isHigh_eq, hunit, decide_eq_false_iff_not]
      rcases hvalid with h | h <;> omega
    · rw [isLow_eq, hunit, decide_eq_false_iff_not]
      rcases hvalid with h | h <;> omega
  · have hhigh : (UInt16.ofNat (0xD800 + (char.toNat - 0x10000) / 0x400)).toNat =
        0xD800 + (char.toNat - 0x10000) / 0x400 :=
      UInt16.toNat_ofNat_of_lt (show _ < 0x10000 by omega)
    have hlow : (UInt16.ofNat (0xDC00 + (char.toNat - 0x10000) % 0x400)).toNat =
        0xDC00 + (char.toNat - 0x10000) % 0x400 :=
      UInt16.toNat_ofNat_of_lt (show _ < 0x10000 by omega)
    have hvalue : 0x10000 + (0xD800 + (char.toNat - 0x10000) / 0x400 - 0xD800) * 0x400 +
        (0xDC00 + (char.toNat - 0x10000) % 0x400 - 0xDC00) = char.toNat := by
      omega
    rw [if_neg hbasic, List.cons_append, List.singleton_append, decode?_cons_of_pair, pair, hhigh,
      hlow, hvalue, Char.ofNat_toNat]
    · rw [isHigh_eq, hhigh, decide_eq_true_iff]
      omega
    · rw [isLow_eq, hlow, decide_eq_true_iff]
      omega

/-- A text is what its units denote. -/
theorem decode?_units (text : String) : decode? (units text) = some text.toList := by
  unfold units
  induction text.toList with
  | nil => rfl
  | cons char chars ih => rw [List.flatMap_cons, decode?_encode_append, ih, Option.map_some]

end Utf16

namespace Options

/-! ### Members -/

/-- The text is that of an object with the members, and every key in it is text. -/
def IsDocument (text : String) (members : List (String × Json.Value)) : Prop :=
  Json.IsText text (.object (members.map fun (key, value) => (Utf16.units key, value)))

/-- At most one of the members has the key, and it holds a boolean. -/
structure Admits (key : String) (members : List (String × Json.Value)) : Prop where
  once : (members.map Prod.fst).count key ≤ 1
  bool : ∀ value, (key, value) ∈ members → ∃ held, value = .bool held

/-- The option is what the member with the key holds, or `true` if there is no such
    member. -/
structure TakenFrom (key : String) (members : List (String × Json.Value)) (option : Bool) :
    Prop where
  held : ∀ held, (key, .bool held) ∈ members → option = held
  missing : key ∉ members.map Prod.fst → option = true

/-- The members with a key. -/
def named (key : String) (members : List (String × Json.Value)) : List (String × Json.Value) :=
  members.filter fun member => member.1 == key

variable {key : String} {members others : List (String × Json.Value)}

theorem mem_named_iff {member : String × Json.Value} :
    member ∈ named key members ↔ member ∈ members ∧ member.1 = key := by
  rw [named, List.mem_filter, beq_iff_eq]

theorem length_named (key : String) (members : List (String × Json.Value)) :
    (named key members).length = (members.map Prod.fst).count key := by
  rw [named, List.count, List.countP_map, List.countP_eq_length_filter]
  rfl

theorem named_eq_nil_iff : named key members = [] ↔ key ∉ members.map Prod.fst := by
  rw [← List.length_eq_zero_iff, length_named, List.count_eq_zero]

theorem field?_of_named_two {first second : String × Json.Value}
    {rest : List (String × Json.Value)} (h : named key members = first :: second :: rest) :
    field? key members = none := by
  rcases first with ⟨name, value⟩
  rw [field?, ← named, h]
  cases value <;> rfl

/-- The option is decided by the members with the key: there is none, or one that
    holds a boolean, or there is no option. -/
theorem field?_cases (key : String) (members : List (String × Json.Value)) :
    (named key members = [] ∧ field? key members = some true) ∨
      (∃ held, named key members = [(key, .bool held)] ∧ field? key members = some held) ∨
      field? key members = none ∧ ¬ Admits key members := by
  match hnamed : named key members with
  | [] => exact Or.inl ⟨rfl, by rw [field?, ← named, hnamed]⟩
  | [(name, value)] =>
      have hmember := mem_named_iff.mp (hnamed ▸ List.mem_singleton_self (name, value))
      have hname : name = key := hmember.2
      subst hname
      cases value with
      | bool held => exact Or.inr (Or.inl ⟨held, rfl, by rw [field?, ← named, hnamed]⟩)
      | _ =>
          refine Or.inr (Or.inr ⟨by rw [field?, ← named, hnamed], fun h => ?_⟩)
          rcases h.bool _ hmember.1 with ⟨held, hheld⟩
          exact nomatch hheld
  | _ :: _ :: _ =>
      refine Or.inr (Or.inr ⟨field?_of_named_two hnamed, fun h => ?_⟩)
      have honce := h.once
      rw [← length_named, hnamed, List.length_cons, List.length_cons] at honce
      omega

theorem admits_of_named_nil (h : named key members = []) : Admits key members where
  once := by
    rw [← length_named, h]
    exact Nat.zero_le 1
  bool := by
    intro value hmem
    have hnamed := mem_named_iff.mpr ⟨hmem, rfl⟩
    rw [h] at hnamed
    exact absurd hnamed List.not_mem_nil

theorem admits_of_named_singleton {held : Bool} (h : named key members = [(key, .bool held)]) :
    Admits key members where
  once := by
    rw [← length_named, h]
    exact Nat.le_refl 1
  bool := by
    intro value hmem
    have hnamed := mem_named_iff.mpr ⟨hmem, rfl⟩
    rw [h, List.mem_singleton] at hnamed
    exact ⟨held, (Prod.mk.inj hnamed).2⟩

theorem exists_field?_iff : (∃ option, field? key members = some option) ↔ Admits key members := by
  rcases field?_cases key members with ⟨hnamed, hfield⟩ | ⟨held, hnamed, hfield⟩ | ⟨hfield, hnot⟩
  · exact iff_of_true ⟨true, hfield⟩ (admits_of_named_nil hnamed)
  · exact iff_of_true ⟨held, hfield⟩ (admits_of_named_singleton hnamed)
  · rw [hfield]
    exact iff_of_false (fun ⟨_, h⟩ => nomatch h) hnot

theorem takenFrom_of_field? {option : Bool} (h : field? key members = some option) :
    TakenFrom key members option where
  held := by
    intro held hmem
    have hnamed := mem_named_iff.mpr ⟨hmem, rfl⟩
    rcases field?_cases key members with ⟨hnil, -⟩ | ⟨other, hone, hfield⟩ | ⟨hfield, -⟩
    · rw [hnil] at hnamed
      exact absurd hnamed List.not_mem_nil
    · rw [hone, List.mem_singleton, Prod.mk.injEq, Json.Value.bool.injEq] at hnamed
      rw [h, Option.some.injEq] at hfield
      rw [hfield, hnamed.2]
    · rw [h] at hfield
      exact nomatch hfield
  missing := by
    intro hmissing
    rw [← named_eq_nil_iff] at hmissing
    rw [field?, ← named, hmissing, Option.some.injEq] at h
    exact h.symm

/-- Two lists of members hold the same option, if they have the same members with
    the key. -/
theorem field?_congr (h : (named key members).Perm (named key others)) :
    field? key members = field? key others := by
  match hnamed : named key members, hother : named key others with
  | [], [] => rw [field?, field?, ← named, ← named, hnamed, hother]
  | [member], [other] =>
      rw [hnamed, hother, List.singleton_perm_singleton] at h
      rw [field?, field?, ← named, ← named, hnamed, hother, h]
  | _ :: _ :: _, _ :: _ :: _ => rw [field?_of_named_two hnamed, field?_of_named_two hother]
  | [], _ :: _ | _ :: _, [] | [_], _ :: _ :: _ | _ :: _ :: _, [_] =>
      have hlength := h.length_eq
      rw [hnamed, hother] at hlength
      simp at hlength

/-! ### Outcomes -/

theorem keyed?_units (members : List (String × Json.Value)) :
    keyed? (members.map fun (key, value) => (Utf16.units key, value)) = some members := by
  induction members with
  | nil => rfl
  | cons member members ih =>
      rcases member with ⟨key, value⟩
      rw [keyed?] at ih ⊢
      rw [List.map_cons, List.mapM_cons, ih]
      dsimp only
      rw [Utf16.decode?_units, Option.map_some, String.ofList_toList]
      rfl

variable {text other : String}

/-- A text has one list of members only. -/
theorem IsDocument.unique (h : IsDocument text members) (hother : IsDocument text others) :
    members = others := by
  have hobject := Json.IsText.unique h hother
  rw [Json.Value.object.injEq] at hobject
  have hkeyed := keyed?_units members
  rw [hobject, keyed?_units, Option.some.injEq] at hkeyed
  exact hkeyed.symm

/-- Options are read from JSON only, and from every text of a value that holds
    them. -/
theorem ofJson?_eq_some_iff_isText {options : Options} :
    ofJson? text = some options ↔
      ∃ value, Json.IsText text value ∧ ofValue? value = some options := by
  rw [ofJson?, Option.bind_eq_bind, Option.bind_eq_some_iff]
  constructor
  · rintro ⟨value, hparse, hvalue⟩
    exact ⟨value, Json.parse?_eq_some_iff.mp hparse, hvalue⟩
  · rintro ⟨value, htext, hvalue⟩
    exact ⟨value, Json.parse?_eq_some_iff.mpr htext, hvalue⟩

/-- The outcome is that of the two options. -/
theorem ofJson?_of_isDocument (h : IsDocument text members) :
    ofJson? text = (field? "debug_support" members).bind fun debugSupport =>
      (field? "allow_te" members).bind fun allowTe => some { debugSupport, allowTe } := by
  rw [ofJson?, h.parse?_eq, Option.bind_eq_bind, Option.bind_some, ofValue?, keyed?_units,
    Option.bind_eq_bind, Option.bind_some]
  rfl

theorem ofJson?_eq_some_iff (h : IsDocument text members) {options : Options} :
    ofJson? text = some options ↔
      field? "debug_support" members = some options.debugSupport ∧
        field? "allow_te" members = some options.allowTe := by
  rw [ofJson?_of_isDocument h, Option.bind_eq_some_iff]
  constructor
  · rintro ⟨debugSupport, hdebug, hbind⟩
    rcases Option.bind_eq_some_iff.mp hbind with ⟨allowTe, hte, ⟨⟩⟩
    exact ⟨hdebug, hte⟩
  · rintro ⟨hdebug, hte⟩
    exact ⟨_, hdebug, Option.bind_eq_some_iff.mpr ⟨_, hte, rfl⟩⟩

theorem exists_ofJson?_iff (h : IsDocument text members) :
    (∃ options, ofJson? text = some options) ↔
      Admits "debug_support" members ∧ Admits "allow_te" members := by
  rw [← exists_field?_iff, ← exists_field?_iff]
  constructor
  · rintro ⟨options, hoptions⟩
    rcases (ofJson?_eq_some_iff h).mp hoptions with ⟨hdebug, hte⟩
    exact ⟨⟨_, hdebug⟩, ⟨_, hte⟩⟩
  · rintro ⟨⟨debugSupport, hdebug⟩, ⟨allowTe, hte⟩⟩
    exact ⟨⟨debugSupport, allowTe⟩, (ofJson?_eq_some_iff h).mpr ⟨hdebug, hte⟩⟩

/-! ### Rewriting -/

/-- One change of a text that keeps its meaning: it is written differently, with
    other blanks and escapes, or its members are put in another order, or a member
    with another key is added somewhere. -/
inductive Rewrites : String → String → Prop
  | respell {text other : String} {members : List (String × Json.Value)}
    (h : IsDocument text members) (hother : IsDocument other members) : Rewrites text other
  | reorder {text other : String} {members others : List (String × Json.Value)}
    (hperm : members.Perm others) (h : IsDocument text members)
    (hother : IsDocument other others) : Rewrites text other
  | insert {text other key : String} {value : Json.Value}
    {front back : List (String × Json.Value)} (hdebug : key ≠ "debug_support")
    (hte : key ≠ "allow_te") (h : IsDocument text (front ++ back))
    (hother : IsDocument other (front ++ (key, value) :: back)) : Rewrites text other

/-- Any number of such changes. -/
def Rewriting : String → String → Prop := Relation.ReflTransGen Rewrites

theorem ofJson?_congr (h : IsDocument text members) (hother : IsDocument other others)
    (hdebug : (named "debug_support" members).Perm (named "debug_support" others))
    (hte : (named "allow_te" members).Perm (named "allow_te" others)) :
    ofJson? other = ofJson? text := by
  rw [ofJson?_of_isDocument h, ofJson?_of_isDocument hother, field?_congr hdebug, field?_congr hte]

theorem named_insert {inserted : String} (hne : inserted ≠ key) (value : Json.Value)
    (front back : List (String × Json.Value)) :
    named key (front ++ (inserted, value) :: back) = named key (front ++ back) := by
  have hdropped : (inserted == key) = false := beq_false_of_ne hne
  rw [named, named, List.filter_append, List.filter_append, List.filter_cons, hdropped]
  rfl

/-- One change does not change the outcome. -/
theorem Rewrites.ofJson?_eq (h : Rewrites text other) : ofJson? other = ofJson? text := by
  cases h with
  | respell h hother => exact ofJson?_congr h hother (.refl _) (.refl _)
  | reorder hperm h hother => exact ofJson?_congr h hother (hperm.filter _) (hperm.filter _)
  | insert hdebug hte h hother =>
      refine ofJson?_congr h hother ?_ ?_
      · rw [named_insert hdebug]
      · rw [named_insert hte]

/-- Nor does any number of them. The induction is on their number. -/
theorem Rewriting.ofJson?_eq (h : Rewriting text other) : ofJson? other = ofJson? text := by
  induction h with
  | refl => rfl
  | tail _ hstep ih => rw [hstep.ofJson?_eq, ih]

/-! ### Written options -/

/-- Whether a character can be written as itself in a string. -/
def isPlain (char : Char) : Bool := decide (0x20 ≤ char.toNat) && char != '"' && char != '\\'

-- Characters that need no escape can all be written as themselves.
theorem stringText_flatMap {chars : List Char} (h : chars.all isPlain = true) :
    Json.StringText (chars.flatMap Utf16.encode) chars := by
  induction chars with
  | nil => exact .nil
  | cons char chars ih =>
      simp only [List.all_cons, isPlain, Bool.and_eq_true, decide_eq_true_iff, bne_iff_ne] at h
      rcases h with ⟨⟨⟨hcontrol, hquote⟩, hescape⟩, hrest⟩
      rw [List.flatMap_cons]
      exact .plain hcontrol hquote hescape (ih hrest)

theorem written_bool (value : Bool) :
    Json.Written (.bare (.bool value)) (toString value).toList := by
  cases value with
  | false => exact .falseName
  | true => exact .trueName

theorem written_member (key : String) (value : Bool) (h : key.toList.all isPlain = true) :
    Json.Written (.member (Utf16.units key) (.bool value))
      ('"' :: (key.toList ++ '"' :: ':' :: (toString value).toList)) :=
  .pair Json.blanks_nil (stringText_flatMap h) Json.blanks_nil (written_bool value).padded_of_bare

/-- The document that options are written as has both members. -/
theorem isDocument_toJson (options : Options) :
    IsDocument options.toJson
      [("debug_support", .bool options.debugSupport), ("allow_te", .bool options.allowTe)] := by
  have hdebug := written_member "debug_support" options.debugSupport rfl
  have hte := written_member "allow_te" options.allowTe rfl
  have hmembers := Json.Written.members hdebug (.member hte)
  have hobject := (Json.Written.object hmembers).padded_of_bare
  rw [IsDocument, Json.IsText, toJson]
  simpa [String.toList_append, debugSupportKey, allowTeKey] using hobject

end Options

open Options in
/-- A document has options iff each key occurs at most once in it and holds a
    boolean, and then they are what the members hold, or the default. Nothing that
    keeps the members with these keys changes the outcome. So whatever is done to
    the text that options are written as, they are read from it. What the members
    are is settled by the text, and a text that is not JSON has no options. -/
theorem options_read_by_meaning :
    (∀ text members, IsDocument text members →
      ((∃ options, ofJson? text = some options) ↔
        Admits "debug_support" members ∧ Admits "allow_te" members) ∧
      ∀ options, ofJson? text = some options →
        TakenFrom "debug_support" members options.debugSupport ∧
          TakenFrom "allow_te" members options.allowTe) ∧
    (∀ text other, Rewriting text other → ofJson? other = ofJson? text) ∧
    (∀ options : Options,
      IsDocument options.toJson
        [("debug_support", .bool options.debugSupport), ("allow_te", .bool options.allowTe)] ∧
      ∀ text, Rewriting options.toJson text → ofJson? text = some options) ∧
    (∀ text members others, IsDocument text members → IsDocument text others →
      members = others) ∧
    ∀ text options, ofJson? text = some options ↔
      ∃ value, Json.IsText text value ∧ ofValue? value = some options := by
  refine ⟨fun text members h => ⟨exists_ofJson?_iff h, fun options hoptions => ?_⟩,
    fun text other h => h.ofJson?_eq, fun options => ⟨isDocument_toJson options, fun text h => ?_⟩,
    fun text members others h hother => h.unique hother,
    fun text options => ofJson?_eq_some_iff_isText⟩
  · rcases (ofJson?_eq_some_iff h).mp hoptions with ⟨hdebug, hte⟩
    exact ⟨takenFrom_of_field? hdebug, takenFrom_of_field? hte⟩
  · rw [h.ofJson?_eq, ofJson?_eq_some_iff (isDocument_toJson options)]
    exact ⟨rfl, rfl⟩

/-- A text that says what `Options.withoutTe` is written as. The members are in the
    other order, with blanks and an escape at one key, and a third one is between
    them. -/
def rewrittenWithoutTe : String :=
  "\x7b \"\\u0061llow_te\" :false,\"x\":null,\"debug_support\":true\x7d"

open Options in
theorem rewrittenWithoutTe_read :
    Rewriting withoutTe.toJson rewrittenWithoutTe ∧
      ofJson? rewrittenWithoutTe = some withoutTe ∧
      Admits "allow_te"
        [("allow_te", .bool false), ("x", .null), ("debug_support", .bool true)] := by
  have hblank : Json.Blanks [' '] := fun _ hmem => Or.inl (List.mem_singleton.mp hmem)
  have hname : Json.StringText (Utf16.units "allow_te") "\\u0061llow_te".toList :=
    .unit (w := 0) (x := 0) (y := 6) (z := 1) (by decide) (by decide) (by decide) (by decide)
      (@stringText_flatMap "llow_te".toList rfl)
  have hallow := Json.Written.pair hblank hname hblank (written_bool false).padded_of_bare
  have hother := Json.Written.pair Json.blanks_nil (@stringText_flatMap "x".toList rfl)
    Json.blanks_nil Json.Written.nullName.padded_of_bare
  have hdebug := written_member "debug_support" true rfl
  have hmoved : IsDocument "\x7b \"\\u0061llow_te\" :false,\"debug_support\":true\x7d"
      [("allow_te", .bool false), ("debug_support", .bool true)] :=
    (Json.Written.object (.members hallow (.member hdebug))).padded_of_bare
  have hinserted : IsDocument rewrittenWithoutTe
      [("allow_te", .bool false), ("x", .null), ("debug_support", .bool true)] :=
    (Json.Written.object (.members hallow (.members hother (.member hdebug)))).padded_of_bare
  rcases options_read_by_meaning with ⟨hmeaning, -, hwritten, -, -⟩
  rcases hwritten withoutTe with ⟨hdocument, hread⟩
  have hrewriting : Rewriting withoutTe.toJson rewrittenWithoutTe :=
    .tail (.single (.reorder (.swap _ _ _) hdocument hmoved))
      (@Rewrites.insert _ _ "x" .null [_] [_] (by decide) (by decide) hmoved hinserted)
  have hoptions := hread _ hrewriting
  exact ⟨hrewriting, hoptions, ((hmeaning _ _ hinserted).1.mp ⟨_, hoptions⟩).2⟩

end SymbolLocator
