/-!
# CodeView Signatures

The words that CodeView records begin with, one per layout.

All three layouts end with the path. They differ in what precedes it, so the
signature determines how many bytes are skipped.

## Main definitions

* `Signature`: The known layouts.
* `Signature.ofWord?`, `Signature.word`: Reading and writing the word.
* `Signature.headerSize`: The number of bytes in front of the path.

## Theorems

* `Signature.ofWord?_eq_some_iff`: The word determines the signature.
-/

namespace SymbolLocator

/-- The signature of a CodeView record. -/
inductive Signature where
  | nb10
  | rsds
  | mtoc
deriving DecidableEq, Repr

namespace Signature

/-- The four characters of a signature. -/
def name : Signature → String
  | nb10 => "NB10"
  | rsds => "RSDS"
  | mtoc => "MTOC"

/-- The characters of a signature, read as a little-endian word. -/
def word : Signature → UInt32
  | nb10 => 0x3031424E
  | rsds => 0x53445352
  | mtoc => 0x434F544D

/-- The number of bytes in front of the path, the signature included. -/
def headerSize : Signature → UInt32
  | nb10 => 16
  | rsds => 24
  | mtoc => 20

/-- The signature that a word is. -/
def ofWord? (word : UInt32) : Option Signature :=
  if word = nb10.word then some nb10
  else if word = rsds.word then some rsds
  else if word = mtoc.word then some mtoc
  else none

theorem ofWord?_eq_some_iff {word : UInt32} {signature : Signature} :
    ofWord? word = some signature ↔ signature.word = word := by
  unfold ofWord?
  split
  case isTrue h =>
    subst h
    cases signature <;> decide
  case isFalse hnb10 =>
    split
    case isTrue h =>
      subst h
      cases signature <;> decide
    case isFalse hrsds =>
      split
      case isTrue h =>
        subst h
        cases signature <;> decide
      case isFalse hmtoc =>
        cases signature <;> simp [Ne.symm hnb10, Ne.symm hrsds, Ne.symm hmtoc]

end Signature

end SymbolLocator
