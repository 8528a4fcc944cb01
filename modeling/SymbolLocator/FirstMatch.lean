/-!
# First Matches

The first element of a list that passes a test, together with its position.

Tables in an image are searched front to back and the first hit counts, and a
message or an event names the position of the hit. `firstMatch_eq_some_iff`
says both at once.

## Main definitions

* `firstMatch`: The first element that passes a test, with its index.

## Theorems

* `firstMatch_eq_some_iff`: The hit is at the least index that passes.
* `firstMatch_eq_none_iff`: There is no hit iff nothing passes.
-/

namespace SymbolLocator

/-- The first element of `items` that passes `test`, with its index. -/
def firstMatch {α : Type} (test : α → Bool) (items : List α) : Option (Nat × α) :=
  (items.findIdx? test).bind fun index => items[index]?.map fun item => (index, item)

theorem firstMatch_eq_some_iff {α : Type} {test : α → Bool} {items : List α} {index : Nat}
    {item : α} :
    firstMatch test items = some (index, item) ↔
      items[index]? = some item ∧ test item = true ∧
        ∀ earlier < index, ∀ other, items[earlier]? = some other → test other = false := by
  simp only [firstMatch, Option.bind_eq_some_iff, Option.map_eq_some_iff,
    List.findIdx?_eq_some_iff_getElem, Prod.mk.injEq]
  constructor
  · rintro ⟨i, ⟨hi, hpass, hbefore⟩, a, ha, rfl, rfl⟩
    rw [List.getElem?_eq_getElem hi, Option.some.injEq] at ha
    refine ⟨by rw [List.getElem?_eq_getElem hi, ha], ha ▸ hpass, fun j hj b hb => ?_⟩
    have hlt : j < items.length := by omega
    rw [List.getElem?_eq_getElem hlt, Option.some.injEq] at hb
    simpa [hb] using hbefore j hj
  · rintro ⟨hget, hpass, hbefore⟩
    obtain ⟨hi, ha⟩ := List.getElem?_eq_some_iff.mp hget
    refine ⟨index, ⟨hi, ha ▸ hpass, fun j hj => ?_⟩, item, hget, rfl, rfl⟩
    have hlt : j < items.length := by omega
    simpa using hbefore j hj _ (List.getElem?_eq_getElem hlt)

theorem firstMatch_eq_none_iff {α : Type} {test : α → Bool} {items : List α} :
    firstMatch test items = none ↔ ∀ item ∈ items, test item = false := by
  constructor
  · intro h
    cases hindex : items.findIdx? test with
    | none => simpa using List.findIdx?_eq_none_iff.mp hindex
    | some index =>
        obtain ⟨hi, -⟩ := List.findIdx?_eq_some_iff_getElem.mp hindex
        simp [firstMatch, hindex, List.getElem?_eq_getElem hi] at h
  · intro h
    simp [firstMatch, List.findIdx?_eq_none_iff.mpr h]

end SymbolLocator
