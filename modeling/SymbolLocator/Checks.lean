/-!
# Checks

Turning a missing value or a failed condition into an error.

Loading and looking up are sequences of checks, each with an error of its own,
and the first that fails decides. The lemmas here take such a sequence apart:
it succeeds iff every check passes, and it fails with an error iff some check
gives that error after all before it have passed.

## Main definitions

* `require`: The value of an option, or an error.
* `ensure`: Success if a condition holds, or an error.

## Theorems

* `bind_eq_ok_iff`, `bind_eq_error_iff`: A sequence of two checks.
* `require_eq_ok_iff`, `require_eq_error_iff`: The outcomes of `require`.
* `ensure_eq_ok_iff`, `ensure_eq_error_iff`: The outcomes of `ensure`.
-/

namespace SymbolLocator

variable {ε α β : Type}

/-- The value of an option, or `error` if there is none. -/
def require (error : ε) : Option α → Except ε α
  | some value => .ok value
  | none => .error error

/-- Success if `condition` holds, and `error` if it does not. -/
def ensure (condition : Prop) [Decidable condition] (error : ε) : Except ε Unit :=
  if condition then .ok () else .error error

theorem bind_eq_ok_iff {first : Except ε α} {next : α → Except ε β} {result : β} :
    (first >>= next) = .ok result ↔ ∃ value, first = .ok value ∧ next value = .ok result := by
  cases first <;> simp [bind, Except.bind]

theorem bind_eq_error_iff {first : Except ε α} {next : α → Except ε β} {error : ε} :
    (first >>= next) = .error error ↔
      first = .error error ∨ ∃ value, first = .ok value ∧ next value = .error error := by
  cases first <;> simp [bind, Except.bind]

@[simp] theorem require_eq_ok_iff {error : ε} {option : Option α} {value : α} :
    require error option = .ok value ↔ option = some value := by
  cases option <;> simp [require]

@[simp] theorem require_eq_error_iff {error other : ε} {option : Option α} :
    require error option = .error other ↔ option = none ∧ error = other := by
  cases option <;> simp [require]

@[simp] theorem ensure_eq_ok_iff {condition : Prop} [Decidable condition] {error : ε} {u : Unit} :
    ensure condition error = .ok u ↔ condition := by
  unfold ensure
  split <;> simp [*]

@[simp] theorem ensure_eq_error_iff {condition : Prop} [Decidable condition] {error other : ε} :
    ensure condition error = .error other ↔ ¬ condition ∧ error = other := by
  unfold ensure
  split <;> simp [*]

end SymbolLocator
