import SymbolLocator.Checks

/-!
# Lists of Checks

What a sequence of checks decides, said without running it.

Loading an image and looking up a path are long chains of checks, each with an
error of its own. Written as code, which error wins is a matter of control
flow. Written as a list of conditions it can be read off: the outcome is the
error of the first condition that does not hold, and success if all hold.

`Follows` ties the two together. It says of a computation that it succeeds,
with a value as described, if a list of checks all hold, and reports the first
that fails otherwise. The rules are one per way of writing a check, and each
hands the facts established so far to what comes next. That is needed because
a later check may only make sense behind an earlier one: a difference of words
is the difference of the numbers only once it is known not to be negative.

## Main definitions

* `Check`: A condition and the error for where it does not hold.
* `AllHold`: All conditions of a list hold.
* `FirstFailure`: The first condition of a list that does not hold has a given
  error.
* `Follows`: A computation decides as a list of checks says.

## Theorems

* `FirstFailure.unique`: There is at most one first failure.
* `firstFailure_flatMap_range`: Where the checks come index by index, the least
  index with a failed one decides.
* `follows_require`, `follows_ensure`: A single check follows itself.
* `follows_bind`: A sequence follows the lists of its parts, one after the
  other.
* `follows_require_bind`, `follows_ensure_bind`: A sequence that begins with a
  single check.
* `Follows.eq_error_iff`: Which error a computation reports.
* `Follows.exists_ok_iff`: When a computation succeeds.
-/

namespace SymbolLocator

/-- A condition, and the error to report where it does not hold. -/
structure Check (ε : Type) where
  condition : Prop
  error : ε

variable {ε δ α β : Type}

/-- Every condition of the list holds. -/
def AllHold (checks : List (Check ε)) : Prop := ∀ check ∈ checks, check.condition

/-- Some condition of the list does not hold, all before it do, and `error` is
    the one that belongs to it. -/
def FirstFailure (checks : List (Check ε)) (error : ε) : Prop :=
  ∃ (passed : List (Check ε)) (failed : Check ε) (rest : List (Check ε)),
    checks = passed ++ failed :: rest ∧ AllHold passed ∧ ¬ failed.condition ∧
      failed.error = error

/-! ### Lists -/

@[simp] theorem allHold_nil : AllHold ([] : List (Check ε)) := by
  intro check hmem
  exact absurd hmem List.not_mem_nil

@[simp] theorem allHold_cons {check : Check ε} {checks : List (Check ε)} :
    AllHold (check :: checks) ↔ check.condition ∧ AllHold checks := by
  simp only [AllHold, List.mem_cons, forall_eq_or_imp]

@[simp] theorem allHold_append {first second : List (Check ε)} :
    AllHold (first ++ second) ↔ AllHold first ∧ AllHold second := by
  simp only [AllHold, List.mem_append, or_imp, forall_and]

theorem not_firstFailure_nil {error : ε} : ¬ FirstFailure [] error := by
  intro h
  rcases h with ⟨passed, failed, rest, hsplit, -⟩
  exact absurd hsplit.symm (List.append_ne_nil_of_right_ne_nil _ (List.cons_ne_nil _ _))

theorem firstFailure_cons {check : Check ε} {checks : List (Check ε)} {error : ε} :
    FirstFailure (check :: checks) error ↔
      (¬ check.condition ∧ check.error = error) ∨
        (check.condition ∧ FirstFailure checks error) := by
  constructor
  · intro h
    rcases h with ⟨passed, failed, rest, hsplit, hpassed, hfailed, herror⟩
    -- The list of the passed checks decides whether the first check is the failed one.
    cases passed with
    | nil =>
        rw [List.nil_append, List.cons.injEq] at hsplit
        rw [hsplit.1]
        exact Or.inl ⟨hfailed, herror⟩
    | cons head tail =>
        rw [List.cons_append, List.cons.injEq] at hsplit
        rw [allHold_cons] at hpassed
        rw [hsplit.1]
        exact Or.inr ⟨hpassed.1, tail, failed, rest, hsplit.2, hpassed.2, hfailed, herror⟩
  · intro h
    rcases h with ⟨hfailed, herror⟩ | ⟨hholds, passed, failed, rest, hsplit, hpassed, hrest⟩
    · exact ⟨[], check, checks, rfl, allHold_nil, hfailed, herror⟩
    · exact ⟨check :: passed, failed, rest, by rw [hsplit, List.cons_append],
        allHold_cons.mpr ⟨hholds, hpassed⟩, hrest⟩

theorem firstFailure_append {first second : List (Check ε)} {error : ε} :
    FirstFailure (first ++ second) error ↔
      FirstFailure first error ∨ (AllHold first ∧ FirstFailure second error) := by
  induction first with
  | nil => simp only [List.nil_append, not_firstFailure_nil, allHold_nil, true_and, false_or]
  | cons check checks ih =>
      rw [List.cons_append, firstFailure_cons, firstFailure_cons, ih, allHold_cons, and_or_left,
        or_assoc, and_assoc]

theorem FirstFailure.not_allHold {checks : List (Check ε)} {error : ε}
    (h : FirstFailure checks error) : ¬ AllHold checks := by
  rcases h with ⟨passed, failed, rest, rfl, -, hfailed, -⟩
  intro hall
  exact hfailed (hall failed (List.mem_append_right _ List.mem_cons_self))

theorem FirstFailure.exists_failed {checks : List (Check ε)} {error : ε}
    (h : FirstFailure checks error) :
    ∃ check ∈ checks, ¬ check.condition ∧ check.error = error := by
  rcases h with ⟨passed, failed, rest, rfl, -, hfailed, herror⟩
  exact ⟨failed, List.mem_append_right _ List.mem_cons_self, hfailed, herror⟩

/-- What is true of all errors of a list is true of the one that is
    reported. -/
theorem FirstFailure.of_forall {checks : List (Check ε)} {error : ε} {property : ε → Prop}
    (h : FirstFailure checks error) (hall : ∀ check ∈ checks, property check.error) :
    property error := by
  rcases h.exists_failed with ⟨check, hmem, -, herror⟩
  rw [← herror]
  exact hall check hmem

/-- There is at most one first failure. The two agree on whether the first
    check of the list holds, and so on, along the list. -/
theorem FirstFailure.unique {checks : List (Check ε)} {error other : ε}
    (h : FirstFailure checks error) (hother : FirstFailure checks other) : error = other := by
  induction checks with
  | nil => exact absurd h not_firstFailure_nil
  | cons check checks ih =>
      rw [firstFailure_cons] at h hother
      rcases h with ⟨hfails, herror⟩ | ⟨hholds, hrest⟩
      · rcases hother with ⟨-, herror'⟩ | ⟨hholds, -⟩
        · rw [← herror, ← herror']
        · exact absurd hholds hfails
      · rcases hother with ⟨hfails, -⟩ | ⟨-, hrest'⟩
        · exact absurd hholds hfails
        · exact ih hrest hrest'

/-! ### Lists for each index -/

section Indexed

variable {checks : Nat → List (Check ε)} {count : Nat}

theorem allHold_flatMap_range :
    AllHold ((List.range count).flatMap checks) ↔ ∀ i < count, AllHold (checks i) := by
  simp only [AllHold, List.mem_flatMap, List.mem_range]
  constructor
  · intro h i hi check hmem
    exact h check ⟨i, hi, hmem⟩
  · intro h check hmem
    rcases hmem with ⟨i, hi, hmem⟩
    exact h i hi check hmem

-- The induction is on the number of indices. The checks of the last one come behind all others,
-- so they decide only where every other index passes.
/-- Where each index has checks of its own, the least index with one that does
    not hold decides. -/
theorem firstFailure_flatMap_range {error : ε} :
    FirstFailure ((List.range count).flatMap checks) error ↔
      ∃ i < count, (∀ j < i, AllHold (checks j)) ∧ FirstFailure (checks i) error := by
  induction count with
  | zero => simp only [List.range_zero, List.flatMap_nil, not_firstFailure_nil, Nat.not_lt_zero,
      false_and, exists_false]
  | succ last ih =>
      rw [List.range_succ, List.flatMap_append, firstFailure_append, ih, allHold_flatMap_range,
        List.flatMap_singleton]
      constructor
      · intro h
        rcases h with ⟨i, hi, hbefore, hfail⟩ | ⟨hbefore, hfail⟩
        · exact ⟨i, Nat.lt_succ_of_lt hi, hbefore, hfail⟩
        · exact ⟨last, Nat.lt_succ_self last, hbefore, hfail⟩
      · intro h
        rcases h with ⟨i, hi, hbefore, hfail⟩
        rcases Nat.lt_succ_iff_lt_or_eq.mp hi with hlt | rfl
        · exact Or.inl ⟨i, hlt, hbefore, hfail⟩
        · exact Or.inr ⟨hbefore, hfail⟩

end Indexed

/-! ### Computations -/

/-- A computation decides as a list of checks says. If all of them hold it
    succeeds with a value that `described` is true of, and otherwise it reports
    the first that does not. -/
def Follows (outcome : Except ε α) (checks : List (Check ε)) (described : α → Prop) : Prop :=
  match outcome with
  | .ok value => AllHold checks ∧ described value
  | .error error => FirstFailure checks error

theorem follows_ok {value : α} {described : α → Prop} (h : described value) :
    Follows (.ok value : Except ε α) [] described :=
  ⟨allHold_nil, h⟩

theorem follows_require {error : ε} {option : Option α} {condition : Prop}
    (h : option ≠ none ↔ condition) :
    Follows (require error option) [⟨condition, error⟩]
      (fun value => option = some value ∧ condition) := by
  cases option with
  | none =>
      refine firstFailure_cons.mpr (Or.inl ⟨?_, rfl⟩)
      rw [← h]
      exact fun hne => hne rfl
  | some value =>
      have hholds : condition := h.mp (Option.some_ne_none value)
      exact ⟨allHold_cons.mpr ⟨hholds, allHold_nil⟩, rfl, hholds⟩

theorem follows_ensure {error : ε} {tested condition : Prop} [Decidable tested]
    (h : tested ↔ condition) :
    Follows (ensure tested error) [⟨condition, error⟩] (fun _ => condition) := by
  unfold ensure
  by_cases htested : tested
  · rw [if_pos htested]
    exact ⟨allHold_cons.mpr ⟨h.mp htested, allHold_nil⟩, h.mp htested⟩
  · rw [if_neg htested]
    exact firstFailure_cons.mpr (Or.inl ⟨fun hc => htested (h.mpr hc), rfl⟩)

/-- In a sequence the checks of the second part come behind those of the
    first. The second part may rely on what the first found. -/
theorem follows_bind {first : Except ε α} {next : α → Except ε β}
    {checks others : List (Check ε)} {found : α → Prop} {described : β → Prop}
    (hfirst : Follows first checks found)
    (hnext : ∀ value, found value → Follows (next value) others described) :
    Follows (first >>= next) (checks ++ others) described := by
  cases first with
  -- An error of the first part is that of the sequence, and the rest is not reached.
  | error error => exact firstFailure_append.mpr (Or.inl hfirst)
  | ok value =>
      -- Otherwise all checks of the first part hold, and the second part decides.
      have hvalue : Follows (next value) others described := hnext value hfirst.2
      show Follows (next value) (checks ++ others) described
      rcases hrun : next value with error | result
      · rw [hrun] at hvalue
        exact firstFailure_append.mpr (Or.inr ⟨hfirst.1, hvalue⟩)
      · rw [hrun] at hvalue
        exact ⟨allHold_append.mpr ⟨hfirst.1, hvalue.1⟩, hvalue.2⟩

theorem follows_require_bind {error : ε} {option : Option α} {next : α → Except ε β}
    {condition : Prop} {others : List (Check ε)} {described : β → Prop}
    (h : option ≠ none ↔ condition)
    (hnext : ∀ value, option = some value → condition → Follows (next value) others described) :
    Follows (require error option >>= next) (⟨condition, error⟩ :: others) described :=
  follows_bind (follows_require h) fun value hvalue => hnext value hvalue.1 hvalue.2

/-- A sequence that begins by demanding a value known to be there. -/
theorem follows_known_bind {error : ε} {option : Option α} {next : α → Except ε β}
    {others : List (Check ε)} {described : β → Prop} (h : option ≠ none)
    (hnext : ∀ value, option = some value → Follows (next value) others described) :
    Follows (require error option >>= next) others described := by
  rcases Option.ne_none_iff_exists'.mp h with ⟨value, hvalue⟩
  rw [hvalue]
  exact hnext value hvalue

theorem follows_ensure_bind {error : ε} {tested condition : Prop} [Decidable tested]
    {next : Unit → Except ε β} {others : List (Check ε)} {described : β → Prop}
    (h : tested ↔ condition) (hnext : condition → Follows (next ()) others described) :
    Follows (ensure tested error >>= next) (⟨condition, error⟩ :: others) described :=
  follows_bind (follows_ensure h) fun _ hcondition => hnext hcondition

theorem Follows.mono {outcome : Except ε α} {checks : List (Check ε)}
    {described weaker : α → Prop} (h : Follows outcome checks described)
    (hweaker : ∀ value, described value → weaker value) : Follows outcome checks weaker := by
  cases outcome with
  | error error => exact h
  | ok value => exact ⟨h.1, hweaker value h.2⟩

/-- Checks in front that all hold decide nothing. -/
theorem Follows.of_append {outcome : Except ε α} {first second : List (Check ε)}
    {described : α → Prop} (h : Follows outcome (first ++ second) described)
    (hfirst : AllHold first) : Follows outcome second described := by
  cases outcome with
  | error error =>
      rcases firstFailure_append.mp h with hfail | ⟨-, hfail⟩
      · exact absurd hfirst hfail.not_allHold
      · exact hfail
  | ok value => exact ⟨(allHold_append.mp h.1).2, h.2⟩

theorem Follows.of_cons {outcome : Except ε α} {check : Check ε} {checks : List (Check ε)}
    {described : α → Prop} (h : Follows outcome (check :: checks) described)
    (hcheck : check.condition) : Follows outcome checks described := by
  rw [← List.singleton_append] at h
  exact h.of_append (allHold_cons.mpr ⟨hcheck, allHold_nil⟩)

/-! ### Outcomes -/

-- Putting errors in other terms leaves a value as it is.
theorem mapError_eq_ok_iff {change : ε → δ} {outcome : Except ε α} {value : α} :
    outcome.mapError change = .ok value ↔ outcome = .ok value := by
  cases outcome with
  | error error =>
      show Except.error (change error) = .ok value ↔ _
      simp only [reduceCtorEq]
  | ok actual =>
      show Except.ok actual = .ok value ↔ _
      rw [Except.ok.injEq, Except.ok.injEq]

theorem mapError_eq_error_iff {change : ε → δ} {outcome : Except ε α} {error : δ} :
    outcome.mapError change = .error error ↔
      ∃ cause, outcome = .error cause ∧ change cause = error := by
  cases outcome with
  | error actual =>
      show Except.error (change actual) = .error error ↔ _
      simp only [Except.error.injEq, exists_eq_left']
  | ok value =>
      show Except.ok value = .error error ↔ _
      simp only [reduceCtorEq, false_and, exists_false]

-- A sequence depends on its second part only where the first part leads.
theorem bind_congr_of_ok {first : Except ε α} {next other : α → Except ε β}
    (h : ∀ value, first = .ok value → next value = other value) :
    (first >>= next) = (first >>= other) := by
  cases first with
  | error error => rfl
  | ok value => exact h value rfl

theorem exists_ok_of_isOk {outcome : Except ε α} (h : outcome.isOk = true) :
    ∃ value, outcome = .ok value := by
  cases outcome with
  | error error => exact absurd h Bool.false_ne_true
  | ok value => exact ⟨value, rfl⟩

theorem eq_ok_of_toOption {outcome : Except ε α} {value : α}
    (h : outcome.toOption = some value) : outcome = .ok value := by
  cases outcome with
  | error error => exact absurd h (Option.some_ne_none value).symm
  | ok actual => exact congrArg Except.ok (Option.some.inj h)

theorem exists_error_of_isOk {outcome : Except ε α} (h : outcome.isOk = false) :
    ∃ error, outcome = .error error := by
  cases outcome with
  | error error => exact ⟨error, rfl⟩
  | ok value => exact absurd h.symm Bool.false_ne_true

theorem Follows.eq_error_iff {outcome : Except ε α} {checks : List (Check ε)}
    {described : α → Prop} (h : Follows outcome checks described) {error : ε} :
    outcome = .error error ↔ FirstFailure checks error := by
  cases outcome with
  | ok value => exact ⟨fun heq => by simp at heq, fun hfail => absurd h.1 hfail.not_allHold⟩
  | error actual =>
      constructor
      · intro heq
        rw [Except.error.injEq] at heq
        exact heq ▸ h
      · intro hfail
        rw [FirstFailure.unique h hfail]

theorem Follows.exists_ok_iff {outcome : Except ε α} {checks : List (Check ε)}
    {described : α → Prop} (h : Follows outcome checks described) :
    (∃ value, outcome = .ok value) ↔ AllHold checks := by
  cases outcome with
  | ok value => exact ⟨fun _ => h.1, fun _ => ⟨value, rfl⟩⟩
  | error error =>
      refine ⟨fun ⟨value, heq⟩ => by simp at heq, fun hall => ?_⟩
      exact absurd hall (FirstFailure.not_allHold h)

/-- What is known of a value that a computation gives. -/
theorem Follows.of_eq_ok {outcome : Except ε α} {checks : List (Check ε)}
    {described : α → Prop} (h : Follows outcome checks described) {value : α}
    (heq : outcome = .ok value) : AllHold checks ∧ described value := by
  rw [heq] at h
  exact h

/-- Where the description determines the value, it says which value a
    computation gives. -/
theorem Follows.eq_ok_iff {outcome : Except ε α} {checks : List (Check ε)}
    {described : α → Prop} (h : Follows outcome checks described)
    (hunique : ∀ a b, described a → described b → a = b) {value : α} :
    outcome = .ok value ↔ AllHold checks ∧ described value := by
  refine ⟨h.of_eq_ok, fun ⟨hall, hvalue⟩ => ?_⟩
  rcases h.exists_ok_iff.mpr hall with ⟨actual, hactual⟩
  rw [hactual, hunique actual value (h.of_eq_ok hactual).2 hvalue]

end SymbolLocator
