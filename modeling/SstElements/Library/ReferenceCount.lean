import Mathlib.Data.List.Count

/-!
# Counted references

Objects are known by name.  An object has a count while it exists, and is given up with
its last reference.
-/

namespace SstElements.Library

open Function

universe u

variable {ι : Type u} {count : ι → Option Nat} {uses : ι → Nat} {x : ι}

/-- The objects with references are those that exist, and their counts are right. -/
def Counted (count : ι → Option Nat) (uses : ι → Nat) : Prop :=
  ∀ x, count x = if uses x = 0 then none else some (uses x)

theorem Counted.eq_none_iff (h : Counted count uses) : count x = none ↔ uses x = 0 := by
  rw [h x]
  split <;> simp [*]

theorem Counted.eq_of_eq_some {n : Nat} (h : Counted count uses) (hcount : count x = some n) :
    n = uses x := by
  rw [h x] at hcount
  split at hcount
  case isTrue => cases hcount
  case isFalse =>
    cases hcount
    rfl

variable [DecidableEq ι]

/-- A new object has one reference. -/
def acquire (count : ι → Option Nat) (x : ι) : ι → Option Nat := update count x (some 1)

/-- One more reference to an object that exists. -/
def retain (count : ι → Option Nat) (x : ι) : ι → Option Nat :=
  update count x ((count x).map (· + 1))

/-- A reference goes, and the object with the last one. -/
def release (count : ι → Option Nat) (x : ι) : ι → Option Nat :=
  update count x ((count x).bind fun n => if 1 < n then some (n - 1) else none)

variable {uses' : ι → Nat}

theorem Counted.acquire (h : Counted count uses) (hnew : count x = none)
    (huses : ∀ y, uses' y = uses y + if x = y then 1 else 0) :
    Counted (acquire count x) uses' := by
  intro y
  rw [huses]
  unfold Library.acquire
  by_cases heq : y = x
  · subst heq
    rw [update_self, (h.eq_none_iff).1 hnew, if_pos rfl]
    rfl
  · rw [update_of_ne heq, if_neg (Ne.symm heq)]
    exact h y

theorem Counted.retain (h : Counted count uses) (hused : uses x ≠ 0)
    (huses : ∀ y, uses' y = uses y + if x = y then 1 else 0) :
    Counted (retain count x) uses' := by
  intro y
  rw [huses]
  unfold Library.retain
  by_cases heq : y = x
  · subst heq
    rw [update_self, h y, if_neg hused, if_pos rfl]
    rfl
  · rw [update_of_ne heq, if_neg (Ne.symm heq)]
    exact h y

/-- A use that ends is counted off, the last one frees. -/
theorem Counted.release (h : Counted count uses)
    (huses : ∀ y, uses y = uses' y + if x = y then 1 else 0) :
    Counted (release count x) uses' := by
  intro y
  have hy := h y
  rw [huses] at hy
  unfold Library.release
  by_cases heq : y = x
  · subst heq
    rw [if_pos rfl, if_neg (Nat.succ_ne_zero _)] at hy
    rw [update_self, hy, Option.bind_some]
    by_cases hzero : uses' y = 0
    · rw [hzero]
      rfl
    · rw [if_neg hzero, if_pos (Nat.succ_lt_succ (Nat.pos_of_ne_zero hzero)), Nat.add_sub_cancel]
  · rw [if_neg (Ne.symm heq)] at hy
    rw [update_of_ne heq]
    exact hy

end SstElements.Library
