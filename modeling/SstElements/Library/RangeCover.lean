import SstElements.Library.OrderedContainer

/-!
# Ranges that cover places

A map whose values occupy half-open ranges of places covers each place a number of
times.  Maps partition a range when together they cover each of its places once, and
no other place.  Coverage adds up, so splitting, joining and removing ranges is
arithmetic.
-/

namespace SstElements.Library

open List

universe u v

/-- One on the range, zero elsewhere. -/
def rangeIndicator (lo hi : Nat) : Nat → Int := fun b => if lo ≤ b ∧ b < hi then 1 else 0

theorem rangeIndicator_of_mem {lo hi b : Nat} (h : lo ≤ b ∧ b < hi) : rangeIndicator lo hi b = 1 :=
  if_pos h

theorem rangeIndicator_split {lo mid hi : Nat} (hlo : lo ≤ mid) (hhi : mid ≤ hi) :
    rangeIndicator lo hi = rangeIndicator lo mid + rangeIndicator mid hi := by
  funext b
  rw [Pi.add_apply]
  unfold rangeIndicator
  split <;> split <;> split <;> omega

theorem rangeIndicator_nonneg (lo hi b : Nat) : 0 ≤ rangeIndicator lo hi b := by
  unfold rangeIndicator
  split <;> omega

section Coverage

variable {α : Type v} (lo hi : α → Nat)

/-- How often the values of a map cover a place. -/
def coverage (m : OrderedMap Nat α) : Nat → Int := m.sumOf fun a => rangeIndicator (lo a) (hi a)

variable {lo hi} {m : OrderedMap Nat α} {k : Nat} {a : α} {b : Nat}

theorem coverage_erase (h : m.find? k = some a) :
    coverage lo hi (m.erase k) = coverage lo hi m - rangeIndicator (lo a) (hi a) :=
  OrderedMap.sumOf_erase _ h

theorem coverage_insert_new (a : α) (h : m.find? k = none) :
    coverage lo hi (m.insert k a) = coverage lo hi m + rangeIndicator (lo a) (hi a) :=
  OrderedMap.sumOf_insert_new _ a h

theorem coverage_insert (a' : α) (h : m.find? k = some a) :
    coverage lo hi (m.insert k a') =
      coverage lo hi m - rangeIndicator (lo a) (hi a) + rangeIndicator (lo a') (hi a') :=
  OrderedMap.sumOf_insert _ a' h

theorem coverage_apply (m : OrderedMap Nat α) (b : Nat) :
    coverage lo hi m b = (m.entries.map fun e => rangeIndicator (lo e.2) (hi e.2) b).sum := by
  unfold coverage OrderedMap.sumOf
  induction m.entries with
  | nil => rfl
  | cons e rest ih => rw [map_cons, sum_cons, Pi.add_apply, ih, map_cons, sum_cons]

/-- The coverage of a byte counts the ranges it is in. -/
theorem coverage_eq_countP (m : OrderedMap Nat α) (b : Nat) :
    coverage lo hi m b = (m.entries.countP fun e => decide (lo e.2 ≤ b ∧ b < hi e.2) : Nat) := by
  rw [coverage_apply]
  induction m.entries with
  | nil => rfl
  | cons e rest ih =>
    rw [map_cons, sum_cons, ih, countP_cons]
    by_cases he : lo e.2 ≤ b ∧ b < hi e.2
    · rw [rangeIndicator_of_mem he, if_pos (decide_eq_true he)]
      omega
    · rw [rangeIndicator, if_neg he, if_neg (by simpa using he)]
      omega

theorem coverage_nonneg (m : OrderedMap Nat α) (b : Nat) : 0 ≤ coverage lo hi m b := by
  rw [coverage_apply]
  refine sum_nonneg fun x hx => ?_
  obtain ⟨e, -, rfl⟩ := List.mem_map.1 hx
  exact rangeIndicator_nonneg _ _ _

theorem one_le_coverage (h : m.find? k = some a) (hb : lo a ≤ b ∧ b < hi a) :
    1 ≤ coverage lo hi m b := by
  have herase := congrFun (@coverage_erase α lo hi m k a h) b
  have hnonneg := @coverage_nonneg α lo hi (m.erase k) b
  rw [Pi.sub_apply, rangeIndicator_of_mem hb] at herase
  omega

/-- Two ranges over a byte cover it twice. -/
theorem two_le_coverage {k' : Nat} {a' : α} (hne : k' ≠ k) (h : m.find? k = some a)
    (h' : m.find? k' = some a') (hb : lo a ≤ b ∧ b < hi a) (hb' : lo a' ≤ b ∧ b < hi a') :
    2 ≤ coverage lo hi m b := by
  have herase := congrFun (@coverage_erase α lo hi m k a h) b
  have hother := one_le_coverage ((OrderedMap.find?_erase_of_ne m hne).trans h') hb'
  rw [Pi.sub_apply, rangeIndicator_of_mem hb] at herase
  omega

end Coverage

end SstElements.Library
